import HyperDHT.Lib.Trace
import HyperDHT.Rpc.Moves

/-!
# One completion for each request

A request object can be ended by its response, by its last timeout, by a cancellation and by the
closing of the socket, and it is moved from the queue to the list of those in flight on the way.
Whatever the order of these, it is completed at most once.

## Main definitions

* `Rpc.Over` — a request object has been ended.
* `Rpc.Logged` — what the log says about the request objects of a state.

## Main results

* `Rpc.Move.logged` — every move keeps the log and the request objects in step.
* `Rpc.one_completion_per_request` — in every run a request object gets at most one callback, is
  transmitted at most once more than it has retries, and gets no callback after it was cancelled
  or the socket closed.
-/

set_option autoImplicit false

namespace HyperDHT.Rpc

open scoped List
open RpcSocket

variable {κ : Type} {s t : RpcSocket κ} {r : InflightRequest κ}

/-! ## The log -/

/-- The event runs a callback of the request object. -/
def Event.completes (ptr : ℕ) (e : Event) : Bool := e = .response ptr || e = .timeout ptr

/-- The number of the request object an event is about. -/
def Event.ptr? : Event → Option ℕ
  | .issued ptr _ _ | .sent ptr | .response ptr | .timeout ptr | .cancelled ptr => some ptr
  | .closed => none

/-- The request object was completed or cancelled, or the socket closed. -/
def Over (ptr : ℕ) (log : List Event) : Prop :=
  .response ptr ∈ log ∨ .timeout ptr ∈ log ∨ .cancelled ptr ∈ log ∨ .closed ∈ log

/-- A callback runs only for a request object that is not over. -/
def Allowed (history : List Event) (e : Event) : Prop :=
  ∀ ptr, e.completes ptr = true → ¬ Over ptr history

/-- **The log and the request objects are in step**: what the log says about the objects the
engine holds, and about all it ever accepted. -/
structure Logged (s : RpcSocket κ) : Prop where
  numbered : ∀ e ∈ s.log, ∀ ptr, e.ptr? = some ptr → ptr < s.nextPtr
  issued : ∀ r ∈ s.outstanding, r.issue ∈ s.log
  unique : ∀ ptr tid tid' n n', .issued ptr tid n ∈ s.log → .issued ptr tid' n' ∈ s.log →
    tid = tid' ∧ n = n'
  sent : ∀ r ∈ s.outstanding, s.log.count (.sent r.ptr) = r.sent
  sent_le : ∀ ptr tid n, .issued ptr tid n ∈ s.log → s.log.count (.sent ptr) ≤ n + 1
  unresolved : ∀ r ∈ s.outstanding, ¬ Over r.ptr s.log
  closed : .closed ∈ s.log → s.closing = true
  lawful : Trace.Always Allowed s.log

lemma over_concat {ptr : ℕ} {log : List Event} {e : Event} :
    Over ptr (log ++ [e]) ↔ Over ptr log ∨ Over ptr [e] := by
  simp only [Over, List.mem_append]
  tauto

lemma over_singleton {ptr : ℕ} {e : Event} (h : Over ptr [e]) :
    e = .closed ∨ e.ptr? = some ptr := by
  simp only [Over, List.mem_singleton] at h
  rcases h with rfl | rfl | rfl | rfl <;> simp [Event.ptr?]

lemma Logged.not_mem_of_ptr (h : Logged s) {e : Event} (he : e.ptr? = some s.nextPtr) :
    e ∉ s.log :=
  fun hmem => (h.numbered e hmem s.nextPtr he).false

lemma Logged.not_over_nextPtr (h : Logged s) (hopen : s.closing = false) :
    ¬ Over s.nextPtr s.log := by
  rintro (hmem | hmem | hmem | hmem)
  · exact h.not_mem_of_ptr rfl hmem
  · exact h.not_mem_of_ptr rfl hmem
  · exact h.not_mem_of_ptr rfl hmem
  · simp [h.closed hmem] at hopen

/-! ## Every move keeps the log in step -/

private lemma Logged.sub (h : Logged s) (hlog : t.log = s.log)
    (hsub : t.outstanding ⊆ s.outstanding) (hptr : s.nextPtr ≤ t.nextPtr)
    (hclosing : t.closing = s.closing) : Logged t where
  numbered e he ptr hp := (h.numbered e (hlog ▸ he) ptr hp).trans_le hptr
  issued r hr := hlog ▸ h.issued r (hsub hr)
  unique := hlog ▸ h.unique
  sent r hr := hlog ▸ h.sent r (hsub hr)
  sent_le := hlog ▸ h.sent_le
  unresolved r hr := hlog ▸ h.unresolved r (hsub hr)
  closed he := hclosing ▸ h.closed (hlog ▸ he)
  lawful := hlog ▸ h.lawful

private lemma Logged.numbered_concat (h : Logged s) {e : Event} (hlog : t.log = s.log ++ [e])
    (hptr : s.nextPtr ≤ t.nextPtr) (he : ∀ ptr, e.ptr? = some ptr → ptr < t.nextPtr) :
    ∀ e ∈ t.log, ∀ ptr, e.ptr? = some ptr → ptr < t.nextPtr := by
  intro e' he' ptr hp
  rw [hlog, List.mem_append, List.mem_singleton] at he'
  rcases he' with hold | rfl
  · exact (h.numbered e' hold ptr hp).trans_le hptr
  · exact he ptr hp

private lemma Logged.closed_concat (h : Logged s) {e : Event} (hlog : t.log = s.log ++ [e])
    (hclosing : t.closing = s.closing) (he : e ≠ .closed) (hmem : .closed ∈ t.log) :
    t.closing = true := by
  rw [hlog, List.mem_append, List.mem_singleton] at hmem
  rw [hclosing]
  exact h.closed (hmem.resolve_right fun heq => he heq.symm)

private lemma Logged.accept (h : Logged s) (hopen : s.closing = false)
    (hr : Fresh s r) (hlog : t.log = s.log ++ [r.issue])
    (hperm : t.outstanding ~ r :: s.outstanding) (hptr : t.nextPtr = s.nextPtr + 1)
    (hclosing : t.closing = s.closing) : Logged t := by
  have hnone : s.log.count (.sent s.nextPtr) = 0 :=
    List.count_eq_zero.2 (h.not_mem_of_ptr rfl)
  have hissue : ∀ ptr tid n, .issued ptr tid n ∈ t.log →
      .issued ptr tid n ∈ s.log ∧ ptr < s.nextPtr ∨
        ptr = s.nextPtr ∧ tid = r.tid ∧ n = r.retries := by
    intro ptr tid n hmem
    rw [hlog, List.mem_append, List.mem_singleton] at hmem
    rcases hmem with hmem | hmem
    · exact .inl ⟨hmem, h.numbered _ hmem ptr rfl⟩
    · obtain ⟨rfl, rfl, rfl⟩ := (Event.issued.injEq ..).mp hmem
      exact .inr ⟨hr.ptr, rfl, rfl⟩
  have hnew : ∀ ptr, r.issue.ptr? = some ptr → ptr < t.nextPtr := by
    intro ptr hp
    obtain rfl : r.ptr = ptr := by simpa [InflightRequest.issue, Event.ptr?] using hp
    rw [hr.ptr, hptr]
    omega
  refine ⟨h.numbered_concat hlog (by omega) hnew, fun b hb => ?_,
    fun ptr tid tid' n n' h₁ h₂ => ?_, fun b hb => ?_, fun ptr tid n hmem => ?_, fun b hb => ?_,
    h.closed_concat hlog hclosing (by simp [InflightRequest.issue]), ?_⟩
  · rw [hlog, List.mem_append, List.mem_singleton]
    rcases List.mem_cons.1 (hperm.mem_iff.1 hb) with rfl | hb
    · exact .inr rfl
    · exact .inl (h.issued b hb)
  · rcases hissue _ _ _ h₁ with ⟨h₁, hlt⟩ | ⟨rfl, rfl, rfl⟩ <;>
      rcases hissue _ _ _ h₂ with ⟨h₂, hlt'⟩ | ⟨hp, rfl, rfl⟩
    · exact h.unique ptr tid tid' n n' h₁ h₂
    · omega
    · omega
    · exact ⟨rfl, rfl⟩
  · have hcount : t.log.count (.sent b.ptr) = s.log.count (.sent b.ptr) := by
      rw [hlog, List.count_append]
      simp [InflightRequest.issue]
    rw [hcount]
    rcases List.mem_cons.1 (hperm.mem_iff.1 hb) with rfl | hb
    · rw [hr.ptr, hnone, hr.sent]
    · exact h.sent b hb
  · have hcount : t.log.count (.sent ptr) = s.log.count (.sent ptr) := by
      rw [hlog, List.count_append]
      simp [InflightRequest.issue]
    rw [hcount]
    rcases hissue _ _ _ hmem with ⟨hmem, -⟩ | ⟨rfl, -, -⟩
    · exact h.sent_le ptr tid n hmem
    · rw [hnone]
      exact Nat.zero_le _
  · rw [hlog, over_concat]
    rintro (hover | hover)
    · rcases List.mem_cons.1 (hperm.mem_iff.1 hb) with rfl | hb
      · exact h.not_over_nextPtr hopen (hr.ptr ▸ hover)
      · exact h.unresolved b hb hover
    · simp [Over, InflightRequest.issue] at hover
  · rw [hlog, Trace.always_concat]
    refine ⟨h.lawful, fun ptr hp => ?_⟩
    simp [InflightRequest.issue, Event.completes] at hp

private lemma Logged.transmit (h : Logged s) (hwf : WellFormed s)
    (hr : r ∈ s.inflight) (hsent : r.sent ≤ r.retries) (hlog : t.log = s.log ++ [.sent r.ptr])
    (hout : t.outstanding = countSent r.ptr s.outstanding) (hptr : t.nextPtr = s.nextPtr)
    (hclosing : t.closing = s.closing) : Logged t := by
  have hmem : r ∈ s.outstanding := mem_outstanding.2 (.inl hr)
  have hback : ∀ b ∈ t.outstanding, ∃ c ∈ s.outstanding,
      (if c.ptr = r.ptr then { c with sent := c.sent + 1 } else c) = b := by
    intro b hb
    rw [hout] at hb
    exact mem_countSent.1 hb
  have hcount : ∀ ptr, t.log.count (.sent ptr) =
      s.log.count (.sent ptr) + if ptr = r.ptr then 1 else 0 := by
    intro ptr
    rw [hlog, List.count_append, List.count_singleton]
    simp [eq_comm (a := ptr)]
  have hold : ∀ ptr tid n, .issued ptr tid n ∈ t.log → .issued ptr tid n ∈ s.log := by
    intro ptr tid n hi
    rw [hlog, List.mem_append] at hi
    simpa using hi
  have habout : ∀ ptr, (Event.sent r.ptr).ptr? = some ptr → ptr < t.nextPtr := by
    intro ptr hp
    obtain rfl : r.ptr = ptr := by simpa [Event.ptr?] using hp
    exact hptr ▸ hwf.ptr_lt r hmem
  refine ⟨h.numbered_concat hlog hptr.ge habout, fun b hb => ?_,
    fun ptr tid tid' n n' h₁ h₂ => ?_, fun b hb => ?_, fun ptr tid n hi => ?_, fun b hb => ?_,
    h.closed_concat hlog hclosing nofun, ?_⟩
  · obtain ⟨c, hc, rfl⟩ := hback b hb
    rw [hlog, List.mem_append]
    refine .inl ?_
    have := h.issued c hc
    split <;> exact this
  · exact h.unique ptr tid tid' n n' (hold _ _ _ h₁) (hold _ _ _ h₂)
  · obtain ⟨c, hc, rfl⟩ := hback b hb
    have hsame := h.sent c hc
    rw [hcount]
    split
    · next hptr => simpa [← hptr] using hsame
    · simp [hsame]
  · rw [hcount]
    split
    · next hp =>
      subst hp
      obtain ⟨-, rfl⟩ := h.unique _ _ _ _ _ (hold _ _ _ hi) (h.issued r hmem)
      rw [h.sent r hmem]
      omega
    · exact h.sent_le ptr tid n (hold _ _ _ hi)
  · obtain ⟨c, hc, rfl⟩ := hback b hb
    have hover : ¬ Over c.ptr t.log := by
      rw [hlog, over_concat]
      rintro (hover | hover)
      · exact h.unresolved c hc hover
      · simp [Over] at hover
    split <;> exact hover
  · rw [hlog, Trace.always_concat]
    refine ⟨h.lawful, fun ptr hp => ?_⟩
    simp [Event.completes] at hp

private lemma Resolves.about {e : Event} (he : Resolves r e) :
    e.ptr? = some r.ptr ∧ (∀ ptr, e ≠ .sent ptr) ∧ (∀ ptr tid n, e ≠ .issued ptr tid n) ∧
      e ≠ .closed := by
  cases he <;> simp [Event.ptr?]

private lemma Logged.resolve (h : Logged s) (hwf : WellFormed s) {e : Event}
    (hr : r ∈ s.inflight) (he : Resolves r e) (hlog : t.log = s.log ++ [e])
    (hperm : r :: t.outstanding ~ s.outstanding) (hptr : t.nextPtr = s.nextPtr)
    (hclosing : t.closing = s.closing) : Logged t := by
  obtain ⟨hptr?, hnsent, hnissued, hnclosed⟩ := he.about
  have hmem : r ∈ s.outstanding := mem_outstanding.2 (.inl hr)
  have hsub : ∀ b ∈ t.outstanding, b ∈ s.outstanding := fun b hb =>
    hperm.mem_iff.1 (List.mem_cons_of_mem r hb)
  have hother : ∀ b ∈ t.outstanding, b.ptr ≠ r.ptr := by
    intro b hb hbr
    have hnodup := (hperm.map (·.ptr)).nodup_iff.2 hwf.nodup
    rw [List.map_cons, List.nodup_cons] at hnodup
    exact hnodup.1 (hbr ▸ List.mem_map_of_mem hb)
  have hold : ∀ ptr tid n, .issued ptr tid n ∈ t.log → .issued ptr tid n ∈ s.log := by
    intro ptr tid n hi
    rw [hlog, List.mem_append, List.mem_singleton] at hi
    exact hi.resolve_right fun hi => hnissued ptr tid n hi.symm
  have hcount : ∀ ptr, t.log.count (.sent ptr) = s.log.count (.sent ptr) := by
    intro ptr
    have hzero : [e].count (.sent ptr) = 0 := by
      rw [List.count_eq_zero, List.mem_singleton]
      exact fun hs => hnsent ptr hs.symm
    rw [hlog, List.count_append, hzero, Nat.add_zero]
  have habout : ∀ ptr, e.ptr? = some ptr → ptr < t.nextPtr := by
    intro ptr hp
    obtain rfl : r.ptr = ptr := Option.some.inj (hptr?.symm.trans hp)
    exact hptr ▸ hwf.ptr_lt r hmem
  refine ⟨h.numbered_concat hlog hptr.ge habout, fun b hb => ?_,
    fun ptr tid tid' n n' h₁ h₂ => ?_, fun b hb => ?_, fun ptr tid n hi => ?_, fun b hb => ?_,
    h.closed_concat hlog hclosing hnclosed, ?_⟩
  · rw [hlog, List.mem_append]
    exact .inl (h.issued b (hsub b hb))
  · exact h.unique ptr tid tid' n n' (hold _ _ _ h₁) (hold _ _ _ h₂)
  · rw [hcount]
    exact h.sent b (hsub b hb)
  · rw [hcount]
    exact h.sent_le ptr tid n (hold _ _ _ hi)
  · rw [hlog, over_concat]
    rintro (hover | hover)
    · exact h.unresolved b (hsub b hb) hover
    · rcases over_singleton hover with hclosed | hsame
      · exact hnclosed hclosed
      · exact hother b hb (Option.some.inj (hsame.symm.trans hptr?))
  · rw [hlog, Trace.always_concat]
    refine ⟨h.lawful, fun ptr hp => ?_⟩
    -- the callback is that of the object that is still outstanding here
    have hsame : e.ptr? = some ptr := by
      simp only [Event.completes, Bool.or_eq_true, decide_eq_true_eq] at hp
      rcases hp with rfl | rfl <;> rfl
    obtain rfl : r.ptr = ptr := Option.some.inj (hptr?.symm.trans hsame)
    exact h.unresolved r hmem

lemma Quiet.logged (hquiet : Quiet s t) (hwf : WellFormed s) (h : Logged s) : Logged t := by
  cases hquiet with
  | congest w => exact h.sub rfl (List.Subset.refl _) le_rfl rfl
  | send r hopen hr hsent =>
    exact h.transmit hwf hr hsent rfl (send_outstanding hwf hr) rfl rfl
  | promote r rest hopen hpending =>
    refine h.sub rfl ?_ le_rfl rfl
    exact (List.Perm.of_eq (promote_outstanding hpending)).subset
  | resolve r e hopen hr he => exact h.resolve hwf hr he rfl (resolve_outstanding hwf hr) rfl rfl
  | close w hopen =>
    have hissued : ∀ ptr tid n, .issued ptr tid n ∈ s.log ++ [.closed] →
        .issued ptr tid n ∈ s.log := by simp
    refine ⟨h.numbered_concat rfl le_rfl nofun, by simp [outstanding],
      fun ptr tid tid' n n' h₁ h₂ => ?_, by simp [outstanding], fun ptr tid n hi => ?_,
      by simp [outstanding], fun _ => rfl, ?_⟩
    · exact h.unique ptr tid tid' n n' (hissued _ _ _ h₁) (hissued _ _ _ h₂)
    · simpa using h.sent_le ptr tid n (hissued _ _ _ hi)
    · refine Trace.always_concat.2 ⟨h.lawful, fun ptr hp => ?_⟩
      simp [Event.completes] at hp

/-- **Every move keeps the log and the request objects in step.** -/
theorem Move.logged (hmove : Move s t) (hwf : WellFormed s) (h : Logged s) : Logged t := by
  cases hmove with
  | quiet hquiet => exact hquiet.logged hwf h
  | refuse hopen hfull hpending => exact h.sub rfl (List.Subset.refl _) (Nat.le_succ _) rfl
  | launch r hopen hr => exact h.accept hopen hr rfl (launch_outstanding s r) rfl rfl
  | enqueue r hopen hr => exact h.accept hopen hr rfl (enqueue_outstanding s r) rfl rfl

lemma Moves.logged (hmoves : Moves s t) (hwf : WellFormed s) (h : Logged s) : Logged t :=
  (hmoves.induct (P := fun t => WellFormed t ∧ Logged t)
    (fun _ _ ht hmove => ⟨hmove.wellFormed ht.1, hmove.logged ht.1 ht.2⟩) ⟨hwf, h⟩).2

lemma logged_init (firstTid : UInt16) : Logged (RpcSocket.init κ firstTid) := by
  constructor <;> simp [RpcSocket.init, outstanding, Trace.always_nil]

lemma logged_run (firstTid : UInt16) (is : List (RpcSocket.Input κ)) :
    Logged (Runs.run step (RpcSocket.init κ firstTid) is) :=
  (invariant_run (fun _ _ hwf hs hmove => hmove.logged hwf hs) (wellFormed_init firstTid)
    (logged_init firstTid) is).2

/-! ## Request objects that are gone -/

/-- The request objects were made and the engine no longer holds them. -/
def Gone (ptrs : List ℕ) (s : RpcSocket κ) : Prop :=
  ∀ ptr ∈ ptrs, ptr < s.nextPtr ∧ ∀ r ∈ s.outstanding, r.ptr ≠ ptr

/-- What follows in the log is not about the request objects. -/
def SilentSince (ptrs : List ℕ) (s t : RpcSocket κ) : Prop :=
  ∃ later, t.log = s.log ++ later ∧ ∀ e ∈ later, ∀ ptr ∈ ptrs, e.ptr? ≠ some ptr

lemma SilentSince.trans {ptrs : List ℕ} {u : RpcSocket κ} (h₁ : SilentSince ptrs s t)
    (h₂ : SilentSince ptrs t u) : SilentSince ptrs s u := by
  obtain ⟨later₁, hlog₁, hquiet₁⟩ := h₁
  obtain ⟨later₂, hlog₂, hquiet₂⟩ := h₂
  refine ⟨later₁ ++ later₂, by rw [hlog₂, hlog₁, List.append_assoc], fun e he => ?_⟩
  rcases List.mem_append.1 he with he | he
  · exact hquiet₁ e he
  · exact hquiet₂ e he

lemma SilentSince.of_eq {ptrs : List ℕ} (hlog : t.log = s.log) : SilentSince ptrs s t :=
  ⟨[], by simp [hlog], by simp⟩

lemma SilentSince.of_concat {ptrs : List ℕ} {e : Event} (hlog : t.log = s.log ++ [e])
    (he : ∀ ptr ∈ ptrs, e.ptr? ≠ some ptr) : SilentSince ptrs s t :=
  ⟨[e], hlog, by simpa using he⟩

private lemma Gone.accept {ptrs : List ℕ} (h : Gone ptrs s) (hr : Fresh s r)
    (hperm : t.outstanding ~ r :: s.outstanding) (hptr : t.nextPtr = s.nextPtr + 1)
    (hlog : t.log = s.log ++ [r.issue]) : Gone ptrs t ∧ SilentSince ptrs s t := by
  refine ⟨fun ptr hp => ⟨?_, fun b hb => ?_⟩, .of_concat hlog fun ptr hp heq => ?_⟩
  · have := (h ptr hp).1
    omega
  · rcases List.mem_cons.1 (hperm.mem_iff.1 hb) with rfl | hb
    · have := (h ptr hp).1
      rw [hr.ptr]
      omega
    · exact (h ptr hp).2 b hb
  · have hlt := (h ptr hp).1
    have hsame : r.ptr = ptr := by simpa [InflightRequest.issue, Event.ptr?] using heq
    rw [← hsame, hr.ptr] at hlt
    omega

/-- **A request object that is gone is never touched again.** -/
theorem Move.gone {ptrs : List ℕ} (hmove : Move s t) (hwf : WellFormed s) (h : Gone ptrs s) :
    Gone ptrs t ∧ SilentSince ptrs s t := by
  cases hmove with
  | quiet hquiet =>
    refine ⟨fun ptr hp => ⟨?_, fun b hb => ?_⟩, ?_⟩
    · rw [hquiet.nextPtr_eq]
      exact (h ptr hp).1
    · obtain ⟨c, hc, n, rfl⟩ := hquiet.exists_outstanding hwf hb
      exact (h ptr hp).2 c hc
    · cases hquiet with
      | congest w => exact .of_eq rfl
      | send r hopen hr hsent =>
        refine .of_concat rfl fun ptr hp heq => ?_
        exact (h ptr hp).2 r (mem_outstanding.2 (.inl hr)) (Option.some.inj heq)
      | promote r rest hopen hpending => exact .of_eq rfl
      | resolve r e hopen hr he =>
        refine .of_concat rfl fun ptr hp heq => ?_
        exact (h ptr hp).2 r (mem_outstanding.2 (.inl hr))
          (Option.some.inj (he.about.1.symm.trans heq))
      | close w hopen => exact .of_concat rfl fun ptr hp heq => by simp [Event.ptr?] at heq
  | refuse hopen hfull hpending =>
    exact ⟨fun ptr hp => ⟨Nat.lt_succ_of_lt (h ptr hp).1, (h ptr hp).2⟩, .of_eq rfl⟩
  | launch r hopen hr => exact h.accept hr (launch_outstanding s r) rfl rfl
  | enqueue r hopen hr => exact h.accept hr (enqueue_outstanding s r) rfl rfl

lemma Moves.gone {ptrs : List ℕ} (hmoves : Moves s t) (hwf : WellFormed s) (h : Gone ptrs s) :
    Gone ptrs t ∧ SilentSince ptrs s t :=
  (hmoves.induct (P := fun t => WellFormed t ∧ Gone ptrs t ∧ SilentSince ptrs s t)
    (fun _ _ hs hmove => by
      obtain ⟨hgone, hsilent⟩ := hmove.gone hs.1 hs.2.1
      exact ⟨hmove.wellFormed hs.1, hgone, hs.2.2.trans hsilent⟩)
    ⟨hwf, h, .of_eq rfl⟩).2

/-! ## The theorem -/

/-- **One completion for each request.** In every run of the engine, a request object

* gets at most one callback in total,
* is transmitted at most once more than it has retries, and
* gets no callback after it was cancelled or after the socket closed.

**Proof sketch.** The log of a run is lawful: a callback runs only for an object that no earlier
event ended. Each part reads this off the log. -/
theorem one_completion_per_request (firstTid : UInt16) (is : List (RpcSocket.Input κ)) (ptr : ℕ) :
    let log := (Runs.run step (RpcSocket.init κ firstTid) is).log
    log.countP (Event.completes ptr) ≤ 1 ∧
    (∀ tid retries, .issued ptr tid retries ∈ log → log.count (.sent ptr) ≤ retries + 1) ∧
    ∀ before stop after, log = before ++ stop :: after →
      stop = .cancelled ptr ∨ stop = .closed →
      .response ptr ∉ after ∧ .timeout ptr ∉ after := by
  intro log
  have h : Logged (Runs.run step (RpcSocket.init κ firstTid) is) := logged_run firstTid is
  refine ⟨?_, h.sent_le ptr, fun before stop after hsplit hstop => ?_⟩
  · refine Trace.Always.countP_le (fun history e hlaw he => ?_) h.lawful
    rw [Nat.lt_one_iff, List.countP_eq_zero]
    intro e' he' hcompletes
    simp only [Event.completes, Bool.or_eq_true, decide_eq_true_eq] at hcompletes
    apply hlaw ptr he
    rcases hcompletes with rfl | rfl
    · exact .inl he'
    · exact .inr (.inl he')
  · have hover : ∀ history, stop ∈ history → Over ptr history := by
      rcases hstop with rfl | rfl
      · exact fun history hmem => .inr (.inr (.inl hmem))
      · exact fun history hmem => .inr (.inr (.inr hmem))
    have hlawful : Trace.Always Allowed (before ++ stop :: after) := hsplit ▸ h.lawful
    refine ⟨hlawful.not_mem_after fun history hlaw hmem => ?_,
      hlawful.not_mem_after fun history hlaw hmem => ?_⟩
    · exact hlaw ptr (by simp [Event.completes]) (hover history hmem)
    · exact hlaw ptr (by simp [Event.completes]) (hover history hmem)

end HyperDHT.Rpc
