import HyperDHT.Rpc.Socket
import Mathlib.Logic.Relation

/-!
# What the request engine does

Everything the engine of `RpcSocket` does is a sequence of eight moves: the window changes, a
request is refused, sent at once or queued, a request in flight is transmitted, a queued one
becomes one in flight, a request is resolved, the socket closes. The moves are named once, with
the condition under which the engine makes them, and each invariant of the engine is shown move by
move.

## Main definitions

* `Rpc.Quiet`, `Rpc.Move` — the moves that accept no request, and all moves.
* `Rpc.Quiets`, `Rpc.Moves` — sequences of them.
* `Rpc.WellFormed` — what holds of the request objects in every state.

## Main results

* `Rpc.RpcSocket.step_moves` — a step of the machine is a sequence of moves.
* `Rpc.requestWith_requested` — what `request` can do, with everything that decides it.
* `Rpc.invariant_run` — the request objects are well formed at the end of every run, and what
  every move keeps holds there.
-/

set_option autoImplicit false

namespace HyperDHT.Rpc

open scoped List
open RpcSocket

variable {κ : Type} {s t : RpcSocket κ} {r : InflightRequest κ}

/-! ## Moves -/

/-- The request object that `request` makes in state `s`. -/
structure Fresh (s : RpcSocket κ) (r : InflightRequest κ) : Prop where
  ptr : r.ptr = s.nextPtr
  tid : r.tid = s.nextTid
  sent : r.sent = 0
  live : r.destroyed = false

/-- The event that ends a request object in flight. A timeout ends it only after the last
retry. -/
inductive Resolves (r : InflightRequest κ) : Event → Prop where
  | response : Resolves r (.response r.ptr)
  | timeout (h : r.retries < r.sent) : Resolves r (.timeout r.ptr)
  | cancelled : Resolves r (.cancelled r.ptr)

/-- The counters after a request object was made. -/
def RpcSocket.counted (s : RpcSocket κ) : RpcSocket κ :=
  { s.allocTid.1 with nextPtr := s.nextPtr + 1 }

/-- The log entry for a request object that was accepted. -/
def InflightRequest.issue (r : InflightRequest κ) : Event := .issued r.ptr r.tid r.retries

/-- One quiet move of the engine, which accepts no request: the window changes, a request in
flight is transmitted, a queued one becomes one in flight, a request is ended, the socket
closes. -/
inductive Quiet : RpcSocket κ → RpcSocket κ → Prop where
  | congest (s : RpcSocket κ) (w : CongestionWindow) : Quiet s { s with congestion := w }
  | send (s : RpcSocket κ) (r : InflightRequest κ) (hopen : s.closing = false)
      (hr : r ∈ s.inflight) (hsent : r.sent ≤ r.retries) :
      Quiet s { s with
        inflight := countSent r.ptr s.inflight
        congestion := s.congestion.send
        log := s.log ++ [.sent r.ptr] }
  | promote (s : RpcSocket κ) (r : InflightRequest κ) (rest : List (InflightRequest κ))
      (hopen : s.closing = false) (hpending : s.pending = r :: rest) :
      Quiet s { s with pending := rest, inflight := s.inflight ++ [r] }
  | resolve (s : RpcSocket κ) (r : InflightRequest κ) (e : Event) (hopen : s.closing = false)
      (hr : r ∈ s.inflight) (he : Resolves r e) :
      Quiet s { s with
        inflight := SwapPop.remove (fun b => b.ptr = r.ptr) s.inflight
        congestion := s.congestion.recv
        log := s.log ++ [e] }
  | close (s : RpcSocket κ) (w : CongestionWindow) (hopen : s.closing = false) :
      Quiet s { s with
        closing := true, inflight := [], pending := [], congestion := w
        log := s.log ++ [.closed] }

/-- One move of the engine: a quiet one, or a request is refused, sent at once or queued. -/
inductive Move : RpcSocket κ → RpcSocket κ → Prop where
  | quiet {s t : RpcSocket κ} (h : Quiet s t) : Move s t
  | refuse (s : RpcSocket κ) (hopen : s.closing = false) (hfull : s.congestion.isFull = true)
      (hpending : maxPending ≤ s.pending.length) : Move s s.counted
  | launch (s : RpcSocket κ) (r : InflightRequest κ) (hopen : s.closing = false)
      (hr : Fresh s r) :
      Move s { s.counted with inflight := s.inflight ++ [r], log := s.log ++ [r.issue] }
  | enqueue (s : RpcSocket κ) (r : InflightRequest κ) (hopen : s.closing = false)
      (hr : Fresh s r) :
      Move s { s.counted with pending := s.pending ++ [r], log := s.log ++ [r.issue] }

/-- A sequence of quiet moves. -/
def Quiets : RpcSocket κ → RpcSocket κ → Prop := Relation.ReflTransGen Quiet

/-- A sequence of moves. -/
def Moves : RpcSocket κ → RpcSocket κ → Prop := Relation.ReflTransGen Move

lemma Quiets.refl (s : RpcSocket κ) : Quiets s s := Relation.ReflTransGen.refl

lemma Quiet.quiets (h : Quiet s t) : Quiets s t := Relation.ReflTransGen.single h

lemma Quiets.trans {u : RpcSocket κ} (h₁ : Quiets s t) (h₂ : Quiets t u) : Quiets s u :=
  Relation.ReflTransGen.trans h₁ h₂

lemma Quiets.moves (h : Quiets s t) : Moves s t := by
  induction h with
  | refl => exact Relation.ReflTransGen.refl
  | tail _ hlast ih => exact ih.tail (Move.quiet hlast)

lemma Move.moves (h : Move s t) : Moves s t := Relation.ReflTransGen.single h

lemma Moves.trans {u : RpcSocket κ} (h₁ : Moves s t) (h₂ : Moves t u) : Moves s u :=
  Relation.ReflTransGen.trans h₁ h₂

lemma Moves.tail {u : RpcSocket κ} (h₁ : Moves s t) (h₂ : Move t u) : Moves s u :=
  Relation.ReflTransGen.tail h₁ h₂

/-- **The rule of quiet moves**: what every quiet move keeps, a sequence of them keeps. -/
theorem Quiets.induct {P : RpcSocket κ → Prop} (hquiet : ∀ s t, P s → Quiet s t → P t)
    (h : Quiets s t) (hs : P s) : P t := by
  induction h with
  | refl => exact hs
  | tail _ hlast ih => exact hquiet _ _ ih hlast

/-- **The rule of moves**: what every move keeps, a sequence of moves keeps. -/
theorem Moves.induct {P : RpcSocket κ → Prop} (hmove : ∀ s t, P s → Move s t → P t)
    (h : Moves s t) (hs : P s) : P t := by
  induction h with
  | refl => exact hs
  | tail _ hlast ih => exact hmove _ _ ih hlast

/-! ## The request objects of a state -/

/-- What holds of the request objects of every state: their numbers are distinct and were given
out, none is marked destroyed, the queued ones were never sent, none was sent more often than its
retries admit, and a closed socket holds none. -/
structure WellFormed (s : RpcSocket κ) : Prop where
  ptr_lt : ∀ r ∈ s.outstanding, r.ptr < s.nextPtr
  nodup : (s.outstanding.map (·.ptr)).Nodup
  live : ∀ r ∈ s.outstanding, r.destroyed = false
  unsent : ∀ r ∈ s.pending, r.sent = 0
  sent_le : ∀ r ∈ s.outstanding, r.sent ≤ r.retries + 1
  closed : s.closing = true → s.outstanding = []

lemma mem_outstanding : r ∈ s.outstanding ↔ r ∈ s.inflight ∨ r ∈ s.pending :=
  List.mem_append

lemma eq_of_ptr_eq {l : List (InflightRequest κ)} (h : (l.map (·.ptr)).Nodup)
    {a b : InflightRequest κ} (ha : a ∈ l) (hb : b ∈ l) (hptr : a.ptr = b.ptr) : a = b :=
  List.inj_on_of_nodup_map h ha hb hptr

lemma WellFormed.inflight_nodup (h : WellFormed s) : (s.inflight.map (·.ptr)).Nodup := by
  have hnodup := h.nodup
  rw [outstanding, List.map_append] at hnodup
  exact (List.nodup_append.1 hnodup).1

lemma WellFormed.open_of_mem (h : WellFormed s) (hr : r ∈ s.outstanding) :
    s.closing = false := by
  cases hclosing : s.closing with
  | false => rfl
  | true =>
    rw [h.closed hclosing] at hr
    simp at hr

/-! ### What the list operations do -/

lemma map_countSent {β : Type} (f : InflightRequest κ → β) (ptr : ℕ)
    (hf : ∀ r : InflightRequest κ, f { r with sent := r.sent + 1 } = f r)
    (l : List (InflightRequest κ)) : (countSent ptr l).map f = l.map f := by
  simp only [countSent, List.map_map]
  refine List.map_congr_left fun r _ => ?_
  simp only [Function.comp_apply]
  split
  · exact hf r
  · rfl

lemma mem_countSent {ptr : ℕ} {l : List (InflightRequest κ)} :
    r ∈ countSent ptr l ↔ ∃ b ∈ l, (if b.ptr = ptr then { b with sent := b.sent + 1 } else b) = r :=
  List.mem_map

lemma countSent_of_forall_ne {ptr : ℕ} {l : List (InflightRequest κ)}
    (h : ∀ r ∈ l, r.ptr ≠ ptr) : countSent ptr l = l := by
  rw [countSent]
  conv_rhs => rw [← List.map_id l]
  exact List.map_congr_left fun r hr => by simp [h r hr]

lemma remove_inflight_perm (h : WellFormed s) (hr : r ∈ s.inflight) :
    r :: SwapPop.remove (fun b => b.ptr = r.ptr) s.inflight ~ s.inflight := by
  refine SwapPop.remove_perm hr fun b hb => ?_
  rw [decide_eq_true_eq]
  exact ⟨eq_of_ptr_eq h.inflight_nodup hb hr, fun hbr => by rw [hbr]⟩

/-! ### What a move does to the outstanding requests -/

lemma launch_outstanding (s : RpcSocket κ) (r : InflightRequest κ) :
    (s.inflight ++ [r]) ++ s.pending ~ r :: s.outstanding := by
  rw [List.append_assoc]
  exact List.perm_middle

lemma enqueue_outstanding (s : RpcSocket κ) (r : InflightRequest κ) :
    s.inflight ++ (s.pending ++ [r]) ~ r :: s.outstanding := by
  rw [← List.append_assoc]
  exact List.perm_append_singleton r s.outstanding

lemma send_outstanding (h : WellFormed s) (hr : r ∈ s.inflight) :
    countSent r.ptr s.inflight ++ s.pending = countSent r.ptr s.outstanding := by
  have hpending : countSent r.ptr s.pending = s.pending := by
    refine countSent_of_forall_ne fun b hb hptr => ?_
    have hnodup := h.nodup
    rw [outstanding, List.map_append] at hnodup
    exact (List.nodup_append.1 hnodup).2.2 r.ptr (List.mem_map_of_mem hr) b.ptr
      (List.mem_map_of_mem hb) hptr.symm
  have happend : countSent r.ptr s.outstanding =
      countSent r.ptr s.inflight ++ countSent r.ptr s.pending := List.map_append
  rw [happend, hpending]

lemma promote_outstanding {rest : List (InflightRequest κ)} (hpending : s.pending = r :: rest) :
    (s.inflight ++ [r]) ++ rest = s.outstanding := by
  simp [outstanding, hpending]

lemma resolve_outstanding (h : WellFormed s) (hr : r ∈ s.inflight) :
    r :: (SwapPop.remove (fun b => b.ptr = r.ptr) s.inflight ++ s.pending) ~ s.outstanding :=
  (remove_inflight_perm h hr).append_right s.pending

lemma Quiet.map_subperm {β : Type} (f : InflightRequest κ → β)
    (hf : ∀ r : InflightRequest κ, f { r with sent := r.sent + 1 } = f r)
    (hquiet : Quiet s t) (h : WellFormed s) :
    t.outstanding.map f <+~ s.outstanding.map f := by
  cases hquiet with
  | congest w => exact List.Subperm.refl _
  | send r hopen hr hsent =>
    refine (List.Perm.of_eq ?_).subperm
    rw [outstanding, send_outstanding h hr, map_countSent f r.ptr hf]
  | promote r rest hopen hpending =>
    refine (List.Perm.of_eq ?_).subperm
    rw [outstanding, promote_outstanding hpending]
  | resolve r e hopen hr he =>
    refine List.Subperm.trans ?_ ((resolve_outstanding h hr).map f).subperm
    exact (List.sublist_cons_self _ _).subperm
  | close w hopen => exact List.nil_subperm

lemma Quiet.exists_outstanding (hquiet : Quiet s t) (h : WellFormed s) (hr : r ∈ t.outstanding) :
    ∃ b ∈ s.outstanding, ∃ n, { b with sent := n } = r := by
  have hsub := hquiet.map_subperm (fun r => { r with sent := 0 }) (fun _ => rfl) h
  obtain ⟨b, hb, heq⟩ := List.mem_map.1 (hsub.subset (List.mem_map_of_mem hr))
  exact ⟨b, hb, r.sent, congrArg (fun c : InflightRequest κ => { c with sent := r.sent }) heq⟩

lemma Quiet.issued_mem {ptr retries : ℕ} {tid : UInt16} (hquiet : Quiet s t)
    (h : .issued ptr tid retries ∈ t.log) : .issued ptr tid retries ∈ s.log := by
  cases hquiet with
  | congest w => exact h
  | send r hopen hr hsent => simpa using h
  | promote r rest hopen hpending => exact h
  | resolve r e hopen hr he =>
    cases he <;> simpa using h
  | close w hopen => simpa using h

lemma Quiet.nextPtr_eq (hquiet : Quiet s t) : t.nextPtr = s.nextPtr := by
  cases hquiet <;> rfl

/-! ## Every move keeps the request objects well formed -/

private lemma WellFormed.accept (h : WellFormed s) (hopen : s.closing = false) (hr : Fresh s r)
    (hperm : t.outstanding ~ r :: s.outstanding) (hptr : t.nextPtr = s.nextPtr + 1)
    (hpending : ∀ b ∈ t.pending, b = r ∨ b ∈ s.pending) (hclosing : t.closing = s.closing) :
    WellFormed t where
  ptr_lt b hb := by
    rcases List.mem_cons.1 (hperm.mem_iff.1 hb) with rfl | hb
    · rw [hr.ptr, hptr]
      omega
    · have := h.ptr_lt b hb
      omega
  nodup := by
    rw [(hperm.map _).nodup_iff, List.map_cons, List.nodup_cons]
    refine ⟨fun hmem => ?_, h.nodup⟩
    obtain ⟨b, hb, hbptr⟩ := List.mem_map.1 hmem
    have := h.ptr_lt b hb
    rw [hbptr, hr.ptr] at this
    omega
  live b hb := by
    rcases List.mem_cons.1 (hperm.mem_iff.1 hb) with rfl | hb
    · exact hr.live
    · exact h.live b hb
  unsent b hb := by
    rcases hpending b hb with rfl | hb
    · exact hr.sent
    · exact h.unsent b hb
  sent_le b hb := by
    rcases List.mem_cons.1 (hperm.mem_iff.1 hb) with rfl | hb
    · rw [hr.sent]
      omega
    · exact h.sent_le b hb
  closed hc := by
    rw [hclosing, hopen] at hc
    simp at hc

private lemma WellFormed.sub (h : WellFormed s) (hsub : t.outstanding <+~ s.outstanding)
    (hptr : s.nextPtr ≤ t.nextPtr) (hpending : t.pending ⊆ s.pending)
    (hclosed : t.closing = true → t.outstanding = []) : WellFormed t where
  ptr_lt b hb := (h.ptr_lt b (hsub.subset hb)).trans_le hptr
  nodup := by
    obtain ⟨l, hl, hsublist⟩ := hsub
    exact (hl.map _).nodup_iff.1 (h.nodup.sublist (hsublist.map _))
  live b hb := h.live b (hsub.subset hb)
  unsent b hb := h.unsent b (hpending hb)
  sent_le b hb := h.sent_le b (hsub.subset hb)
  closed := hclosed

lemma Quiet.wellFormed (hquiet : Quiet s t) (h : WellFormed s) : WellFormed t := by
  cases hquiet with
  | congest w => exact ⟨h.ptr_lt, h.nodup, h.live, h.unsent, h.sent_le, h.closed⟩
  | send r hopen hr hsent =>
    have hout : ∀ b ∈ countSent r.ptr s.inflight ++ s.pending,
        ∃ c ∈ s.outstanding, (if c.ptr = r.ptr then { c with sent := c.sent + 1 } else c) = b := by
      intro b hb
      rw [send_outstanding h hr] at hb
      exact mem_countSent.1 hb
    refine ⟨fun b hb => ?_, ?_, fun b hb => ?_, h.unsent, fun b hb => ?_, fun hc => ?_⟩
    · obtain ⟨c, hc, rfl⟩ := hout b hb
      have := h.ptr_lt c hc
      split <;> exact this
    · have hmap : ((countSent r.ptr s.inflight ++ s.pending).map (·.ptr)) =
          s.outstanding.map (·.ptr) := by
        rw [send_outstanding h hr, map_countSent (·.ptr) _ fun _ => rfl]
      exact hmap ▸ h.nodup
    · obtain ⟨c, hc, rfl⟩ := hout b hb
      have := h.live c hc
      split <;> exact this
    · obtain ⟨c, hc, rfl⟩ := hout b hb
      split
      · next hptr =>
        obtain rfl := eq_of_ptr_eq h.nodup hc (mem_outstanding.2 (.inl hr)) hptr
        exact Nat.succ_le_succ hsent
      · exact h.sent_le c hc
    · exact absurd hc (by simp [hopen])
  | promote r rest hopen hpending =>
    refine h.sub ?_ le_rfl ?_ (fun hc => absurd hc (by simp [hopen]))
    · exact (List.Perm.of_eq (promote_outstanding hpending)).subperm
    · rw [hpending]
      exact List.subset_cons_self r rest
  | resolve r e hopen hr he =>
    refine h.sub ?_ le_rfl (List.Subset.refl _) (fun hc => absurd hc (by simp [hopen]))
    exact (List.sublist_cons_self _ _).subperm.trans (resolve_outstanding h hr).subperm
  | close w hopen =>
    exact ⟨by simp [outstanding], by simp [outstanding], by simp [outstanding], by simp,
      by simp [outstanding], fun _ => rfl⟩

/-- **Every move keeps the request objects well formed.** -/
theorem Move.wellFormed (hmove : Move s t) (h : WellFormed s) : WellFormed t := by
  cases hmove with
  | quiet hquiet => exact hquiet.wellFormed h
  | refuse hopen hfull hpending =>
    exact h.sub (List.Subperm.refl _) (Nat.le_succ _) (List.Subset.refl _) h.closed
  | launch r hopen hr =>
    exact h.accept hopen hr (launch_outstanding s r) rfl (fun b hb => .inr hb) rfl
  | enqueue r hopen hr =>
    refine h.accept hopen hr (enqueue_outstanding s r) rfl (fun b hb => ?_) rfl
    rcases List.mem_append.1 hb with hb | hb
    · exact .inr hb
    · exact .inl (List.mem_singleton.1 hb)

lemma Quiets.wellFormed (hquiets : Quiets s t) (h : WellFormed s) : WellFormed t :=
  hquiets.induct (fun _ _ hs hquiet => hquiet.wellFormed hs) h

lemma Quiets.exists_outstanding (hquiets : Quiets s t) (h : WellFormed s)
    (hr : r ∈ t.outstanding) : ∃ b ∈ s.outstanding, ∃ n, { b with sent := n } = r := by
  induction hquiets generalizing r with
  | refl => exact ⟨r, hr, r.sent, rfl⟩
  | tail hquiets hlast ih =>
    obtain ⟨c, hc, n, rfl⟩ := hlast.exists_outstanding (Quiets.wellFormed hquiets h) hr
    obtain ⟨b, hb, m, rfl⟩ := ih hc
    exact ⟨b, hb, n, rfl⟩

lemma Quiets.nextPtr_eq (hquiets : Quiets s t) : t.nextPtr = s.nextPtr :=
  hquiets.induct (P := fun t => t.nextPtr = s.nextPtr)
    (fun _ _ hs hquiet => hquiet.nextPtr_eq.trans hs) rfl

/-! ## Every operation is a sequence of moves -/

lemma sendNow_quiet (h : WellFormed s) (hr : r ∈ s.inflight) (hsent : r.sent ≤ r.retries) :
    Quiet s (s.sendNow r) := by
  have hmem := mem_outstanding.2 (.inl hr)
  have hopen := h.open_of_mem hmem
  have hsend : s.sendNow r = { s with
      inflight := countSent r.ptr s.inflight
      congestion := s.congestion.send
      log := s.log ++ [.sent r.ptr] } := by
    simp [sendNow, h.live r hmem, hopen]
  rw [hsend]
  exact .send s r hopen hr hsent

lemma sendNow_map_outstanding {β : Type} (f : InflightRequest κ → β)
    (hf : ∀ r : InflightRequest κ, f { r with sent := r.sent + 1 } = f r) (h : WellFormed s)
    (hr : r ∈ s.inflight) : (s.sendNow r).outstanding.map f = s.outstanding.map f := by
  unfold sendNow
  split
  · rfl
  · rw [outstanding, send_outstanding h hr, map_countSent f r.ptr hf]

lemma destroyRequest_outstanding (h : WellFormed s) (hr : r ∈ s.inflight) :
    r :: (s.destroyRequest r).outstanding ~ s.outstanding := by
  have hlive := h.live r (mem_outstanding.2 (.inl hr))
  have hdestroyed : (s.destroyRequest r).outstanding =
      SwapPop.remove (fun b => b.ptr = r.ptr) s.inflight ++ s.pending := by
    simp [destroyRequest, hlive, outstanding]
  rw [hdestroyed]
  exact resolve_outstanding h hr

lemma destroyRequest_quiet {e : Event} (h : WellFormed s) (hr : r ∈ s.inflight)
    (he : Resolves r e) : Quiet s { s.destroyRequest r with log := s.log ++ [e] } := by
  have hmem := mem_outstanding.2 (.inl hr)
  have hdestroy : s.destroyRequest r = { s with
      inflight := SwapPop.remove (fun b => b.ptr = r.ptr) s.inflight
      congestion := s.congestion.recv } := by
    simp [destroyRequest, h.live r hmem]
  rw [hdestroy]
  exact .resolve s r e (h.open_of_mem hmem) hr he

lemma mem_of_findInflight {tid : UInt16} (h : s.findInflight tid = some r) :
    r ∈ s.inflight ∧ r.tid = tid :=
  ⟨List.mem_of_find?_eq_some h, by simpa using List.find?_some h⟩

lemma cancelRequest_cases (h : WellFormed s) (tid : UInt16) :
    (s.findInflight tid = none ∧ s.cancelRequest tid = (s, false)) ∨
    ∃ r ∈ s.inflight, s.findInflight tid = some r ∧
      Quiet s (s.cancelRequest tid).1 ∧ (s.cancelRequest tid).2 = true ∧
      (s.cancelRequest tid).1.log = s.log ++ [.cancelled r.ptr] := by
  cases hfind : s.findInflight tid with
  | none => exact .inl ⟨rfl, by simp [cancelRequest, hfind]⟩
  | some r =>
    have hr := (mem_of_findInflight hfind).1
    have hcancel : s.cancelRequest tid =
        ({ s.destroyRequest r with log := s.log ++ [.cancelled r.ptr] }, true) := by
      simp [cancelRequest, hfind]
    rw [hcancel]
    exact .inr ⟨r, hr, rfl, destroyRequest_quiet h hr .cancelled, rfl, rfl⟩

lemma cancelRequest_quiets (h : WellFormed s) (tid : UInt16) :
    Quiets s (s.cancelRequest tid).1 := by
  rcases cancelRequest_cases h tid with ⟨-, hnone⟩ | ⟨r, -, -, hquiet, -⟩
  · rw [hnone]
    exact .refl s
  · exact hquiet.quiets

lemma drainOne_quiets {rest : List (InflightRequest κ)} (h : WellFormed s)
    (hpending : s.pending = r :: rest) : Quiets s (s.drainOne r rest) := by
  have hmem : r ∈ s.outstanding := mem_outstanding.2 (.inr (by simp [hpending]))
  have hpromote := Quiet.promote s r rest (h.open_of_mem hmem) hpending
  have hdrain : s.drainOne r rest =
      ({ s with pending := rest, inflight := s.inflight ++ [r] }).sendNow r := by
    simp [drainOne, h.live r hmem]
  have hsent : r.sent ≤ r.retries := by
    rw [h.unsent r (by simp [hpending])]
    exact Nat.zero_le _
  rw [hdrain]
  exact hpromote.quiets.trans (sendNow_quiet (hpromote.wellFormed h) (by simp) hsent).quiets

lemma drainOne_pending {rest : List (InflightRequest κ)} :
    (s.drainOne r rest).pending = rest := by
  unfold drainOne
  split
  · rfl
  · unfold sendNow
    split <;> rfl

lemma drainLoop_quiets {l : List (InflightRequest κ)} (h : WellFormed s) (hpending : s.pending = l) :
    Quiets s (drainLoop l s) := by
  induction l generalizing s with
  | nil => exact .refl s
  | cons r rest ih =>
    rw [drainLoop]
    split
    · exact .refl s
    · have hone := drainOne_quiets h hpending
      exact hone.trans (ih (hone.wellFormed h) drainOne_pending)

lemma onDrainTick_quiets (h : WellFormed s) : Quiets s s.onDrainTick := by
  unfold onDrainTick
  split
  · exact .refl s
  · have hdrain := Quiet.congest s s.congestion.drain
    exact hdrain.quiets.trans (drainLoop_quiets (hdrain.wellFormed h) rfl)

lemma drainLoop_map_outstanding {β : Type} (f : InflightRequest κ → β)
    (hf : ∀ r : InflightRequest κ, f { r with sent := r.sent + 1 } = f r)
    {l : List (InflightRequest κ)} (h : WellFormed s) (hpending : s.pending = l) :
    (drainLoop l s).outstanding.map f = s.outstanding.map f := by
  induction l generalizing s with
  | nil => rfl
  | cons r rest ih =>
    rw [drainLoop]
    split
    · rfl
    · have hmem : r ∈ s.outstanding := mem_outstanding.2 (.inr (by simp [hpending]))
      have hpromoted := (Quiet.promote s r rest (h.open_of_mem hmem) hpending).wellFormed h
      rw [ih ((drainOne_quiets h hpending).wellFormed h) drainOne_pending, drainOne,
        if_neg (by simp [h.live r hmem]), sendNow_map_outstanding f hf hpromoted (by simp)]
      exact congrArg (List.map f) (promote_outstanding hpending)

lemma onDrainTick_map_outstanding {β : Type} (f : InflightRequest κ → β)
    (hf : ∀ r : InflightRequest κ, f { r with sent := r.sent + 1 } = f r) (h : WellFormed s) :
    s.onDrainTick.outstanding.map f = s.outstanding.map f := by
  unfold onDrainTick
  split
  · rfl
  · exact drainLoop_map_outstanding f hf ((Quiet.congest s s.congestion.drain).wellFormed h) rfl

/-- What `request` does: it refuses because the socket closes, or because the window and the queue
are full; else it makes a fresh request object and queues it or sends it. -/
inductive Requested (s : RpcSocket κ) (onResponse onTimeout : Option κ) :
    RpcSocket κ × UInt16 → Prop where
  | closing (hclosing : s.closing = true) : Requested s onResponse onTimeout (s, 0)
  | refused (hopen : s.closing = false) (hfull : s.congestion.isFull = true)
      (hpending : maxPending ≤ s.pending.length) :
      Requested s onResponse onTimeout (s.counted, 0)
  | queued (r : InflightRequest κ) (hopen : s.closing = false) (hr : Fresh s r)
      (hresponse : r.onResponse = onResponse) (htimeout : r.onTimeout = onTimeout)
      (hfull : s.congestion.isFull = true) (hpending : s.pending.length < maxPending) :
      Requested s onResponse onTimeout
        ({ s.counted with pending := s.pending ++ [r], log := s.log ++ [r.issue] }, r.tid)
  | sent (r : InflightRequest κ) (hopen : s.closing = false) (hr : Fresh s r)
      (hresponse : r.onResponse = onResponse) (htimeout : r.onTimeout = onTimeout)
      (hroom : s.congestion.isFull = false) :
      Requested s onResponse onTimeout
        (({ s.counted with
          inflight := s.inflight ++ [r]
          log := s.log ++ [r.issue] } : RpcSocket κ).sendNow r, r.tid)

/-- **What `request` can do**, with everything that decides it. -/
theorem requestWith_requested (s : RpcSocket κ) (req : Request) (timeoutOverrideMs : UInt64)
    (retries : ℕ) (onResponse onTimeout : Option κ) :
    Requested s onResponse onTimeout
      (s.requestWith req timeoutOverrideMs retries onResponse onTimeout) := by
  set r := newRequest s.nextPtr { req with tid := s.nextTid } timeoutOverrideMs retries
    onResponse onTimeout with hr
  have hfresh : Fresh s r := ⟨rfl, rfl, rfl, rfl⟩
  cases hclosing : s.closing with
  | true =>
    have hrequest : s.requestWith req timeoutOverrideMs retries onResponse onTimeout = (s, 0) := by
      simp [requestWith, hclosing]
    rw [hrequest]
    exact .closing hclosing
  | false =>
    have hrequest : s.requestWith req timeoutOverrideMs retries onResponse onTimeout =
        s.counted.submit r := by
      simp [requestWith, hclosing, allocTid, counted, hr]
    rw [hrequest, submit]
    cases hfull : s.congestion.isFull with
    | true =>
      rw [if_pos (show s.counted.congestion.isFull = true from hfull)]
      by_cases hpending : maxPending ≤ s.pending.length
      · rw [if_pos (show s.counted.pending.length ≥ maxPending from hpending)]
        exact .refused hclosing hfull hpending
      · rw [if_neg (show ¬ s.counted.pending.length ≥ maxPending from hpending)]
        exact .queued r hclosing hfresh rfl rfl hfull (not_le.1 hpending)
    | false =>
      rw [if_neg (show ¬ s.counted.congestion.isFull = true from by simp [counted, allocTid, hfull])]
      exact .sent r hclosing hfresh rfl rfl hfull

lemma Requested.moves {onResponse onTimeout : Option κ} {result : RpcSocket κ × UInt16}
    (hresult : Requested s onResponse onTimeout result) (h : WellFormed s) :
    Moves s result.1 := by
  cases hresult with
  | closing hclosing => exact (Quiets.refl s).moves
  | refused hopen hfull hpending => exact (Move.refuse s hopen hfull hpending).moves
  | queued r hopen hr => exact (Move.enqueue s r hopen hr).moves
  | sent r hopen hr =>
    have hlaunch := Move.launch s r hopen hr
    refine hlaunch.moves.tail (.quiet (sendNow_quiet (hlaunch.wellFormed h) (by simp) ?_))
    rw [hr.sent]
    exact Nat.zero_le _

lemma Requested.outstanding_cases {onResponse onTimeout : Option κ}
    {result : RpcSocket κ × UInt16} (hresult : Requested s onResponse onTimeout result)
    (h : WellFormed s) :
    (s.Refuses ∧ result.2 = 0 ∧ result.1.outstanding = s.outstanding ∧
      result.1.nextPtr = if s.closing then s.nextPtr else s.nextPtr + 1) ∨
    (¬ s.Refuses ∧ s.closing = false ∧ ∃ r, Fresh s r ∧ r.onResponse = onResponse ∧
      r.onTimeout = onTimeout ∧ result.2 = r.tid ∧ result.1.nextPtr = s.nextPtr + 1 ∧
      ∀ b ∈ result.1.outstanding, ∃ c ∈ r :: s.outstanding, ∃ n, { c with sent := n } = b) := by
  cases hresult with
  | closing hclosing => exact .inl ⟨.inl hclosing, rfl, rfl, by simp [hclosing]⟩
  | refused hopen hfull hpending =>
    exact .inl ⟨.inr ⟨hfull, hpending⟩, rfl, rfl, by simp [hopen, counted]⟩
  | queued r hopen hr hresponse htimeout hfull hpending =>
    refine .inr ⟨?_, hopen, r, hr, hresponse, htimeout, rfl, rfl, fun b hb => ?_⟩
    · simp [Refuses, hopen, not_le.2 hpending]
    · exact ⟨b, (enqueue_outstanding s r).mem_iff.1 hb, b.sent, rfl⟩
  | sent r hopen hr hresponse htimeout hroom =>
    have hlaunched := (Move.launch s r hopen hr).wellFormed h
    have hsend := sendNow_quiet hlaunched (r := r) (by simp)
      (by rw [hr.sent]; exact Nat.zero_le _)
    refine .inr ⟨?_, hopen, r, hr, hresponse, htimeout, rfl, hsend.nextPtr_eq, fun b hb => ?_⟩
    · simp [Refuses, hopen, hroom]
    · obtain ⟨c, hc, n, rfl⟩ := hsend.exists_outstanding hlaunched hb
      exact ⟨c, (launch_outstanding s r).mem_iff.1 hc, n, rfl⟩

lemma Requested.map_outstanding {β : Type} (f : InflightRequest κ → β)
    (hf : ∀ r : InflightRequest κ, f { r with sent := r.sent + 1 } = f r)
    {onResponse onTimeout : Option κ} {result : RpcSocket κ × UInt16}
    (hresult : Requested s onResponse onTimeout result) (h : WellFormed s) :
    (s.Refuses ∧ result.1.outstanding.map f = s.outstanding.map f) ∨
      ¬ s.Refuses ∧ ∃ r, r.onResponse = onResponse ∧
        result.1.outstanding.map f ~ f r :: s.outstanding.map f := by
  cases hresult with
  | closing hclosing => exact .inl ⟨.inl hclosing, rfl⟩
  | refused hopen hfull hpending => exact .inl ⟨.inr ⟨hfull, hpending⟩, rfl⟩
  | queued r hopen hr hresponse htimeout hfull hpending =>
    refine .inr ⟨?_, r, hresponse, (enqueue_outstanding s r).map f⟩
    simp [Refuses, hopen, not_le.2 hpending]
  | sent r hopen hr hresponse htimeout hroom =>
    have hlaunched := (Move.launch s r hopen hr).wellFormed h
    refine .inr ⟨by simp [Refuses, hopen, hroom], r, hresponse, ?_⟩
    rw [sendNow_map_outstanding f hf hlaunched (by simp)]
    exact (launch_outstanding s r).map f

lemma onResponse_cases (h : WellFormed s) (tid : UInt16) :
    ((s.closing = true ∨ s.findInflight tid = none) ∧ s.onResponse tid = (s, none)) ∨
    ∃ r ∈ s.inflight, s.findInflight tid = some r ∧ s.onResponse tid =
      ({ s.destroyRequest r with log := s.log ++ [.response r.ptr] }, some r) := by
  cases hclosing : s.closing with
  | true => exact .inl ⟨.inl rfl, by simp [onResponse, hclosing]⟩
  | false =>
    cases hfind : s.findInflight tid with
    | none => exact .inl ⟨.inr rfl, by simp [onResponse, hclosing, hfind]⟩
    | some r =>
      have hr := (mem_of_findInflight hfind).1
      have hlive := h.live r (mem_outstanding.2 (.inl hr))
      exact .inr ⟨r, hr, rfl, by simp [onResponse, hclosing, hfind, hlive]⟩

lemma onRequestTimeout_cases (h : WellFormed s) (ptr : ℕ) :
    ((∀ r ∈ s.inflight, r.ptr ≠ ptr) ∧ s.onRequestTimeout ptr = (s, none)) ∨
    ∃ r ∈ s.inflight, r.ptr = ptr ∧
      (r.sent ≤ r.retries ∧ s.onRequestTimeout ptr = (s.sendNow r, none) ∨
        r.retries < r.sent ∧ s.onRequestTimeout ptr =
          ({ s.destroyRequest r with log := s.log ++ [.timeout r.ptr] }, some r)) := by
  cases hfind : s.inflight.find? fun r => r.ptr = ptr with
  | none =>
    refine .inl ⟨fun r hr hptr => ?_, by simp [onRequestTimeout, hfind]⟩
    have := List.find?_eq_none.1 hfind r hr
    simp [hptr] at this
  | some r =>
    have hr := List.mem_of_find?_eq_some hfind
    have hptr : r.ptr = ptr := by simpa using List.find?_some hfind
    have hmem := mem_outstanding.2 (.inl hr)
    have hlive := h.live r hmem
    have hopen := h.open_of_mem hmem
    refine .inr ⟨r, hr, hptr, ?_⟩
    by_cases hsent : r.sent > r.retries
    · exact .inr ⟨hsent, by simp [onRequestTimeout, hfind, hlive, hopen, hsent]⟩
    · exact .inl ⟨not_lt.1 hsent, by simp [onRequestTimeout, hfind, hlive, hopen, hsent]⟩

lemma onResponse_quiets (h : WellFormed s) (tid : UInt16) : Quiets s (s.onResponse tid).1 := by
  rcases onResponse_cases h tid with ⟨-, hnone⟩ | ⟨r, hr, -, hsome⟩
  · rw [hnone]
    exact .refl s
  · rw [hsome]
    exact (destroyRequest_quiet h hr .response).quiets

lemma onRequestTimeout_quiets (h : WellFormed s) (ptr : ℕ) :
    Quiets s (s.onRequestTimeout ptr).1 := by
  rcases onRequestTimeout_cases h ptr with ⟨-, hnone⟩ | ⟨r, hr, -, hcase⟩
  · rw [hnone]
    exact .refl s
  · rcases hcase with ⟨hsent, hretry⟩ | ⟨hsent, hgive⟩
    · rw [hretry]
      exact (sendNow_quiet h hr hsent).quiets
    · rw [hgive]
      exact (destroyRequest_quiet h hr (.timeout hsent)).quiets

lemma foldl_destroyRequest (l : List (InflightRequest κ)) (s : RpcSocket κ) :
    ∃ w, l.foldl destroyRequest s =
      { s with inflight := (l.foldl destroyRequest s).inflight, congestion := w } := by
  induction l generalizing s with
  | nil => exact ⟨s.congestion, rfl⟩
  | cons r l ih =>
    obtain ⟨w, hw⟩ := ih (s.destroyRequest r)
    refine ⟨w, hw.trans ?_⟩
    simp only [List.foldl_cons]
    unfold destroyRequest
    split <;> rfl

lemma foldl_destroyRequest_inflight {l : List (InflightRequest κ)} (hperm : s.inflight ~ l)
    (hnodup : (l.map (·.ptr)).Nodup) (hlive : ∀ r ∈ l, r.destroyed = false) :
    (l.foldl destroyRequest s).inflight = [] := by
  induction l generalizing s with
  | nil => exact hperm.eq_nil
  | cons r l ih =>
    rw [List.map_cons, List.nodup_cons] at hnodup
    refine ih ?_ hnodup.2 fun b hb => hlive b (List.mem_cons_of_mem r hb)
    have hdestroy : (s.destroyRequest r).inflight =
        SwapPop.remove (fun b => b.ptr = r.ptr) s.inflight := by
      simp [destroyRequest, hlive r (by simp)]
    have hremove : r :: SwapPop.remove (fun b => b.ptr = r.ptr) s.inflight ~ s.inflight := by
      refine SwapPop.remove_perm (hperm.mem_iff.2 (by simp)) fun b hb => ?_
      rw [decide_eq_true_eq]
      refine ⟨fun hptr => ?_, fun hbr => by rw [hbr]⟩
      rcases List.mem_cons.1 (hperm.mem_iff.1 hb) with hbr | hb
      · exact hbr
      · exact absurd (List.mem_map_of_mem hb) (hptr ▸ hnodup.1)
    rw [hdestroy]
    exact (hremove.trans hperm).cons_inv

lemma close_quiets (h : WellFormed s) : Quiets s s.close := by
  unfold close
  cases hclosing : s.closing with
  | true =>
    simp only [if_true]
    exact .refl s
  | false =>
    simp only [Bool.false_eq_true, if_false]
    obtain ⟨w, hw⟩ := foldl_destroyRequest s.inflight { s with closing := true }
    have hnone : (s.inflight.foldl destroyRequest { s with closing := true }).inflight = [] :=
      foldl_destroyRequest_inflight (List.Perm.refl _) h.inflight_nodup
        fun r hr => h.live r (mem_outstanding.2 (.inl hr))
    rw [destroyAll, hw, hnone]
    exact (Quiet.close s w hclosing).quiets

lemma close_outstanding (h : WellFormed s) : s.close.outstanding = [] := by
  refine ((close_quiets h).wellFormed h).closed ?_
  unfold close
  split
  · next hclosing => exact hclosing
  · obtain ⟨w, hw⟩ := foldl_destroyRequest s.inflight { s with closing := true }
    rw [destroyAll, hw]

/-- **Every step of the machine is a sequence of moves.** -/
theorem RpcSocket.step_moves (h : WellFormed s) (i : RpcSocket.Input κ) : Moves s (s.step i) := by
  cases i with
  | request req timeoutOverrideMs retries onResponse onTimeout =>
    exact (requestWith_requested s req timeoutOverrideMs retries onResponse onTimeout).moves h
  | response tid => exact (onResponse_quiets h tid).moves
  | timeout ptr => exact (onRequestTimeout_quiets h ptr).moves
  | drainTick => exact (onDrainTick_quiets h).moves
  | cancel tid => exact (cancelRequest_quiets h tid).moves
  | close => exact (close_quiets h).moves

/-! ## Only closing closes -/

@[simp] lemma sendNow_closing (s : RpcSocket κ) (r : InflightRequest κ) :
    (s.sendNow r).closing = s.closing := by
  unfold sendNow
  split <;> rfl

@[simp] lemma destroyRequest_closing (s : RpcSocket κ) (r : InflightRequest κ) :
    (s.destroyRequest r).closing = s.closing := by
  unfold destroyRequest
  split <;> rfl

lemma drainLoop_closing (l : List (InflightRequest κ)) (s : RpcSocket κ) :
    (drainLoop l s).closing = s.closing := by
  induction l generalizing s with
  | nil => rfl
  | cons r rest ih =>
    unfold drainLoop
    split
    · rfl
    · rw [ih]
      unfold drainOne
      split
      · rfl
      · simp

@[simp] lemma onDrainTick_closing (s : RpcSocket κ) : s.onDrainTick.closing = s.closing := by
  unfold onDrainTick
  split
  · rfl
  · exact drainLoop_closing s.pending { s with congestion := s.congestion.drain }

lemma Requested.closing_eq {onResponse onTimeout : Option κ} {result : RpcSocket κ × UInt16}
    (hresult : Requested s onResponse onTimeout result) : result.1.closing = s.closing := by
  cases hresult with
  | closing hclosing => rfl
  | refused hopen hfull hpending => rfl
  | queued r hopen hr => rfl
  | sent r hopen hr => exact sendNow_closing _ r

lemma Move.closing (hmove : Move s t) (h : s.closing = true) : t.closing = true := by
  cases hmove with
  | quiet hquiet =>
    cases hquiet with
    | close w hopen => rfl
    | _ => exact h
  | _ => exact h

lemma Moves.closing (hmoves : Moves s t) (h : s.closing = true) : t.closing = true :=
  hmoves.induct (fun _ _ hs hmove => hmove.closing hs) h

/-! ## Requests that wait for their completion -/

lemma Requested.findInflight {onResponse onTimeout : Option κ} {result : RpcSocket κ × UInt16}
    {tid : UInt16} (hresult : Requested s onResponse onTimeout result) (h : WellFormed s)
    (hfind : s.findInflight tid = some r) : result.1.findInflight tid = some r := by
  cases hresult with
  | closing hclosing => exact hfind
  | refused hopen hfull hpending => exact hfind
  | queued b hopen hb hresponse htimeout hfull hpending => exact hfind
  | sent b hopen hb hresponse htimeout hroom =>
    have hold : countSent b.ptr s.inflight = s.inflight := by
      refine countSent_of_forall_ne fun c hc => ?_
      have := h.ptr_lt c (mem_outstanding.2 (.inl hc))
      rw [hb.ptr]
      omega
    have happend : countSent b.ptr (s.inflight ++ [b]) =
        countSent b.ptr s.inflight ++ countSent b.ptr [b] := List.map_append
    have hinflight : (({ s.counted with
        inflight := s.inflight ++ [b]
        log := s.log ++ [b.issue] } : RpcSocket κ).sendNow b).inflight =
          s.inflight ++ countSent b.ptr [b] := by
      simp only [sendNow, hb.live, Bool.false_or]
      rw [if_neg (by simp [counted, allocTid, hopen]), happend, hold]
    have hfirst : s.inflight.find? (fun c => c.tid = tid) = some r := hfind
    simp only [RpcSocket.findInflight, hinflight, List.find?_append, hfirst, Option.some_or]

lemma Moves.callbacks {ptr : ℕ} {onResponse onTimeout : Option κ} (hmoves : Moves s t)
    (hwf : WellFormed s) (hptr : ptr < s.nextPtr)
    (h : ∀ b ∈ s.outstanding, b.ptr = ptr → b.onResponse = onResponse ∧ b.onTimeout = onTimeout) :
    ∀ b ∈ t.outstanding, b.ptr = ptr → b.onResponse = onResponse ∧ b.onTimeout = onTimeout := by
  have haccept : ∀ {s t : RpcSocket κ} {r : InflightRequest κ}, ptr < s.nextPtr → Fresh s r →
      t.outstanding ~ r :: s.outstanding →
      (∀ b ∈ s.outstanding, b.ptr = ptr → b.onResponse = onResponse ∧ b.onTimeout = onTimeout) →
      ∀ b ∈ t.outstanding, b.ptr = ptr → b.onResponse = onResponse ∧ b.onTimeout = onTimeout := by
    intro s t r hptr hr hperm h b hb hbptr
    rcases List.mem_cons.1 (hperm.mem_iff.1 hb) with rfl | hb
    · rw [hr.ptr] at hbptr
      omega
    · exact h b hb hbptr
  refine (hmoves.induct (P := fun t => WellFormed t ∧ ptr < t.nextPtr ∧ ∀ b ∈ t.outstanding,
    b.ptr = ptr → b.onResponse = onResponse ∧ b.onTimeout = onTimeout) (fun s t hs hmove => ?_)
    ⟨hwf, hptr, h⟩).2.2
  refine ⟨hmove.wellFormed hs.1, ?_⟩
  cases hmove with
  | quiet hquiet =>
    refine ⟨hquiet.nextPtr_eq ▸ hs.2.1, fun b hb hbptr => ?_⟩
    obtain ⟨c, hc, n, rfl⟩ := hquiet.exists_outstanding hs.1 hb
    exact hs.2.2 c hc hbptr
  | refuse hopen hfull hpending => exact ⟨Nat.lt_succ_of_lt hs.2.1, hs.2.2⟩
  | launch r hopen hr =>
    exact ⟨Nat.lt_succ_of_lt hs.2.1, haccept hs.2.1 hr (launch_outstanding s r) hs.2.2⟩
  | enqueue r hopen hr =>
    exact ⟨Nat.lt_succ_of_lt hs.2.1, haccept hs.2.1 hr (enqueue_outstanding s r) hs.2.2⟩

/-! ## Invariants of whole runs -/

lemma Moves.wellFormed (hmoves : Moves s t) (h : WellFormed s) : WellFormed t :=
  hmoves.induct (fun _ _ hs hmove => hmove.wellFormed hs) h

lemma wellFormed_init (firstTid : UInt16) : WellFormed (RpcSocket.init κ firstTid) := by
  constructor <;> simp [RpcSocket.init, outstanding]

/-- What every move of a well formed engine keeps holds at the end of every run. -/
theorem invariant_run {P : RpcSocket κ → Prop}
    (hmove : ∀ s t, WellFormed s → P s → Move s t → P t) (hwf : WellFormed s) (hs : P s)
    (is : List (RpcSocket.Input κ)) :
    WellFormed (Runs.run step s is) ∧ P (Runs.run step s is) := by
  refine Runs.run_invariant (P := fun s => WellFormed s ∧ P s) (fun s i hs => ?_) ⟨hwf, hs⟩ is
  exact (step_moves hs.1 i).induct (P := fun s => WellFormed s ∧ P s)
    (fun s t hs hst => ⟨hst.wellFormed hs.1, hmove s t hs.1 hs.2 hst⟩) hs

end HyperDHT.Rpc
