import HyperDHT.Rpc.Moves
import Mathlib.Data.Nat.ModEq

/-!
# Transaction ids

A response is matched to a request by its transaction id alone, a number of 16 bits that is handed
out in turn. The ids of outstanding requests are distinct and not zero exactly as long as no request
is made with the counter at zero, which only the random first value can be, or while a request made
a multiple of 65535 calls earlier is still outstanding.

## Main definitions

* `Rpc.tidAt` — the id of the request made at each place in the life of the engine.
* `Rpc.TidsIdentify` — the ids identify the outstanding requests.
* `Rpc.TidIsFree` — the condition on a step.

## Main results

* `Rpc.tidsIdentify_iff_tidIsFree` — the ids identify the outstanding requests in every state of
  exactly the runs whose steps meet the condition.
-/

set_option autoImplicit false

namespace HyperDHT.Rpc

open scoped List
open RpcSocket

variable {κ : Type} {s t : RpcSocket κ} {r : InflightRequest κ}

/-! ## The sequence of ids -/

/-- The id of the request that is made after `k` others, as a number. -/
def tidAt (firstTid : UInt16) (k : ℕ) : ℕ :=
  if firstTid = 0 ∧ k = 0 then 0 else (firstTid.toNat + k - 1) % 65535 + 1

lemma tidAt_zero (firstTid : UInt16) : firstTid.toNat = tidAt firstTid 0 := by
  have hlt : firstTid.toNat < 2 ^ 16 := firstTid.toNat_lt
  unfold tidAt
  split
  · next h => simp [h.1]
  · next h =>
    have hne : firstTid.toNat ≠ 0 := fun h0 => h ⟨UInt16.toNat_inj.1 h0, rfl⟩
    omega

lemma tidAt_succ {firstTid next : UInt16} {k : ℕ} (h : next.toNat = tidAt firstTid k) :
    (if next + 1 = 0 then (1 : UInt16) else next + 1).toNat = tidAt firstTid (k + 1) := by
  have hadd : (next + 1).toNat = (next.toNat + 1) % 2 ^ 16 := UInt16.toNat_add _ _
  have hzero : next + 1 = 0 ↔ (next.toNat + 1) % 2 ^ 16 = 0 := by
    rw [← hadd, ← UInt16.toNat_inj]
    rfl
  have hsucc : tidAt firstTid (k + 1) = (firstTid.toNat + k) % 65535 + 1 := by simp [tidAt]
  have hnext : next.toNat = 0 ∧ firstTid.toNat + k = 0 ∨
      0 < firstTid.toNat + k ∧ next.toNat = (firstTid.toNat + k - 1) % 65535 + 1 := by
    rw [h, tidAt]
    split
    · next h0 => simp [h0.1, h0.2]
    · next h0 =>
      have hpos : 0 < firstTid.toNat + k := by
        by_contra hnot
        exact h0 ⟨UInt16.toNat_inj.1 (by simp; omega), by omega⟩
      exact .inr ⟨hpos, rfl⟩
  rw [hsucc]
  split
  · next hwrap =>
    rw [hzero] at hwrap
    have hone : (1 : UInt16).toNat = 1 := rfl
    rw [hone]
    omega
  · next hwrap =>
    rw [hzero] at hwrap
    rw [hadd]
    omega

lemma tidAt_eq_iff {firstTid : UInt16} {j k : ℕ} (hj : tidAt firstTid j ≠ 0)
    (hk : tidAt firstTid k ≠ 0) : tidAt firstTid j = tidAt firstTid k ↔ j ≡ k [MOD 65535] := by
  have hpos : ∀ n, tidAt firstTid n ≠ 0 → 0 < firstTid.toNat + n ∧
      tidAt firstTid n = (firstTid.toNat + n - 1) % 65535 + 1 := by
    intro n hn
    unfold tidAt at hn ⊢
    split at hn
    · simp at hn
    · next h0 =>
      refine ⟨?_, if_neg h0⟩
      by_contra hnot
      exact h0 ⟨UInt16.toNat_inj.1 (by simp; omega), by omega⟩
  obtain ⟨hj0, hj⟩ := hpos j hj
  obtain ⟨hk0, hk⟩ := hpos k hk
  rw [hj, hk, Nat.ModEq]
  omega

/-! ## The ids of the requests of a state -/

/-- Every request carries the id that belongs to its place in the life of the engine. -/
structure InTurn (firstTid : UInt16) (s : RpcSocket κ) : Prop where
  next : s.nextTid.toNat = tidAt firstTid s.nextPtr
  outstanding : ∀ r ∈ s.outstanding, r.tid.toNat = tidAt firstTid r.ptr

lemma inTurn_init (firstTid : UInt16) : InTurn firstTid (RpcSocket.init κ firstTid) where
  next := tidAt_zero firstTid
  outstanding := by simp [RpcSocket.init, RpcSocket.outstanding]

private lemma InTurn.accept {firstTid : UInt16} (h : InTurn firstTid s) (hr : Fresh s r)
    (hperm : t.outstanding ~ r :: s.outstanding) (htid : t.nextTid = s.counted.nextTid)
    (hptr : t.nextPtr = s.nextPtr + 1) : InTurn firstTid t where
  next := by
    rw [htid, hptr]
    exact tidAt_succ h.next
  outstanding b hb := by
    rcases List.mem_cons.1 (hperm.mem_iff.1 hb) with rfl | hb
    · rw [hr.tid, hr.ptr]
      exact h.next
    · exact h.outstanding b hb

lemma Move.inTurn {firstTid : UInt16} (hmove : Move s t) (hwf : WellFormed s)
    (h : InTurn firstTid s) : InTurn firstTid t := by
  cases hmove with
  | quiet hquiet =>
    refine ⟨?_, fun b hb => ?_⟩
    · cases hquiet <;> exact h.next
    · have hsub := hquiet.map_subperm (fun r => (r.ptr, r.tid)) (fun _ => rfl) hwf
      obtain ⟨c, hc, heq⟩ := List.mem_map.1 (hsub.subset (List.mem_map_of_mem hb))
      obtain ⟨hptr, htid⟩ := Prod.mk.inj heq
      rw [← hptr, ← htid]
      exact h.outstanding c hc
  | refuse hopen hfull hpending => exact ⟨tidAt_succ h.next, h.outstanding⟩
  | launch r hopen hr => exact h.accept hr (launch_outstanding s r) rfl rfl
  | enqueue r hopen hr => exact h.accept hr (enqueue_outstanding s r) rfl rfl

/-! ## The law and the condition -/

/-- **The ids identify the requests**: those of the outstanding requests are distinct and not zero,
so a response is matched to the request that was sent with its id, and `request` returned zero for
no request that it accepted. -/
structure TidsIdentify (s : RpcSocket κ) : Prop where
  distinct : (s.outstanding.map (·.tid)).Nodup
  nonzero : ∀ r ∈ s.outstanding, r.tid ≠ 0
  matched : ∀ r ∈ s.inflight, s.findInflight r.tid = some r
  returned : ∀ ptr tid retries, .issued ptr tid retries ∈ s.log → tid ≠ 0

/-- A request that is accepted finds the counter not at zero, and no outstanding request was made
a multiple of 65535 calls of `request` before it. -/
def TidIsFree (s : RpcSocket κ) : RpcSocket.Input κ → Prop
  | .request .. =>
    s.Refuses ∨
      (s.nextTid ≠ 0 ∧ ∀ r ∈ s.outstanding, ¬ r.ptr ≡ s.nextPtr [MOD 65535])
  | _ => True

lemma findInflight_of_distinct (h : (s.outstanding.map (·.tid)).Nodup) (hr : r ∈ s.inflight) :
    s.findInflight r.tid = some r := by
  cases hfind : s.findInflight r.tid with
  | none =>
    have := List.find?_eq_none.1 hfind r hr
    simp at this
  | some b =>
    obtain ⟨hb, htid⟩ := mem_of_findInflight hfind
    have hsame : b = r := List.inj_on_of_nodup_map h (mem_outstanding.2 (.inl hb))
      (mem_outstanding.2 (.inl hr)) htid
    rw [hsame]

lemma tidsIdentify_iff : TidsIdentify s ↔ (s.outstanding.map (·.tid)).Nodup ∧
    (∀ r ∈ s.outstanding, r.tid ≠ 0) ∧
      ∀ ptr tid retries, .issued ptr tid retries ∈ s.log → tid ≠ 0 :=
  ⟨fun h => ⟨h.distinct, h.nonzero, h.returned⟩,
    fun h => ⟨h.1, h.2.1, fun _ => findInflight_of_distinct h.1, h.2.2⟩⟩

lemma Quiet.tidsIdentify (hquiet : Quiet s t) (hwf : WellFormed s) (h : TidsIdentify s) :
    TidsIdentify t := by
  have hsub := hquiet.map_subperm (·.tid) (fun _ => rfl) hwf
  refine tidsIdentify_iff.2 ⟨?_, fun b hb => ?_, fun ptr tid retries hmem => ?_⟩
  · obtain ⟨l, hl, hsublist⟩ := hsub
    exact hl.nodup_iff.1 (h.distinct.sublist hsublist)
  · obtain ⟨c, hc, heq⟩ := List.mem_map.1 (hsub.subset (List.mem_map_of_mem hb))
    exact heq ▸ h.nonzero c hc
  · exact h.returned ptr tid retries (hquiet.issued_mem hmem)

lemma Quiets.tidsIdentify (hquiets : Quiets s t) (hwf : WellFormed s) (h : TidsIdentify s) :
    TidsIdentify t :=
  (hquiets.induct (P := fun s => WellFormed s ∧ TidsIdentify s)
    (fun _ _ hs hquiet => ⟨hquiet.wellFormed hs.1, hquiet.tidsIdentify hs.1 hs.2⟩) ⟨hwf, h⟩).2

lemma tidsIdentify_accept_iff {firstTid : UInt16} (h : TidsIdentify s) (hturn : InTurn firstTid s)
    (hperm : t.outstanding.map (·.tid) ~ s.nextTid :: s.outstanding.map (·.tid))
    (hlog : ∀ ptr tid retries, .issued ptr tid retries ∈ t.log →
      .issued ptr tid retries ∈ s.log ∨ tid = s.nextTid) :
    TidsIdentify t ↔ s.nextTid ≠ 0 ∧ ∀ b ∈ s.outstanding, ¬ b.ptr ≡ s.nextPtr [MOD 65535] := by
  have hclash : s.nextTid ≠ 0 → ∀ b ∈ s.outstanding,
      (b.tid = s.nextTid ↔ b.ptr ≡ s.nextPtr [MOD 65535]) := by
    intro hnext b hb
    have hbne : tidAt firstTid b.ptr ≠ 0 := by
      rw [← hturn.outstanding b hb]
      exact fun h0 => h.nonzero b hb (UInt16.toNat_inj.1 h0)
    have hne : tidAt firstTid s.nextPtr ≠ 0 := by
      rw [← hturn.next]
      exact fun h0 => hnext (UInt16.toNat_inj.1 h0)
    rw [← tidAt_eq_iff hbne hne, ← hturn.outstanding b hb, ← hturn.next, UInt16.toNat_inj]
  rw [tidsIdentify_iff]
  constructor
  · rintro ⟨hdistinct, hnonzero, -⟩
    have hnext : s.nextTid ≠ 0 := by
      obtain ⟨b, hb, htid⟩ := List.mem_map.1 (hperm.mem_iff.2 List.mem_cons_self)
      exact htid ▸ hnonzero b hb
    refine ⟨hnext, fun b hb hmod => ?_⟩
    rw [hperm.nodup_iff, List.nodup_cons] at hdistinct
    exact hdistinct.1 (List.mem_map.2 ⟨b, hb, (hclash hnext b hb).2 hmod⟩)
  · rintro ⟨hnext, hfree⟩
    refine ⟨?_, fun b hb => ?_, fun ptr tid retries hmem => ?_⟩
    · rw [hperm.nodup_iff, List.nodup_cons]
      refine ⟨fun hmem => ?_, h.distinct⟩
      obtain ⟨b, hb, htid⟩ := List.mem_map.1 hmem
      exact hfree b hb ((hclash hnext b hb).1 htid)
    · rcases List.mem_cons.1 (hperm.mem_iff.1 (List.mem_map_of_mem hb)) with htid | htid
      · exact htid ▸ hnext
      · obtain ⟨c, hc, htid⟩ := List.mem_map.1 htid
        exact htid ▸ h.nonzero c hc
    · rcases hlog ptr tid retries hmem with hmem | rfl
      · exact h.returned ptr tid retries hmem
      · exact hnext

private lemma issued_mem_accept (hr : Fresh s r) (ptr : ℕ) (tid : UInt16) (retries : ℕ)
    (h : .issued ptr tid retries ∈ s.log ++ [r.issue]) :
    .issued ptr tid retries ∈ s.log ∨ tid = s.nextTid := by
  rw [List.mem_append, List.mem_singleton] at h
  refine h.imp_right fun hissue => ?_
  obtain ⟨-, rfl, -⟩ := (Event.issued.injEq ..).mp hissue
  exact hr.tid

/-- **One step**: it keeps the law exactly when it meets the condition. -/
theorem tidsIdentify_step_iff {firstTid : UInt16} (hwf : WellFormed s) (hturn : InTurn firstTid s)
    (h : TidsIdentify s) (i : RpcSocket.Input κ) : TidsIdentify (s.step i) ↔ TidIsFree s i := by
  cases i with
  | request req timeoutOverrideMs retries onResponse onTimeout =>
    have hrequest := requestWith_requested s req timeoutOverrideMs retries onResponse onTimeout
    simp only [step, TidIsFree]
    generalize s.requestWith req timeoutOverrideMs retries onResponse onTimeout = result at *
    cases hrequest with
    | closing hclosing => simp [Refuses, hclosing, h]
    | refused hopen hfull hpending =>
      have hkept : TidsIdentify s.counted := ⟨h.distinct, h.nonzero, h.matched, h.returned⟩
      simp [Refuses, hfull, hpending, hkept]
    | queued r hopen hr hresponse htimeout hfull hpending =>
      rw [tidsIdentify_accept_iff h hturn
        (hr.tid ▸ (enqueue_outstanding s r).map (·.tid)) (issued_mem_accept hr)]
      simp [Refuses, hopen, not_le.2 hpending]
    | sent r hopen hr hresponse htimeout hroom =>
      have hlaunched := (Move.launch s r hopen hr).wellFormed hwf
      have hsend := sendNow_quiet hlaunched (r := r) (by simp)
        (by rw [hr.sent]; exact Nat.zero_le _)
      rw [tidsIdentify_accept_iff h hturn ?_ fun ptr tid retries hmem =>
        issued_mem_accept hr ptr tid retries (hsend.issued_mem hmem)]
      · simp [Refuses, hopen, hroom]
      · rw [sendNow_map_outstanding (·.tid) (fun _ => rfl) hlaunched (by simp), ← hr.tid]
        exact (launch_outstanding s r).map (·.tid)
  | response tid => exact iff_of_true ((onResponse_quiets hwf tid).tidsIdentify hwf h) trivial
  | timeout ptr => exact iff_of_true ((onRequestTimeout_quiets hwf ptr).tidsIdentify hwf h) trivial
  | drainTick => exact iff_of_true ((onDrainTick_quiets hwf).tidsIdentify hwf h) trivial
  | cancel tid => exact iff_of_true ((cancelRequest_quiets hwf tid).tidsIdentify hwf h) trivial
  | close => exact iff_of_true ((close_quiets hwf).tidsIdentify hwf h) trivial

lemma tidsIdentify_init (firstTid : UInt16) : TidsIdentify (RpcSocket.init κ firstTid) := by
  constructor <;> simp [RpcSocket.init, outstanding]

/-! ## The theorem -/

/-- **Exactly when transaction ids identify requests.** The ids identify the outstanding requests
in every state of a run if and only if every request of the run that was accepted found the counter
not at zero and no outstanding request made a multiple of 65535 calls before it.

**Proof sketch.** The ids are handed out in turn, so two that are not zero are equal exactly when
their places differ by a multiple of 65535. A step that accepts no request keeps the law; one that
accepts a request keeps it exactly when the condition holds. -/
theorem tidsIdentify_iff_tidIsFree (firstTid : UInt16) (is : List (RpcSocket.Input κ)) :
    Runs.EveryState step TidsIdentify (RpcSocket.init κ firstTid) is ↔
      Runs.EveryStep step TidIsFree (RpcSocket.init κ firstTid) is := by
  refine Runs.everyState_iff_everyStep (I := fun s => WellFormed s ∧ InTurn firstTid s)
    (fun s i hs => ?_) (fun s i hs h => tidsIdentify_step_iff hs.1 hs.2 h i)
    ⟨wellFormed_init firstTid, inTurn_init firstTid⟩ (tidsIdentify_init firstTid)
  exact (step_moves hs.1 i).induct (P := fun s => WellFormed s ∧ InTurn firstTid s)
    (fun s t hs hmove => ⟨hmove.wellFormed hs.1, hmove.inTurn hs.1 hs.2⟩) hs

def plainRequest : RpcSocket.Input Unit :=
  .request { toAddr := Compact.Ipv4Address.zero } 0 0 none none

/-- **The random first id may be zero**: the first request of such an engine is accepted, sent with
the id zero, and `request` returns zero for it. -/
theorem not_tidsIdentify_of_zero :
    ¬ Runs.EveryState step TidsIdentify (RpcSocket.init Unit 0) [plainRequest] := by
  intro h
  have hlast := h.run
  exact hlast.returned 0 0 0 (by decide +kernel) rfl

end HyperDHT.Rpc
