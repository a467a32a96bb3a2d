import HyperDHT.Rpc.Moves
import Mathlib.Algebra.BigOperators.Fin
import Mathlib.Algebra.Order.BigOperators.Group.Finset
import Mathlib.Tactic.Linarith

/-!
# The congestion window bounds what is in flight

The window counts the requests sent in four buckets. First transmissions ask `is_full` before they
are counted, in `request` and in `drain_pending`; the retries of `on_request_timeout` call
`send_now` without asking. So the sum of the buckets is always accounted for, and the bounds hold in
exactly the runs in which every retry finds room in the window.

## Main definitions

* `Rpc.CongestionWindow.Balanced`, `Rpc.CongestionWindow.Bounded` — the books of the window are in
  order, and its counts respect the maximum.
* `Rpc.CongestionWindow.Turn` — the changes of the window that ask before they count.
* `Rpc.RpcSocket.resends` — an input makes the engine send a request again.

## Main results

* `Rpc.balanced_run` — the books are in order in every state of every run.
* `Rpc.congestion_bounded_iff` — the counts respect the maximum in every state of exactly the runs
  whose retries all find room.
-/

set_option autoImplicit false

namespace HyperDHT.Rpc

open RpcSocket

variable {κ : Type} {s t : RpcSocket κ} {m : ℤ}

namespace CongestionWindow

variable {w v : CongestionWindow}

/-! ## The books of the window -/

/-- The total is the sum of the buckets, and none of them is negative. -/
structure Balanced (w : CongestionWindow) : Prop where
  total_eq : w.total = ∑ j, w.window j
  nonneg : ∀ j, 0 ≤ w.window j

/-- The current bucket holds at most `m` requests and all buckets together at most `2 * m`. -/
structure Bounded (m : ℤ) (w : CongestionWindow) : Prop extends Balanced w where
  current_le : w.window w.i ≤ m
  total_le : w.total ≤ 2 * m

/-- The clamp of `drain` has nothing to do. -/
def Unclamped (w : CongestionWindow) : Prop := 0 ≤ w.total - w.window (w.i + 1)

lemma Balanced.window_le (h : w.Balanced) (j : Fin 4) : w.window j ≤ w.total := by
  rw [h.total_eq]
  exact Finset.single_le_sum (fun k _ => h.nonneg k) (Finset.mem_univ j)

lemma Balanced.unclamped (h : w.Balanced) : w.Unclamped :=
  sub_nonneg.2 (h.window_le (w.i + 1))

lemma sum_update (f : Fin 4 → ℤ) (j : Fin 4) (n : ℤ) :
    ∑ k, Function.update f j n k = ∑ k, f k - f j + n := by
  have hrest := Finset.add_sum_erase Finset.univ f (Finset.mem_univ j)
  rw [Finset.sum_update_of_mem (Finset.mem_univ j), Finset.sdiff_singleton_eq_erase]
  linarith

lemma Balanced.update (h : w.Balanced) {i j : Fin 4} {n total : ℤ} (hn : 0 ≤ n)
    (htotal : total = w.total - w.window j + n) :
    Balanced { w with i, total, window := Function.update w.window j n } := by
  refine ⟨?_, fun k => ?_⟩
  · rw [htotal, sum_update, h.total_eq]
  · rcases eq_or_ne k j with rfl | hk
    · simpa using hn
    · simpa [Function.update_of_ne hk] using h.nonneg k

lemma Balanced.send (h : w.Balanced) : w.send.Balanced := by
  have hcurrent := h.nonneg w.i
  exact h.update (by omega) (by omega)

lemma Balanced.recv (h : w.Balanced) : w.recv.Balanced := by
  unfold CongestionWindow.recv
  split
  · next hpos => exact h.update (by omega) (by omega)
  · exact h

lemma Balanced.drain_total (h : w.Balanced) : w.drain.total = w.total - w.window (w.i + 1) := by
  have hclamp := h.unclamped
  unfold Unclamped at hclamp
  simp only [CongestionWindow.drain]
  rw [if_neg (by omega)]

lemma Balanced.drain (h : w.Balanced) : w.drain.Balanced := by
  have htotal := h.drain_total
  refine h.update le_rfl ?_
  rw [add_zero]
  exact htotal

/-! ## Changes that ask before they count -/

/-- The window changes without a request being counted that it does not admit. -/
inductive Turn : CongestionWindow → CongestionWindow → Prop where
  | send (w : CongestionWindow) (hroom : w.isFull = false) : Turn w w.send
  | recv (w : CongestionWindow) : Turn w w.recv
  | drain (w : CongestionWindow) : Turn w w.drain

/-- A sequence of such changes. -/
def Turns : CongestionWindow → CongestionWindow → Prop := Relation.ReflTransGen Turn

lemma Turns.refl (w : CongestionWindow) : Turns w w := Relation.ReflTransGen.refl

lemma Turn.turns (h : Turn w v) : Turns w v := Relation.ReflTransGen.single h

lemma Turns.trans {u : CongestionWindow} (h₁ : Turns w v) (h₂ : Turns v u) : Turns w u :=
  Relation.ReflTransGen.trans h₁ h₂

lemma isFull_eq_false_iff :
    w.isFull = false ↔ w.total < 2 * w.maxWindow ∧ w.window w.i < w.maxWindow := by
  simp [isFull]

lemma Bounded.send_iff (h : w.Bounded m) (hmax : w.maxWindow = m) :
    w.send.Bounded m ↔ w.isFull = false := by
  rw [isFull_eq_false_iff, hmax]
  constructor
  · intro hsend
    have hcurrent := hsend.current_le
    have htotal := hsend.total_le
    simp only [CongestionWindow.send, Function.update_self] at hcurrent htotal
    exact ⟨by omega, by omega⟩
  · rintro ⟨htotal, hcurrent⟩
    refine ⟨h.toBalanced.send, ?_, ?_⟩
    · simp only [CongestionWindow.send, Function.update_self]
      omega
    · simp only [CongestionWindow.send]
      omega

lemma Bounded.recv (h : w.Bounded m) : w.recv.Bounded m := by
  have hcurrent := h.current_le
  have htotal := h.total_le
  refine ⟨h.toBalanced.recv, ?_, ?_⟩
  · unfold CongestionWindow.recv
    split
    · simp only [Function.update_self]
      omega
    · exact hcurrent
  · unfold CongestionWindow.recv
    split
    · simp only
      omega
    · exact htotal

lemma Bounded.drain (h : w.Bounded m) : w.drain.Bounded m := by
  have htotal := h.total_le
  have hbucket := h.nonneg (w.i + 1)
  refine ⟨h.toBalanced.drain, ?_, ?_⟩
  · have hcurrent := h.nonneg w.i
    have hle := h.current_le
    simp only [CongestionWindow.drain, Function.update_self]
    omega
  · rw [h.toBalanced.drain_total]
    omega

lemma Turn.maxWindow_eq (h : Turn w v) : v.maxWindow = w.maxWindow := by
  cases h with
  | send hroom => rfl
  | recv =>
    unfold CongestionWindow.recv
    split <;> rfl
  | drain => rfl

lemma Turn.balanced (h : Turn w v) (hw : w.Balanced) : v.Balanced := by
  cases h with
  | send hroom => exact hw.send
  | recv => exact hw.recv
  | drain => exact hw.drain

lemma Turn.bounded (h : Turn w v) (hmax : w.maxWindow = m) (hw : w.Bounded m) : v.Bounded m := by
  cases h with
  | send hroom => exact (hw.send_iff hmax).2 hroom
  | recv => exact hw.recv
  | drain => exact hw.drain

lemma Turns.keep (h : Turns w v) :
    v.maxWindow = w.maxWindow ∧ (w.Balanced → v.Balanced) ∧
      (w.maxWindow = m → w.Bounded m → v.Bounded m) := by
  induction h with
  | refl => exact ⟨rfl, id, fun _ => id⟩
  | tail _ hlast ih =>
    obtain ⟨hmax, hbalanced, hbounded⟩ := ih
    exact ⟨hlast.maxWindow_eq.trans hmax, fun hw => hlast.balanced (hbalanced hw),
      fun hm hw => hlast.bounded (hmax.trans hm) (hbounded hm hw)⟩

end CongestionWindow

open CongestionWindow

/-! ## What a step of the engine does to the window -/

/-- The input makes the engine send a request again: it is the timer of a request in flight that
has retries left. -/
def RpcSocket.resends (s : RpcSocket κ) : RpcSocket.Input κ → Bool
  | .timeout ptr =>
    match s.inflight.find? fun r => r.ptr = ptr with
    | none => false
    | some req => !(req.destroyed || s.closing) && req.sent ≤ req.retries
  | _ => false

lemma destroyRequest_turns (s : RpcSocket κ) (r : InflightRequest κ) :
    Turns s.congestion (s.destroyRequest r).congestion := by
  unfold destroyRequest
  split
  · exact .refl _
  · exact (Turn.recv _).turns

lemma foldl_destroyRequest_turns (l : List (InflightRequest κ)) (s : RpcSocket κ) :
    Turns s.congestion (l.foldl destroyRequest s).congestion := by
  induction l generalizing s with
  | nil => exact .refl _
  | cons r l ih => exact (destroyRequest_turns s r).trans (ih _)

lemma sendNow_turns {r : InflightRequest κ} (hroom : s.congestion.isFull = false) :
    Turns s.congestion (s.sendNow r).congestion := by
  unfold sendNow
  split
  · exact .refl _
  · exact (Turn.send _ hroom).turns

lemma drainOne_turns (r : InflightRequest κ) (rest : List (InflightRequest κ))
    (hroom : s.congestion.isFull = false) :
    Turns s.congestion (s.drainOne r rest).congestion := by
  unfold drainOne
  split
  · exact .refl _
  · exact sendNow_turns (s := { s with pending := rest, inflight := s.inflight ++ [r] }) hroom

lemma drainLoop_turns (l : List (InflightRequest κ)) (s : RpcSocket κ) :
    Turns s.congestion (drainLoop l s).congestion := by
  induction l generalizing s with
  | nil => exact .refl _
  | cons r rest ih =>
    unfold drainLoop
    split
    · exact .refl _
    · next hroom => exact (drainOne_turns r rest (by simpa using hroom)).trans (ih _)

lemma requestWith_turns (req : Request) (timeoutOverrideMs : UInt64) (retries : ℕ)
    (onResponse onTimeout : Option κ) :
    Turns s.congestion
      (s.requestWith req timeoutOverrideMs retries onResponse onTimeout).1.congestion := by
  have hrequested := requestWith_requested s req timeoutOverrideMs retries onResponse onTimeout
  generalize s.requestWith req timeoutOverrideMs retries onResponse onTimeout = result at *
  cases hrequested with
  | closing hclosing => exact .refl _
  | refused hopen hfull hpending => exact .refl _
  | queued r hopen hr hresponse htimeout hfull hpending => exact .refl _
  | sent r hopen hr hresponse htimeout hroom =>
    exact sendNow_turns (s := { s.counted with
      inflight := s.inflight ++ [r], log := s.log ++ [r.issue] }) hroom

lemma onResponse_turns (tid : UInt16) :
    Turns s.congestion (s.onResponse tid).1.congestion := by
  unfold RpcSocket.onResponse
  split
  · exact .refl _
  · split
    · exact .refl _
    · split
      · exact .refl _
      · exact destroyRequest_turns s _

lemma onDrainTick_turns : Turns s.congestion s.onDrainTick.congestion := by
  unfold onDrainTick
  split
  · exact .refl _
  · exact (Turn.drain _).turns.trans
      (drainLoop_turns s.pending { s with congestion := s.congestion.drain })

lemma cancelRequest_turns (tid : UInt16) :
    Turns s.congestion (s.cancelRequest tid).1.congestion := by
  unfold cancelRequest
  split
  · exact .refl _
  · exact destroyRequest_turns s _

lemma close_turns : Turns s.congestion s.close.congestion := by
  unfold close
  split
  · exact .refl _
  · exact foldl_destroyRequest_turns s.inflight { s with closing := true }

lemma onRequestTimeout_congestion (ptr : ℕ) :
    (s.resends (.timeout ptr) = true ∧
      (s.onRequestTimeout ptr).1.congestion = s.congestion.send) ∨
    (s.resends (.timeout ptr) = false ∧
      Turns s.congestion (s.onRequestTimeout ptr).1.congestion) := by
  cases hfind : s.inflight.find? fun r => r.ptr = ptr with
  | none =>
    have hsame : s.onRequestTimeout ptr = (s, none) := by simp [onRequestTimeout, hfind]
    exact .inr ⟨by simp [resends, hfind], by rw [hsame]; exact .refl _⟩
  | some r =>
    by_cases hdead : (r.destroyed || s.closing) = true
    · have hsame : s.onRequestTimeout ptr = (s, none) := by
        simp only [onRequestTimeout, hfind, if_pos hdead]
      exact .inr ⟨by simp only [resends, hfind, hdead]; rfl, by rw [hsame]; exact .refl _⟩
    · by_cases hsent : r.sent > r.retries
      · have hgive : (s.onRequestTimeout ptr).1.congestion = (s.destroyRequest r).congestion := by
          simp only [onRequestTimeout, hfind, if_neg hdead, if_pos hsent]
        refine .inr ⟨?_, by rw [hgive]; exact destroyRequest_turns s r⟩
        simp [resends, hfind, not_le.2 hsent]
      · have hretry : s.onRequestTimeout ptr = (s.sendNow r, none) := by
          simp only [onRequestTimeout, hfind, if_neg hdead, if_neg hsent]
        refine .inl ⟨?_, by rw [hretry, sendNow, if_neg hdead]⟩
        have hlive : (r.destroyed || s.closing) = false := by simpa using hdead
        simp [resends, hfind, hlive, not_lt.1 hsent]

/-- **One step and the window**: the step sends a request again and counts it, or whatever it
counts was admitted. -/
theorem step_congestion (s : RpcSocket κ) (i : RpcSocket.Input κ) :
    (s.resends i = true ∧ (s.step i).congestion = s.congestion.send) ∨
      (s.resends i = false ∧ Turns s.congestion (s.step i).congestion) := by
  cases i with
  | request req timeoutOverrideMs retries onResponse onTimeout =>
    exact .inr ⟨rfl, requestWith_turns req timeoutOverrideMs retries onResponse onTimeout⟩
  | response tid => exact .inr ⟨rfl, onResponse_turns tid⟩
  | timeout ptr => exact onRequestTimeout_congestion ptr
  | drainTick => exact .inr ⟨rfl, onDrainTick_turns⟩
  | cancel tid => exact .inr ⟨rfl, cancelRequest_turns tid⟩
  | close => exact .inr ⟨rfl, close_turns⟩

lemma step_maxWindow (s : RpcSocket κ) (i : RpcSocket.Input κ) :
    (s.step i).congestion.maxWindow = s.congestion.maxWindow := by
  rcases step_congestion s i with ⟨-, hsend⟩ | ⟨-, hturns⟩
  · rw [hsend]
    rfl
  · exact (hturns.keep (m := 0)).1

lemma step_balanced (i : RpcSocket.Input κ) (h : s.congestion.Balanced) :
    (s.step i).congestion.Balanced := by
  rcases step_congestion s i with ⟨-, hsend⟩ | ⟨-, hturns⟩
  · rw [hsend]
    exact h.send
  · exact (hturns.keep (m := 0)).2.1 h

lemma step_bounded_iff (i : RpcSocket.Input κ) (hmax : s.congestion.maxWindow = m)
    (h : s.congestion.Bounded m) :
    (s.step i).congestion.Bounded m ↔ (s.resends i = true → s.congestion.isFull = false) := by
  rcases step_congestion s i with ⟨hresends, hsend⟩ | ⟨hresends, hturns⟩
  · simp only [hsend, hresends, true_imp_iff]
    exact h.send_iff hmax
  · simp only [hresends, Bool.false_eq_true, false_imp_iff, iff_true]
    exact hturns.keep.2.2 hmax h

/-! ## Runs -/

/-- A fresh engine whose congestion window has the maximum `m`. -/
def RpcSocket.initWithWindow (κ : Type) (m : ℤ) (firstTid : UInt16) : RpcSocket κ :=
  { RpcSocket.init κ firstTid with congestion := { maxWindow := m } }

lemma balanced_init (m : ℤ) (firstTid : UInt16) :
    (initWithWindow κ m firstTid).congestion.Balanced :=
  ⟨by simp [initWithWindow], fun _ => le_rfl⟩

/-- **The books of the window are in order in every state of every run.** So `drain` never takes
more off the total than it holds. -/
theorem balanced_run (m : ℤ) (firstTid : UInt16) (is : List (RpcSocket.Input κ)) :
    (Runs.run step (initWithWindow κ m firstTid) is).congestion.Balanced :=
  Runs.run_invariant (P := fun s : RpcSocket κ => s.congestion.Balanced) (fun _ i h => step_balanced i h)
    (balanced_init m firstTid) is

/-- A retry of this step, if it makes one, finds room in the window. -/
def RetryAdmitted (s : RpcSocket κ) (i : RpcSocket.Input κ) : Prop :=
  s.resends i = true → s.congestion.isFull = false

instance (s : RpcSocket κ) (i : RpcSocket.Input κ) : Decidable (RetryAdmitted s i) :=
  inferInstanceAs (Decidable (_ → _))

/-- **The congestion bound**: in every state of a run the current bucket holds at most `m` requests
and the total is at most `2 * m`, it is the sum of the buckets, none is negative and the clamp of
`drain` is not needed — in exactly the runs in which the maximum is not negative and every retry
finds room in the window.

**Proof sketch.** All changes of the window but a retry ask before they count. -/
theorem congestion_bounded_iff (m : ℤ) (firstTid : UInt16) (is : List (RpcSocket.Input κ)) :
    Runs.EveryState step (fun s => s.congestion.Bounded m ∧ s.congestion.Unclamped)
        (initWithWindow κ m firstTid) is ↔
      0 ≤ m ∧ Runs.EveryStep step RetryAdmitted (initWithWindow κ m firstTid) is := by
  have hstep : ∀ (s : RpcSocket κ) (i : RpcSocket.Input κ), s.congestion.maxWindow = m →
      s.congestion.Bounded m ∧ s.congestion.Unclamped →
      ((s.step i).congestion.Bounded m ∧ (s.step i).congestion.Unclamped ↔ RetryAdmitted s i) := by
    intro s i hmax hs
    have hiff := step_bounded_iff i hmax hs.1
    exact ⟨fun h => hiff.1 h.1, fun h => ⟨hiff.2 h, (hiff.2 h).toBalanced.unclamped⟩⟩
  have hbalanced := balanced_init (κ := κ) m firstTid
  by_cases hm : 0 ≤ m
  · have hfirst : (initWithWindow κ m firstTid).congestion.Bounded m :=
      ⟨hbalanced, hm, by simpa [initWithWindow] using hm⟩
    have hiff : Runs.EveryState step (fun s => s.congestion.Bounded m ∧ s.congestion.Unclamped)
        (initWithWindow κ m firstTid) is ↔
          Runs.EveryStep step RetryAdmitted (initWithWindow κ m firstTid) is :=
      Runs.everyState_iff_everyStep (I := fun s : RpcSocket κ => s.congestion.maxWindow = m)
        (fun s i hmax => (step_maxWindow s i).trans hmax) hstep rfl
        ⟨hfirst, hbalanced.unclamped⟩
    exact hiff.trans ⟨fun h => ⟨hm, h⟩, fun h => h.2⟩
  · refine ⟨fun h => ?_, fun h => absurd h.1 hm⟩
    exact absurd h.head.1.current_le hm

def retryRun : List (RpcSocket.Input Unit) :=
  List.replicate 80 (.request { toAddr := Compact.Ipv4Address.zero } 0 defaultRetries none none) ++
    [.timeout 0]

/-- A retry exceeds the bound: with the default maximum, the current bucket counts 81 requests
after the first of eighty is sent again. -/
theorem not_congestion_bounded_of_retry :
    ¬ Runs.EveryState step
      (fun s => s.congestion.Bounded defaultMaxWindow ∧ s.congestion.Unclamped)
      (RpcSocket.init Unit 1) retryRun := by
  intro h
  have hcurrent := h.run.1.current_le
  have hcount : (Runs.run step (RpcSocket.init Unit 1) retryRun).congestion.window
      (Runs.run step (RpcSocket.init Unit 1) retryRun).congestion.i = 81 := by
    decide +kernel
  rw [hcount, defaultMaxWindow] at hcurrent
  omega

end HyperDHT.Rpc
