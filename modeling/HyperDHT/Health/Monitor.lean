import Mathlib.Data.List.Basic
import Mathlib.Data.List.Infix
import Mathlib.Data.Rat.Defs
import Mathlib.Algebra.BigOperators.Group.List.Basic
import Mathlib.Algebra.Order.Field.Rat
import Mathlib.Tactic.Linarith
import HyperDHT.Lib.Double
import HyperDHT.Lib.Runs

/-!
# The health monitor

`health::HealthMonitor` keeps the last four ticks in a ring and counts the degraded and the healthy ones as they enter
and leave it. It is compared with a reference that reads the last four ticks of the history.

## Main definitions

* `Health.HealthMonitor`, `Health.healthStep` — the monitor.
* `Health.classes`, `Health.referenceState` — the reference.
* `Health.Ring` — what the ring holds.

## Main results

* `Health.Ring.push`, `Health.Ring.total` — a new snapshot enters the ring, and what the loops over it add up.
* `Health.matches_run` — the monitor equals the reference after every run.

## Design

The history holds the ticks since the last reset, the newest first. The counts are machine integers of 32 bits, and the
rate is computed with `Float`, the double precision of the source.
-/

set_option autoImplicit false

namespace HyperDHT.Health

open Runs

/-! ## The monitor -/

/-- `WINDOW_SIZE`. -/
abbrev windowSize : ℕ := 4

/-- `IDLE_THRESHOLD`. -/
abbrev idleThreshold : UInt32 := 4

/-- `DEGRADED_RATE`. -/
abbrev degradedRate : Float := 0.5

inductive State where
  | online
  | degraded
  | offline
  deriving DecidableEq

structure Snapshot where
  responses : UInt32 := 0
  timeouts : UInt32 := 0
  /-- `-1` if the tick was not evaluated, `0` if it was healthy, `1` if degraded. -/
  degraded : ℤ := -1
  deriving DecidableEq

structure HealthMonitor where
  window : Fin windowSize → Snapshot := fun _ => {}
  head : ℤ := -1
  count : ℕ := 0
  degradedTicks : ℤ := 0
  healthyTicks : ℤ := 0
  state : State := .online

local instance neZero_windowSize : NeZero windowSize := ⟨by decide⟩

/-- A place of the window. -/
def slot (i : ℕ) : Fin windowSize := Fin.ofNat windowSize i

namespace HealthMonitor

/-- The loops over the filled places, in the arithmetic of 32 bits. -/
def total (m : HealthMonitor) (field : Snapshot → UInt32) : UInt32 :=
  (List.range m.count).foldl (fun total i => total + field (m.window (slot i))) 0

/-- `HealthMonitor::total_responses`. -/
def totalResponses (m : HealthMonitor) : UInt32 := m.total Snapshot.responses

/-- `HealthMonitor::total_timeouts`. -/
def totalTimeouts (m : HealthMonitor) : UInt32 := m.total Snapshot.timeouts

/-- `HealthMonitor::is_cold`. -/
def isCold (m : HealthMonitor) : Bool := m.count < windowSize

/-- `HealthMonitor::is_idle`. -/
def isIdle (m : HealthMonitor) : Bool := m.totalResponses + m.totalTimeouts < idleThreshold

/-- `HealthMonitor::all_degraded`. -/
def allDegraded (m : HealthMonitor) : Bool := m.degradedTicks = windowSize

/-- `HealthMonitor::all_healthy`. -/
def allHealthy (m : HealthMonitor) : Bool := m.healthyTicks = windowSize

/-- The head advances, and the oldest observation leaves the counts. -/
def evict (m : HealthMonitor) : HealthMonitor :=
  let m := { m with head := (m.head + 1) % windowSize }
  if m.count = windowSize then
    let oldest := m.window (slot m.head.toNat)
    if oldest.degraded = 1 then { m with degradedTicks := m.degradedTicks - 1 }
    else if oldest.degraded = 0 then { m with healthyTicks := m.healthyTicks - 1 }
    else m
  else { m with count := m.count + 1 }

/-- The place of the head is written. -/
def write (m : HealthMonitor) (snapshot : Snapshot) : HealthMonitor :=
  { m with window := Function.update m.window (slot m.head.toNat) snapshot }

/-- Whether a tick is degraded. -/
def tickDegraded (newResponses newTimeouts : UInt32) : Bool :=
  let activity := newResponses + newTimeouts
  decide (0 < activity) && decide (degradedRate < newTimeouts.toFloat / activity.toFloat)

/-- The tick at the head is classified. -/
def classify (m : HealthMonitor) (newResponses newTimeouts : UInt32) : HealthMonitor :=
  if tickDegraded newResponses newTimeouts then
    { m.write { m.window (slot m.head.toNat) with degraded := 1 } with degradedTicks := m.degradedTicks + 1 }
  else { m.write { m.window (slot m.head.toNat) with degraded := 0 } with healthyTicks := m.healthyTicks + 1 }

/-- The state transitions. -/
def transition (m : HealthMonitor) : HealthMonitor :=
  let hasResponses := decide (0 < m.totalResponses)
  if hasResponses && m.allDegraded then { m with state := .degraded }
  else if !hasResponses then { m with state := .offline }
  else if hasResponses && m.allHealthy then { m with state := .online }
  else m

/-- `HealthMonitor::update`, which returns the state. -/
def update (m : HealthMonitor) (newResponses newTimeouts : UInt32) : HealthMonitor :=
  let m := m.evict.write { responses := newResponses, timeouts := newTimeouts, degraded := -1 }
  if m.isCold || m.isIdle then m else (m.classify newResponses newTimeouts).transition

/-- `HealthMonitor::reset`. -/
def reset (_ : HealthMonitor) : HealthMonitor :=
  { window := fun _ => {}, head := -1, count := 0, degradedTicks := 0, healthyTicks := 0, state := .online }

end HealthMonitor

inductive HealthInput where
  | update (newResponses newTimeouts : UInt32)
  | reset
  deriving DecidableEq

/-- The monitor takes a step. -/
def healthStep (m : HealthMonitor) : HealthInput → HealthMonitor
  | .update newResponses newTimeouts => m.update newResponses newTimeouts
  | .reset => m.reset

/-! ## The reference -/

/-- What a tick recorded. -/
structure Tick where
  responses : UInt32
  timeouts : UInt32
  deriving DecidableEq

/-- The responses and timeouts of a tick. -/
def Tick.activity (x : Tick) : ℕ := x.responses.toNat + x.timeouts.toNat

/-- The timeout rate is above one half. -/
def Tick.Degraded (x : Tick) : Prop := (1 / 2 : ℚ) < x.timeouts.toNat / x.activity

instance (x : Tick) : Decidable x.Degraded := inferInstanceAs (Decidable ((1 / 2 : ℚ) < _))

/-- The history after one more input. -/
def remember (history : List Tick) : HealthInput → List Tick
  | .update newResponses newTimeouts => ⟨newResponses, newTimeouts⟩ :: history
  | .reset => []

/-- The ticks since the last reset, the newest first. -/
def history (inputs : List HealthInput) : List Tick := inputs.foldl remember []

/-- The responses and timeouts of the last four ticks. -/
def windowTotal (ticks : List Tick) : ℕ := ((ticks.take 4).map Tick.activity).sum

/-- The newest tick is evaluated: there are four ticks, which carry at least four responses and timeouts. -/
def Evaluated (ticks : List Tick) : Prop := 4 ≤ ticks.length ∧ 4 ≤ windowTotal ticks

instance (ticks : List Tick) : Decidable (Evaluated ticks) := inferInstanceAs (Decidable (_ ∧ _))

/-- Whether a tick was degraded; `none` if it was not evaluated. -/
def Tick.judge (x : Tick) (older : List Tick) : Option Bool :=
  if Evaluated (x :: older) then some (decide x.Degraded) else none

/-- Whether each tick was degraded, the newest first. -/
def classes : List Tick → List (Option Bool)
  | [] => []
  | x :: older => x.judge older :: classes older

/-- The state after the ticks. -/
def referenceState : List Tick → State
  | [] => .online
  | x :: older =>
    if Evaluated (x :: older) then
      if ∀ y ∈ (x :: older).take 4, y.responses = 0 then .offline
      else if ∀ c ∈ (classes (x :: older)).take 4, c = some true then .degraded
      else if ∀ c ∈ (classes (x :: older)).take 4, c = some false then .online
      else referenceState older
    else referenceState older

/-- **The monitor equals the reference.** -/
structure Matches (m : HealthMonitor) (ticks : List Tick) : Prop where
  degradedTicks : m.degradedTicks = ((classes ticks).take 4).count (some true)
  healthyTicks : m.healthyTicks = ((classes ticks).take 4).count (some false)
  state : m.state = referenceState ticks

/-! ## The ring -/

/-- **The ring holds the newest snapshots**, the newest first. -/
structure Ring (m : HealthMonitor) (held : List Snapshot) : Prop where
  count : m.count = min held.length 4
  head : (m.head + 1) % 4 = (held.length : ℤ) % 4
  inside : 0 < held.length → 0 ≤ m.head ∧ m.head < 4
  slots : ∀ i s, i < 4 → held[i]? = some s → m.window (slot (held.length - 1 - i)) = s

variable {m : HealthMonitor} {s : Snapshot} {held : List Snapshot}

lemma slot_eq_iff {i j : ℕ} : slot i = slot j ↔ i % 4 = j % 4 := by
  rw [Fin.ext_iff]
  exact Iff.rfl

lemma Ring.slot_head (h : Ring m held) (hpos : 0 < held.length) :
    slot m.head.toNat = slot (held.length - 1) := by
  have hhead := h.head
  have hinside := h.inside hpos
  rw [slot_eq_iff]
  omega

lemma Ring.slot_next (h : Ring m held) : slot ((m.head + 1) % 4).toNat = slot held.length := by
  rw [h.head, slot_eq_iff]
  omega

/-- **A new snapshot enters the ring.** -/
lemma Ring.push {m' : HealthMonitor} (h : Ring m held) (hcount : m'.count = min (m.count + 1) 4)
    (hhead : m'.head = (m.head + 1) % 4)
    (hwindow : m'.window = Function.update m.window (slot m'.head.toNat) s) : Ring m' (s :: held) := by
  have hnext := h.slot_next
  have hold := h.head
  rw [← hhead] at hnext
  refine ⟨?_, ?_, fun _ => ?_, fun i s' hi hs' => ?_⟩
  · rw [hcount, h.count, List.length_cons]
    omega
  · rw [hhead, hold, List.length_cons]
    omega
  · rw [hhead]
    omega
  · rw [hwindow, hnext, List.length_cons]
    cases i with
    | zero =>
      obtain rfl : s = s' := by simpa using hs'
      exact Function.update_self _ _ _
    | succ i =>
      rw [List.getElem?_cons_succ] at hs'
      have hlt := (List.getElem?_eq_some_iff.1 hs').1
      have hne : slot (held.length + 1 - 1 - (i + 1)) ≠ slot held.length := by
        rw [ne_eq, slot_eq_iff]
        omega
      rw [Function.update_of_ne hne, ← h.slots i s' (by omega) hs']
      congr 2
      omega

lemma Ring.write {s' : Snapshot} (h : Ring m (s :: held)) : Ring (m.write s') (s' :: held) := by
  have hhead := h.slot_head (Nat.succ_pos _)
  refine ⟨h.count, h.head, h.inside, fun i t hi ht => ?_⟩
  show Function.update m.window (slot m.head.toNat) s' _ = t
  rw [hhead]
  cases i with
  | zero =>
    obtain rfl : s' = t := by simpa using ht
    exact Function.update_self _ _ _
  | succ i =>
    rw [List.getElem?_cons_succ] at ht
    have hlt := (List.getElem?_eq_some_iff.1 ht).1
    have hne : slot ((s' :: held).length - 1 - (i + 1)) ≠ slot ((s :: held).length - 1) := by
      rw [ne_eq, slot_eq_iff]
      simp only [List.length_cons]
      omega
    rw [Function.update_of_ne hne]
    exact h.slots (i + 1) t hi (by rw [List.getElem?_cons_succ, ht])

/-- Once around the ring is once around from each place of it. -/
lemma sum_around {g : ℕ → ℕ} (hg : ∀ i, g (i + 4) = g i) (n : ℕ) :
    g n + g (n + 1) + g (n + 2) + g (n + 3) = g 0 + g 1 + g 2 + g 3 := by
  induction n with
  | zero => rfl
  | succ n ih =>
    have hlast : g (n + 1 + 3) = g n := hg n
    rw [← ih, hlast]
    show g (n + 1) + g (n + 2) + g (n + 3) + g n = _
    omega

/-- **What the loops add up**: the field of the last four snapshots. -/
lemma Ring.total {a b c d : Snapshot} (h : Ring m (a :: b :: c :: d :: held)) (field : Snapshot → UInt32) :
    (m.total field).toNat =
      ((field a).toNat + (field b).toNat + (field c).toNat + (field d).toNat) % 2 ^ 32 := by
  have hcount : m.count = 4 := by
    rw [h.count]
    simp
  have ha := h.slots 0 a (by decide) rfl
  have hb := h.slots 1 b (by decide) rfl
  have hc := h.slots 2 c (by decide) rfl
  have hd := h.slots 3 d (by decide) rfl
  have htotal : (m.total field).toNat = ((field (m.window (slot 0))).toNat + (field (m.window (slot 1))).toNat +
      (field (m.window (slot 2))).toNat + (field (m.window (slot 3))).toNat) % 2 ^ 32 := by
    have hrange : m.total field = 0 + field (m.window (slot 0)) + field (m.window (slot 1)) +
        field (m.window (slot 2)) + field (m.window (slot 3)) := by
      rw [HealthMonitor.total, hcount]
      rfl
    rw [hrange, UInt32.zero_add]
    simp only [UInt32.toNat_add]
    omega
  simp only [List.length_cons] at ha hb hc hd
  have hsum := sum_around (g := fun i => (field (m.window (slot i))).toNat)
    (fun i => by rw [slot_eq_iff.2 (Nat.add_mod_right i 4)]) held.length
  have hgd : m.window (slot held.length) = d := hd
  have hgc : m.window (slot (held.length + 1)) = c := hc
  have hgb : m.window (slot (held.length + 2)) = b := hb
  have hga : m.window (slot (held.length + 3)) = a := ha
  simp only [hga, hgb, hgc, hgd] at hsum
  rw [htotal, ← hsum]
  omega

/-! ## The counts -/

/-- How a snapshot records the class of its tick. -/
def code : Option Bool → ℤ
  | none => -1
  | some false => 0
  | some true => 1

/-- What the source keeps of the ticks, the newest first. -/
def snapshots : List Tick → List Snapshot
  | [] => []
  | x :: older => ⟨x.responses, x.timeouts, code (x.judge older)⟩ :: snapshots older

lemma length_snapshots (ticks : List Tick) : (snapshots ticks).length = ticks.length := by
  induction ticks with
  | nil => rfl
  | cons x older ih => rw [snapshots, List.length_cons, List.length_cons, ih]

lemma length_classes (ticks : List Tick) : (classes ticks).length = ticks.length := by
  induction ticks with
  | nil => rfl
  | cons x older ih => rw [classes, List.length_cons, List.length_cons, ih]

lemma exists_four {ticks : List Tick} (h : 4 ≤ ticks.length) :
    ∃ x₀ x₁ x₂ x₃ older, ticks = x₀ :: x₁ :: x₂ :: x₃ :: older := by
  match ticks, h with
  | x₀ :: x₁ :: x₂ :: x₃ :: older, _ => exact ⟨x₀, x₁, x₂, x₃, older, rfl⟩

variable {ticks : List Tick}

lemma evict_of_full {j : Option Bool} (hfull : m.count = 4)
    (holdest : (m.window (slot ((m.head + 1) % 4).toNat)).degraded = code j) :
    m.evict = { m with
      head := (m.head + 1) % 4
      degradedTicks := m.degradedTicks - if j = some true then 1 else 0
      healthyTicks := m.healthyTicks - if j = some false then 1 else 0 } := by
  have hevict : m.evict = if code j = 1 then
      { m with head := (m.head + 1) % 4, degradedTicks := m.degradedTicks - 1 }
    else if code j = 0 then { m with head := (m.head + 1) % 4, healthyTicks := m.healthyTicks - 1 }
    else { m with head := (m.head + 1) % 4 } := by
    rw [← holdest]
    exact if_pos hfull
  rw [hevict]
  cases j with
  | none => simp [code]
  | some c =>
    cases c with
    | true => simp [code]
    | false => simp [code]

/-- **The oldest observation leaves the counts.** -/
lemma evict_spec (hring : Ring m (snapshots ticks)) (hmatches : Matches m ticks) :
    m.evict.count = min (m.count + 1) 4 ∧ m.evict.head = (m.head + 1) % 4 ∧ m.evict.window = m.window ∧
      m.evict.state = m.state ∧ m.evict.degradedTicks = ((classes ticks).take 3).count (some true) ∧
        m.evict.healthyTicks = ((classes ticks).take 3).count (some false) := by
  obtain ⟨hdegraded, hhealthy, -⟩ := hmatches
  have hcount := hring.count
  rw [length_snapshots] at hcount
  by_cases hfull : m.count = 4
  · obtain ⟨x₀, x₁, x₂, x₃, older, rfl⟩ := exists_four (by omega : 4 ≤ ticks.length)
    have holdest : (m.window (slot ((m.head + 1) % 4).toNat)).degraded = code (x₃.judge older) := by
      have hslot : slot (snapshots (x₀ :: x₁ :: x₂ :: x₃ :: older)).length =
          slot ((snapshots (x₀ :: x₁ :: x₂ :: x₃ :: older)).length - 1 - 3) := by
        rw [slot_eq_iff]
        simp only [length_snapshots, List.length_cons]
        omega
      rw [hring.slot_next, hslot, hring.slots 3 _ (by decide) rfl]
    have hclasses : classes (x₀ :: x₁ :: x₂ :: x₃ :: older) = x₀.judge (x₁ :: x₂ :: x₃ :: older) ::
        x₁.judge (x₂ :: x₃ :: older) :: x₂.judge (x₃ :: older) :: x₃.judge older :: classes older := rfl
    have hcount4 (c : Option Bool) : ((classes (x₀ :: x₁ :: x₂ :: x₃ :: older)).take 4).count c =
        ((classes (x₀ :: x₁ :: x₂ :: x₃ :: older)).take 3).count c + if x₃.judge older = c then 1 else 0 := by
      simp only [hclasses, List.take_succ_cons, List.take_zero, List.count_cons, List.count_nil, beq_iff_eq]
      omega
    rw [hcount4] at hdegraded hhealthy
    rw [evict_of_full hfull holdest]
    refine ⟨by show m.count = _; omega, rfl, rfl, rfl, ?_, ?_⟩
    · show m.degradedTicks - _ = _
      rw [hdegraded]
      push_cast
      omega
    · show m.healthyTicks - _ = _
      rw [hhealthy]
      push_cast
      omega
  · have hevict : m.evict = { m with head := (m.head + 1) % 4, count := m.count + 1 } := if_neg hfull
    have hshort : (classes ticks).length ≤ 3 := by
      rw [length_classes]
      omega
    rw [List.take_of_length_le (by omega)] at hdegraded hhealthy
    rw [hevict, List.take_of_length_le hshort]
    exact ⟨by show m.count + 1 = _; omega, rfl, rfl, rfl, hdegraded, hhealthy⟩

/-! ## The classification -/

/-- **A tick is degraded** when its rate is, if the count of its responses and timeouts fits. -/
lemma tickDegraded_eq (x : Tick) (hfits : x.activity < 2 ^ 32) :
    HealthMonitor.tickDegraded x.responses x.timeouts = decide x.Degraded := by
  have hactivity : (x.responses + x.timeouts).toNat = x.activity := by
    rw [UInt32.toNat_add]
    exact Nat.mod_eq_of_lt hfits
  rw [HealthMonitor.tickDegraded, ← Bool.decide_and, decide_eq_decide, UInt32.lt_iff_toNat_lt, hactivity]
  by_cases hzero : x.activity = 0
  · refine iff_of_false (fun h => absurd h.1 (by rw [hzero]; decide)) fun h => ?_
    rw [Tick.Degraded, hzero] at h
    norm_num at h
  · have hne : x.responses + x.timeouts ≠ 0 := by
      intro heq
      rw [heq] at hactivity
      exact hzero hactivity.symm
    have hpos : (0 : ℚ) < x.activity := by exact_mod_cast Nat.pos_of_ne_zero hzero
    rw [Double.half_lt_div_iff _ _ hne, hactivity, Tick.Degraded, lt_div_iff₀ hpos]
    constructor
    · rintro ⟨-, hlt⟩
      have hcast : (x.activity : ℚ) < 2 * x.timeouts.toNat := by exact_mod_cast hlt
      linarith
    · intro hlt
      have hcast : (x.activity : ℚ) < 2 * x.timeouts.toNat := by linarith
      exact ⟨Nat.pos_of_ne_zero hzero, by exact_mod_cast hcast⟩

lemma classify_spec {newResponses newTimeouts : UInt32}
    (h : Ring m (⟨newResponses, newTimeouts, -1⟩ :: held)) :
    Ring (m.classify newResponses newTimeouts)
        (⟨newResponses, newTimeouts, code (some (HealthMonitor.tickDegraded newResponses newTimeouts))⟩ :: held) ∧
      (m.classify newResponses newTimeouts).state = m.state ∧
      (m.classify newResponses newTimeouts).degradedTicks =
        m.degradedTicks + (if HealthMonitor.tickDegraded newResponses newTimeouts = true then 1 else 0) ∧
      (m.classify newResponses newTimeouts).healthyTicks =
        m.healthyTicks + (if HealthMonitor.tickDegraded newResponses newTimeouts = false then 1 else 0) := by
  have hnewest : m.window (slot m.head.toNat) = ⟨newResponses, newTimeouts, -1⟩ := by
    rw [h.slot_head (Nat.succ_pos _)]
    exact h.slots 0 _ (by decide) rfl
  have hwritten (d : ℤ) : Ring (m.write { m.window (slot m.head.toNat) with degraded := d })
      (⟨newResponses, newTimeouts, d⟩ :: held) := by
    rw [hnewest]
    exact h.write
  rw [HealthMonitor.classify]
  cases HealthMonitor.tickDegraded newResponses newTimeouts with
  | true =>
    have hring := hwritten 1
    exact ⟨⟨hring.count, hring.head, hring.inside, hring.slots⟩, rfl, rfl, (Int.add_zero _).symm⟩
  | false =>
    have hring := hwritten 0
    exact ⟨⟨hring.count, hring.head, hring.inside, hring.slots⟩, rfl, (Int.add_zero _).symm, rfl⟩

/-- **The totals of the window**, if they fit. -/
lemma totals_spec {s : Snapshot} {x x₁ x₂ x₃ : Tick} {older : List Tick}
    (h : Ring m (s :: snapshots (x₁ :: x₂ :: x₃ :: older))) (hresponses : s.responses = x.responses)
    (htimeouts : s.timeouts = x.timeouts) (hfits : windowTotal (x :: x₁ :: x₂ :: x₃ :: older) < 2 ^ 32) :
    m.totalResponses.toNat =
        x.responses.toNat + x₁.responses.toNat + x₂.responses.toNat + x₃.responses.toNat ∧
      (m.totalResponses + m.totalTimeouts).toNat = windowTotal (x :: x₁ :: x₂ :: x₃ :: older) := by
  have hwindow : windowTotal (x :: x₁ :: x₂ :: x₃ :: older) =
      x.activity + (x₁.activity + (x₂.activity + (x₃.activity + 0))) := by
    simp [windowTotal]
  have hr : m.totalResponses.toNat = (s.responses.toNat + x₁.responses.toNat + x₂.responses.toNat +
      x₃.responses.toNat) % 2 ^ 32 := h.total Snapshot.responses
  have ht : m.totalTimeouts.toNat = (s.timeouts.toNat + x₁.timeouts.toNat + x₂.timeouts.toNat +
      x₃.timeouts.toNat) % 2 ^ 32 := h.total Snapshot.timeouts
  rw [hresponses] at hr
  rw [htimeouts] at ht
  rw [hwindow] at hfits ⊢
  simp only [Tick.activity] at hfits ⊢
  have hr' : m.totalResponses.toNat =
      x.responses.toNat + x₁.responses.toNat + x₂.responses.toNat + x₃.responses.toNat :=
    hr.trans (Nat.mod_eq_of_lt (by omega))
  have ht' : m.totalTimeouts.toNat =
      x.timeouts.toNat + x₁.timeouts.toNat + x₂.timeouts.toNat + x₃.timeouts.toNat :=
    ht.trans (Nat.mod_eq_of_lt (by omega))
  refine ⟨hr', ?_⟩
  rw [UInt32.toNat_add, hr', ht']
  omega

lemma skips_eq {s : Snapshot} {x : Tick} (h : Ring m (s :: snapshots ticks)) (hresponses : s.responses = x.responses)
    (htimeouts : s.timeouts = x.timeouts) (hfits : windowTotal (x :: ticks) < 2 ^ 32) :
    (m.isCold || m.isIdle) = !decide (Evaluated (x :: ticks)) := by
  have hcount := h.count
  rw [List.length_cons, length_snapshots] at hcount
  by_cases hwarm : 4 ≤ (x :: ticks).length
  · obtain ⟨x₀, x₁, x₂, x₃, older, heq⟩ := exists_four hwarm
    obtain ⟨rfl, rfl⟩ := List.cons.inj heq
    have htotal := (totals_spec h hresponses htimeouts hfits).2
    have hcold : m.isCold = false := by
      simp only [List.length_cons] at hcount
      rw [HealthMonitor.isCold, decide_eq_false_iff_not]
      show ¬ m.count < 4
      omega
    rw [hcold, Bool.false_or, HealthMonitor.isIdle, ← decide_not, decide_eq_decide, UInt32.lt_iff_toNat_lt, htotal,
      Evaluated, and_iff_right hwarm, Nat.not_le]
    exact Iff.rfl
  · have hcold : m.isCold = true := by
      rw [HealthMonitor.isCold, decide_eq_true_iff]
      show m.count < 4
      rw [List.length_cons] at hwarm
      omega
    have hnot : ¬ Evaluated (x :: ticks) := fun heval => hwarm heval.1
    rw [hcold, decide_eq_false hnot]
    rfl

/-! ## The step -/

lemma count_eq_four_iff {cs : List (Option Bool)} (h : cs.length = 4) (c : Option Bool) :
    (cs.count c : ℤ) = 4 ↔ ∀ d ∈ cs, d = c := by
  have hlength := List.count_eq_length (a := c) (l := cs)
  rw [h] at hlength
  have hcast : (cs.count c : ℤ) = 4 ↔ cs.count c = 4 := by omega
  rw [hcast, hlength]
  exact forall₂_congr fun d _ => eq_comm

lemma transition_eq (m : HealthMonitor) : m.transition = { m with state := m.transition.state } := by
  rw [HealthMonitor.transition]
  split
  · rfl
  · split
    · rfl
    · split
      · rfl
      · rfl

/-- **The state transitions**, as the reference makes them. -/
lemma transition_state {x x₁ x₂ x₃ : Tick} {older : List Tick}
    (htotal : m.totalResponses.toNat =
      x.responses.toNat + x₁.responses.toNat + x₂.responses.toNat + x₃.responses.toNat)
    (hdegraded : m.degradedTicks = ((classes (x :: x₁ :: x₂ :: x₃ :: older)).take 4).count (some true))
    (hhealthy : m.healthyTicks = ((classes (x :: x₁ :: x₂ :: x₃ :: older)).take 4).count (some false))
    (hstate : m.state = referenceState (x₁ :: x₂ :: x₃ :: older))
    (heval : Evaluated (x :: x₁ :: x₂ :: x₃ :: older)) :
    m.transition.state = referenceState (x :: x₁ :: x₂ :: x₃ :: older) := by
  have hlength : ((classes (x :: x₁ :: x₂ :: x₃ :: older)).take 4).length = 4 := rfl
  have hsilent : (∀ y ∈ (x :: x₁ :: x₂ :: x₃ :: older).take 4, y.responses = 0) ↔ ¬ 0 < m.totalResponses := by
    have hzero (y : Tick) : y.responses = 0 ↔ y.responses.toNat = 0 :=
      ⟨fun h => by rw [h]; rfl, fun h => UInt32.toNat.inj h⟩
    rw [UInt32.lt_iff_toNat_lt, htotal]
    simp only [List.take_succ_cons, List.take_zero, List.forall_mem_cons, List.not_mem_nil, false_imp_iff,
      implies_true, and_true, hzero]
    show _ ↔ ¬ 0 < _
    omega
  have hall : m.allDegraded = true ↔ ∀ c ∈ (classes (x :: x₁ :: x₂ :: x₃ :: older)).take 4, c = some true := by
    rw [← count_eq_four_iff hlength, ← hdegraded, HealthMonitor.allDegraded, decide_eq_true_iff]
    exact Iff.rfl
  have hnone : m.allHealthy = true ↔ ∀ c ∈ (classes (x :: x₁ :: x₂ :: x₃ :: older)).take 4, c = some false := by
    rw [← count_eq_four_iff hlength, ← hhealthy, HealthMonitor.allHealthy, decide_eq_true_iff]
    exact Iff.rfl
  rw [referenceState, if_pos heval, HealthMonitor.transition]
  simp only [hsilent, ← hall, ← hnone, ← hstate]
  by_cases hresponses : 0 < m.totalResponses
  · rw [if_neg (not_not_intro hresponses)]
    cases m.allDegraded with
    | true => simp [hresponses]
    | false =>
      cases m.allHealthy with
      | true => simp [hresponses]
      | false => simp [hresponses]
  · rw [if_pos hresponses]
    simp [hresponses]

/-- What the monitor keeps of the history. -/
structure Sound (m : HealthMonitor) (ticks : List Tick) : Prop where
  ring : Ring m (snapshots ticks)
  counts : Matches m ticks

/-- **An update** keeps the monitor in step with the reference. -/
lemma Sound.update (h : Sound m ticks) (x : Tick) (hfits : windowTotal (x :: ticks) < 2 ^ 32) :
    Sound (m.update x.responses x.timeouts) (x :: ticks) := by
  obtain ⟨hcount, hhead, hwindow, hstate, hdegraded, hhealthy⟩ := evict_spec h.ring h.counts
  have hring : Ring (m.evict.write ⟨x.responses, x.timeouts, -1⟩)
      (⟨x.responses, x.timeouts, -1⟩ :: snapshots ticks) := by
    refine h.ring.push hcount hhead ?_
    rw [HealthMonitor.write, hwindow]
  have hskips := skips_eq hring rfl rfl hfits
  have htake (c : Option Bool) : ((classes (x :: ticks)).take 4).count c =
      ((classes ticks).take 3).count c + if x.judge ticks = c then 1 else 0 := by
    rw [classes, List.take_succ_cons, List.count_cons]
    simp only [beq_iff_eq]
  by_cases heval : Evaluated (x :: ticks)
  · obtain ⟨x₀, x₁, x₂, x₃, older, heq⟩ := exists_four heval.1
    obtain ⟨rfl, rfl⟩ := List.cons.inj heq
    have hx : x.activity < 2 ^ 32 := by
      refine Nat.lt_of_le_of_lt ?_ hfits
      simp [windowTotal]
    have hjudge : x.judge (x₁ :: x₂ :: x₃ :: older) =
        some (HealthMonitor.tickDegraded x.responses x.timeouts) := by
      rw [Tick.judge, if_pos heval, tickDegraded_eq x hx]
    have hupdate : m.update x.responses x.timeouts =
        ((m.evict.write ⟨x.responses, x.timeouts, -1⟩).classify x.responses x.timeouts).transition := by
      rw [HealthMonitor.update, hskips, decide_eq_true heval]
      rfl
    obtain ⟨hclassified, hstate', hdegraded', hhealthy'⟩ := classify_spec hring
    generalize (m.evict.write ⟨x.responses, x.timeouts, -1⟩).classify x.responses x.timeouts = m' at *
    have hcount₁ : m'.degradedTicks =
        ((classes (x :: x₁ :: x₂ :: x₃ :: older)).take 4).count (some true) := by
      rw [htake, hjudge, hdegraded']
      cases HealthMonitor.tickDegraded x.responses x.timeouts with
      | true => exact congrArg (· + 1) hdegraded
      | false => exact congrArg (· + 0) hdegraded
    have hcount₂ : m'.healthyTicks =
        ((classes (x :: x₁ :: x₂ :: x₃ :: older)).take 4).count (some false) := by
      rw [htake, hjudge, hhealthy']
      cases HealthMonitor.tickDegraded x.responses x.timeouts with
      | true => exact congrArg (· + 0) hhealthy
      | false => exact congrArg (· + 1) hhealthy
    have htotal := (totals_spec hclassified rfl rfl hfits).1
    have hnext := transition_state htotal hcount₁ hcount₂ (hstate'.trans (hstate.trans h.counts.state)) heval
    rw [hupdate]
    refine ⟨?_, ?_, ?_, hnext⟩
    · rw [snapshots, hjudge, transition_eq]
      exact ⟨hclassified.count, hclassified.head, hclassified.inside, hclassified.slots⟩
    · rw [transition_eq]
      exact hcount₁
    · rw [transition_eq]
      exact hcount₂
  · have hjudge : x.judge ticks = none := if_neg heval
    have hupdate : m.update x.responses x.timeouts = m.evict.write ⟨x.responses, x.timeouts, -1⟩ := by
      rw [HealthMonitor.update, hskips, decide_eq_false heval]
      rfl
    rw [hupdate]
    refine ⟨?_, ?_, ?_, ?_⟩
    · rw [snapshots, hjudge]
      exact hring
    · rw [htake, hjudge]
      exact hdegraded
    · rw [htake, hjudge]
      exact hhealthy
    · rw [referenceState, if_neg heval, ← h.counts.state]
      exact hstate

lemma sound_init : Sound {} [] :=
  ⟨⟨rfl, rfl, fun h => absurd h (Nat.lt_irrefl 0), fun i s _ hs => by simp [snapshots] at hs⟩, rfl, rfl, rfl⟩

/-- **The monitor equals the reference** after every run whose windows carry fewer than `2 ^ 32` responses and
timeouts. -/
theorem matches_run (inputs : List HealthInput)
    (hfits : ∀ before, before <+: inputs → windowTotal (history before) < 2 ^ 32) :
    Matches (run healthStep {} inputs) (history inputs) := by
  have hsound : Sound (run healthStep {} inputs) (history inputs) := by
    induction inputs using List.reverseRecOn with
    | nil => exact sound_init
    | append_singleton inputs i ih =>
      have hbefore := ih fun before hbegins => hfits before (hbegins.trans (List.prefix_append _ _))
      have hlast := hfits (inputs ++ [i]) (List.prefix_refl _)
      rw [history, List.foldl_append] at hlast ⊢
      rw [run_append]
      cases i with
      | update newResponses newTimeouts => exact hbefore.update ⟨newResponses, newTimeouts⟩ hlast
      | reset => exact sound_init
  exact hsound.counts

def sevenTicks : List HealthInput := List.replicate 7 (.update 1 3)

/-- After seven degraded ticks the last four were evaluated, and the monitor is degraded. -/
theorem matches_sevenTicks :
    (run healthStep {} sevenTicks).degradedTicks = 4 ∧ (run healthStep {} sevenTicks).state = .degraded := by
  have hfits : ∀ before ∈ sevenTicks.inits, windowTotal (history before) < 2 ^ 32 := by decide
  have hmatches := matches_run sevenTicks fun before hbegins => hfits before ((List.mem_inits _ _).2 hbegins)
  exact ⟨hmatches.degradedTicks.trans (by decide +kernel), hmatches.state.trans (by decide +kernel)⟩

end HyperDHT.Health
