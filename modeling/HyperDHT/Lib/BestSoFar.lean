import Mathlib.Order.BoundedOrder.Basic
import Mathlib.Order.Lattice
import Mathlib.Tactic.Common

/-!
# The best so far

A scan that keeps the element with the highest score it has met. An element takes the place of the
one that is kept only if its score is higher, one with the least score is never kept, and an element
whose score reaches a cap ends the scan. When no score exceeds the cap, what the scan returns has the
highest score of the whole list, whatever the order of the list.

## Main definitions

* `BestSoFar.better` — an element is compared with the best so far.
* `BestSoFar.scanTo` — the scan, which an element that reaches the cap ends.
* `BestSoFar.IsBest` — a result is the best of a list.

## Main results

* `BestSoFar.IsBest.better` — a comparison extends the list by one element.
* `BestSoFar.IsBest.scanTo` — so the scan returns the best of everything that was scanned.
* `BestSoFar.IsBest.eq_none_iff` — nothing is returned when every score is the least one, and only then.
-/

set_option autoImplicit false

namespace BestSoFar

variable {α κ : Type*} [LinearOrder κ] [OrderBot κ] (score : α → κ)

/-- The score of the best so far, the least one while there is none. -/
def bestScore (best : Option α) : κ := best.elim ⊥ score

/-- An element replaces the best so far if its score is higher. -/
def better (best : Option α) (a : α) : Option α :=
  if bestScore score best < score a then some a else best

/-- The scan. An element whose score reaches the cap is returned at once. -/
def scanTo (cap : κ) : List α → Option α → Option α
  | [], best => best
  | a :: l, best => if cap ≤ score a then some a else scanTo cap l (better score best a)

/-- The result is the best of a list: an element of it whose score is above the least one, and no
other score is higher. -/
structure IsBest (l : List α) (result : Option α) : Prop where
  mem : ∀ a ∈ result, a ∈ l
  above : ∀ a ∈ result, ⊥ < score a
  le : ∀ a ∈ l, score a ≤ bestScore score result

variable {score}

@[simp] lemma bestScore_none : bestScore score none = ⊥ := rfl

@[simp] lemma bestScore_some (a : α) : bestScore score (some a) = score a := rfl

lemma isBest_nil : IsBest score [] none := ⟨by simp, by simp, by simp⟩

lemma IsBest.better {l : List α} {best : Option α} (h : IsBest score l best) (a : α) :
    IsBest score (l ++ [a]) (BestSoFar.better score best a) := by
  rw [BestSoFar.better]
  split
  case isTrue hlt =>
    refine ⟨?_, ?_, ?_⟩
    · rintro b ⟨⟩
      exact List.mem_append_right _ List.mem_cons_self
    · rintro b ⟨⟩
      exact lt_of_le_of_lt bot_le hlt
    · intro b hb
      rcases List.mem_append.1 hb with hb | hb
      · exact (h.le b hb).trans hlt.le
      · rw [List.mem_singleton.1 hb, bestScore_some]
  case isFalse hle =>
    refine ⟨fun b hb => List.mem_append_left _ (h.mem b hb), h.above, ?_⟩
    intro b hb
    rcases List.mem_append.1 hb with hb | hb
    · exact h.le b hb
    · rw [List.mem_singleton.1 hb]
      exact not_lt.1 hle

lemma isBest_of_cap {cap : κ} {l : List α} {a : α} (hcap : ∀ b ∈ l, score b ≤ cap) (hbot : ⊥ < cap)
    (ha : a ∈ l) (hge : cap ≤ score a) : IsBest score l (some a) := by
  refine ⟨?_, ?_, ?_⟩
  · rintro b ⟨⟩
    exact ha
  · rintro b ⟨⟩
    exact lt_of_lt_of_le hbot hge
  · intro b hb
    exact (hcap b hb).trans hge

/-- **The scan returns the best of what was scanned before and of the list it scans.** -/
theorem IsBest.scanTo {cap : κ} (hcap : ∀ a, score a ≤ cap) (hbot : ⊥ < cap) (l : List α) :
    ∀ {seen : List α} {best : Option α}, IsBest score seen best →
      IsBest score (seen ++ l) (BestSoFar.scanTo score cap l best) := by
  induction l with
  | nil =>
    intro seen best h
    rwa [List.append_nil]
  | cons a l ih =>
    intro seen best h
    rw [BestSoFar.scanTo]
    split
    case isTrue hge =>
      exact isBest_of_cap (fun b _ => hcap b) hbot
        (List.mem_append_right _ List.mem_cons_self) hge
    case isFalse =>
      rw [List.append_cons]
      exact ih (h.better a)

lemma IsBest.eq_none_iff {l : List α} {result : Option α} (h : IsBest score l result) :
    result = none ↔ ∀ a ∈ l, score a = ⊥ := by
  constructor
  · rintro rfl a ha
    exact le_bot_iff.1 (h.le a ha)
  · intro hall
    cases result with
    | none => rfl
    | some a => exact absurd (hall a (h.mem a rfl)) (h.above a rfl).ne'

end BestSoFar
