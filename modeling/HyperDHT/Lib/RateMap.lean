import Mathlib.Data.List.Basic

/-!
# A bounded map of last times

A limiter lets each key pass once in a window of time. It keeps, for each key, the time at which the
key last passed, in a map that is cleared when it grows over its capacity.

## Main definitions

* `RateMap.limited` — the key passed less than a window ago, as far as the map knows.
* `RateMap.note` — the key passes now.
* `RateMap.Between` — all the map knows of a key lies in an interval of time.

## Main results

* `RateMap.between_note_self`, `RateMap.Between.note` — what noting a key does to such an interval.
* `RateMap.limited_of_between` — a key of which the map knows a recent time is limited.
-/

set_option autoImplicit false

namespace RateMap

variable {κ : Type*} [DecidableEq κ]

/-- The key passed less than `window` ago. -/
def limited (window : UInt64) (m : List (κ × UInt64)) (now : UInt64) (key : κ) : Bool :=
  match m.lookup key with
  | none => false
  | some last => now - last < window

/-- The key passes; a map that grew over its capacity is cleared. -/
def note (capacity : ℕ) (m : List (κ × UInt64)) (now : UInt64) (key : κ) : List (κ × UInt64) :=
  let m' := (key, now) :: m.filter (·.1 ≠ key)
  if m'.length > capacity then [] else m'

/-- What the map knows of the key lies between two times. -/
def Between (earliest latest : UInt64) (m : List (κ × UInt64)) (key : κ) : Prop :=
  ∀ last, m.lookup key = some last → earliest ≤ last ∧ last ≤ latest

variable {capacity : ℕ} {window earliest latest now : UInt64} {m : List (κ × UInt64)} {key other : κ}

lemma lookup_filter_ne (h : other ≠ key) (m : List (κ × UInt64)) :
    (m.filter (·.1 ≠ key)).lookup other = m.lookup other := by
  induction m with
  | nil => rfl
  | cons entry m ih =>
    obtain ⟨k, last⟩ := entry
    by_cases hk : k = key
    · have hother : (other == k) = false := beq_eq_false_iff_ne.2 (hk ▸ h)
      rw [List.filter_cons_of_neg (by simpa using hk), List.lookup_cons, hother]
      exact ih
    · rw [List.filter_cons_of_pos (by simpa using hk), List.lookup_cons, List.lookup_cons, ih]

lemma lookup_note_ne (h : other ≠ key) :
    note capacity m now key = [] ∨ (note capacity m now key).lookup other = m.lookup other := by
  unfold note
  dsimp only
  split
  · exact .inl rfl
  · refine .inr ?_
    rw [List.lookup_cons, beq_eq_false_iff_ne.2 h]
    exact lookup_filter_ne h m

lemma between_note_self : Between now now (note capacity m now key) key := by
  intro last hlast
  unfold note at hlast
  dsimp only at hlast
  split at hlast
  · simp at hlast
  · rw [List.lookup_cons_self] at hlast
    obtain rfl := Option.some.inj hlast
    exact ⟨UInt64.le_refl _, UInt64.le_refl _⟩

lemma Between.mono {earliest' latest' : UInt64} (h : Between earliest latest m key)
    (hearliest : earliest' ≤ earliest) (hlatest : latest ≤ latest') :
    Between earliest' latest' m key := fun last hlast =>
  ⟨UInt64.le_trans hearliest (h last hlast).1, UInt64.le_trans (h last hlast).2 hlatest⟩

lemma Between.note (h : Between earliest latest m key) (hearliest : earliest ≤ now)
    (hlatest : now ≤ latest) : Between earliest latest (note capacity m now other) key := by
  by_cases hkey : key = other
  · subst hkey
    exact between_note_self.mono hearliest hlatest
  · rcases lookup_note_ne hkey with hclear | hsame
    · intro last hlast
      rw [hclear] at hlast
      simp at hlast
    · intro last hlast
      exact h last (hsame ▸ hlast)

lemma limited_of_between (h : Between earliest now m key) (hknown : (m.lookup key).isSome = true)
    (hwindow : now.toNat < earliest.toNat + window.toNat) : limited window m now key = true := by
  obtain ⟨last, hlast⟩ := Option.isSome_iff_exists.1 hknown
  obtain ⟨hearliest, hlatest⟩ := h last hlast
  have hle := UInt64.le_iff_toNat_le.1 hearliest
  have hle' := UInt64.le_iff_toNat_le.1 hlatest
  simp only [limited, hlast, decide_eq_true_eq]
  rw [UInt64.lt_iff_toNat_lt, UInt64.toNat_sub_of_le _ _ hlatest]
  omega

lemma limited_eq_false (h : m.lookup key = none) : limited window m now key = false := by
  simp [limited, h]

end RateMap
