import Mathlib.Data.List.Nodup
import Mathlib.Data.Nat.ModEq

/-!
# A counter that wraps around

A counter modulo `m` that starts anywhere and counts up. Until it is where it started it has no value
twice, and it is there after `m` steps.

## Main definitions

* `WrapCounter.values` — the values of the counter after each of its first steps.

## Main results

* `WrapCounter.nodup_values` — the values of `m` steps differ from each other.
* `WrapCounter.wraps_iff` — the counter is where it started after `m` steps, and not before.
-/

set_option autoImplicit false

namespace WrapCounter

variable (m c : ℕ)

/-- The values of a counter that starts at `c`, after each of its first `n` steps. -/
def values (n : ℕ) : List ℕ := (List.range n).map fun i => (c + (i + 1)) % m

lemma values_succ (n : ℕ) : values m c (n + 1) = values m c n ++ [(c + (n + 1)) % m] := by
  rw [values, List.range_succ, List.map_append]
  rfl

variable {m}

/-- **No value comes twice** in `m` steps. -/
theorem nodup_values {n : ℕ} (h : n ≤ m) : (values m c n).Nodup := by
  refine List.Nodup.map_on (fun i hi j hj heq => ?_) List.nodup_range
  have hi := List.mem_range.1 hi
  have hj := List.mem_range.1 hj
  have hsucc : i + 1 ≡ j + 1 [MOD m] := Nat.ModEq.add_left_cancel' c heq
  exact Nat.ModEq.eq_of_lt_of_lt (Nat.ModEq.add_right_cancel' 1 hsucc) (by omega) (by omega)

variable {c}

/-- **The counter is where it started** after `m` steps, and not before. -/
theorem wraps_iff {n : ℕ} (h : n < m) : (c + (n + 1)) % m = c % m ↔ n + 1 = m := by
  constructor
  · intro heq
    have hzero : n + 1 ≡ 0 [MOD m] := Nat.ModEq.add_left_cancel' c heq
    exact le_antisymm h (Nat.le_of_dvd n.succ_pos ((Nat.modEq_zero_iff_dvd).1 hzero))
  · rintro rfl
    exact Nat.add_mod_right c (n + 1)

end WrapCounter
