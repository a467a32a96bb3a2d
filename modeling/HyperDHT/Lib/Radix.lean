import Mathlib.Data.List.Lex
import Mathlib.Data.Nat.Bitwise
import Mathlib.Data.Nat.Digits.Defs
import Mathlib.Order.Fin.Basic

/-!
# Digits and their numbers

Digits of equal number, the most significant first, are ordered as the numbers they stand for.

## Main definitions

* `Radix.value` — the number that digits stand for, the most significant first.

## Main results

* `Radix.lt_iff_value_lt` — the lexicographic order of digits is the order of their numbers.
* `Radix.value_zipWith_xor` — when the base is a power of two, the XOR of digits stands for the XOR of
  the numbers.
-/

set_option autoImplicit false

namespace Radix

variable {b : ℕ}

/-- The number that digits stand for, the most significant first. -/
def value (digits : List (Fin b)) : ℕ := Nat.ofDigits b (digits.map Fin.val).reverse

@[simp] lemma value_nil : value ([] : List (Fin b)) = 0 := rfl

lemma value_cons (d : Fin b) (digits : List (Fin b)) :
    value (d :: digits) = b ^ digits.length * d + value digits := by
  rw [value, List.map_cons, Nat.ofDigits_reverse_cons, List.length_map, Nat.add_comm]
  rfl

lemma value_lt (digits : List (Fin b)) : value digits < b ^ digits.length := by
  induction digits with
  | nil => simp
  | cons d digits ih =>
    calc value (d :: digits) = b ^ digits.length * d + value digits := value_cons d digits
      _ < b ^ digits.length * d + b ^ digits.length := by omega
      _ = b ^ digits.length * (d + 1) := (Nat.mul_succ _ _).symm
      _ ≤ b ^ digits.length * b := Nat.mul_le_mul_left _ d.isLt
      _ = b ^ (d :: digits).length := by rw [List.length_cons, Nat.pow_succ]

lemma value_cons_lt_iff {d e : Fin b} {digits others : List (Fin b)}
    (hlen : digits.length = others.length) :
    value (d :: digits) < value (e :: others) ↔ d < e ∨ d = e ∧ value digits < value others := by
  have hlow := value_lt digits
  have hlow' := value_lt others
  rw [value_cons, value_cons, ← hlen]
  rw [← hlen] at hlow'
  generalize b ^ digits.length = p at hlow hlow'
  rcases lt_trichotomy d e with hlt | rfl | hgt
  · have hmul : p * (d + 1) ≤ p * e := Nat.mul_le_mul_left _ hlt
    rw [Nat.mul_succ] at hmul
    exact iff_of_true (by omega) (Or.inl hlt)
  · simp
  · have hmul : p * (e + 1) ≤ p * d := Nat.mul_le_mul_left _ hgt
    rw [Nat.mul_succ] at hmul
    exact iff_of_false (by omega) fun h =>
      h.elim (fun hlt => lt_asymm hlt hgt) fun h => hgt.ne h.1.symm

/-- **The lexicographic order of digits is the order of their numbers.** -/
theorem lt_iff_value_lt {digits others : List (Fin b)} (hlen : digits.length = others.length) :
    digits < others ↔ value digits < value others := by
  induction digits generalizing others with
  | nil =>
    obtain rfl : others = [] := List.length_eq_zero_iff.1 hlen.symm
    simp
  | cons d digits ih =>
    cases others with
    | nil => simp at hlen
    | cons e others =>
      simp only [List.length_cons, Nat.add_right_cancel_iff] at hlen
      rw [List.cons_lt_cons_iff, value_cons_lt_iff hlen, ih hlen]

lemma two_pow_mul_add_xor (n : ℕ) {x y : ℕ} (hx : x < 2 ^ n) (hy : y < 2 ^ n) (d e : ℕ) :
    (2 ^ n * d + x) ^^^ (2 ^ n * e + y) = 2 ^ n * (d ^^^ e) + (x ^^^ y) := by
  refine Nat.eq_of_testBit_eq fun j => ?_
  rw [Nat.testBit_xor, Nat.testBit_two_pow_mul_add _ hx, Nat.testBit_two_pow_mul_add _ hy,
    Nat.testBit_two_pow_mul_add _ (Nat.xor_lt_two_pow hx hy)]
  split
  · rw [Nat.testBit_xor]
  · rw [Nat.testBit_xor]

/-- **Where the base is a power of two, the XOR of digits stands for the XOR of their numbers.** -/
theorem value_zipWith_xor {k : ℕ} (hb : b = 2 ^ k) {digits others : List (Fin b)}
    (hlen : digits.length = others.length) :
    value (List.zipWith (fun d e => d ^^^ e) digits others) = value digits ^^^ value others := by
  subst hb
  induction digits generalizing others with
  | nil =>
    obtain rfl : others = [] := List.length_eq_zero_iff.1 hlen.symm
    simp
  | cons d digits ih =>
    cases others with
    | nil => simp at hlen
    | cons e others =>
      simp only [List.length_cons, Nat.add_right_cancel_iff] at hlen
      have hlow := value_lt digits
      have hlow' := value_lt others
      rw [← hlen] at hlow'
      rw [← Nat.pow_mul] at hlow hlow'
      have hxor : ((d ^^^ e : Fin (2 ^ k)) : ℕ) = d ^^^ e := by
        rw [Fin.xor_val, Nat.mod_eq_of_lt (Nat.xor_lt_two_pow d.isLt e.isLt)]
      rw [List.zipWith_cons_cons, value_cons, value_cons, value_cons, ih hlen, hxor,
        List.length_zipWith, ← hlen, Nat.min_self, ← Nat.pow_mul, two_pow_mul_add_xor _ hlow hlow']

end Radix
