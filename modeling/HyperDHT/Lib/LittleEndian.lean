import Mathlib.Algebra.Group.Nat.Defs
import Mathlib.Tactic.Common
import Mathlib.Data.Nat.Notation

/-!
# Little-endian numbers

Fixed-width little-endian byte strings and the numbers they stand for.

## Main definitions

* `LittleEndian.toLe` — the `n` low bytes of a number, lowest first.
* `LittleEndian.ofLe` — the number a byte string stands for.

## Main results

* `LittleEndian.ofLe_toLe` — a number below `256 ^ n` is read back from its `n` bytes.
* `LittleEndian.toLe_ofLe` — bytes are the bytes of their number.
* `LittleEndian.toLe_eq_map`, `LittleEndian.or_shiftLeft` — how shifts and masks write and read the bytes.
* `LittleEndian.ofLe_lt`, `eq_zero_of_ofLe_lt`, `ofLe_lt_iff` — how large the number is, and what a small
  number says about the high bytes.
-/

set_option autoImplicit false

namespace LittleEndian

/-- The `n` low bytes of `v`, lowest first. -/
def toLe : ℕ → ℕ → List UInt8
  | 0, _ => []
  | n + 1, v => UInt8.ofNat (v % 256) :: toLe n (v / 256)

/-- The number the bytes stand for, lowest byte first. -/
def ofLe : List UInt8 → ℕ
  | [] => 0
  | b :: bs => b.toNat + 256 * ofLe bs

@[simp] lemma length_toLe (n v : ℕ) : (toLe n v).length = n := by
  induction n generalizing v with
  | zero => rfl
  | succ n ih => simp [toLe, ih]

/-- **Round trip**: a number that fits is read back from its bytes. -/
theorem ofLe_toLe {n v : ℕ} (h : v < 256 ^ n) : ofLe (toLe n v) = v := by
  induction n generalizing v with
  | zero => simp [toLe, ofLe] at h ⊢; omega
  | succ n ih =>
    have hq : v / 256 < 256 ^ n := by
      rw [Nat.pow_succ] at h
      omega
    have hb : (UInt8.ofNat (v % 256)).toNat = v % 256 := by
      rw [UInt8.toNat_ofNat']
      omega
    rw [toLe, ofLe, hb, ih hq]
    omega

/-- The other round trip: bytes are the bytes of their number. -/
theorem toLe_ofLe (bytes : List UInt8) : toLe bytes.length (ofLe bytes) = bytes := by
  induction bytes with
  | nil => rfl
  | cons b bs ih =>
    have hb : b.toNat < 256 := b.toNat_lt
    have hlow : (b.toNat + 256 * ofLe bs) % 256 = b.toNat := by omega
    have hhigh : (b.toNat + 256 * ofLe bs) / 256 = ofLe bs := by omega
    rw [ofLe, List.length_cons, toLe, hlow, hhigh, ih, UInt8.ofNat_toNat]

lemma ofLe_lt (bytes : List UInt8) : ofLe bytes < 256 ^ bytes.length := by
  induction bytes with
  | nil => simp [ofLe]
  | cons b bs ih =>
    have hb : b.toNat < 256 := b.toNat_lt
    rw [ofLe, List.length_cons, Nat.pow_succ]
    omega

lemma eq_zero_of_ofLe_lt {bytes : List UInt8} {n i : ℕ} (h : ofLe bytes < 256 ^ n) (hn : n ≤ i)
    (hi : i < bytes.length) : bytes[i] = 0 := by
  induction bytes generalizing n i with
  | nil => simp at hi
  | cons b bs ih =>
    rw [ofLe] at h
    cases n with
    | zero =>
      have hb : b.toNat = 0 := by omega
      cases i with
      | zero => exact UInt8.toNat_inj.1 hb
      | succ i => exact @ih 0 i (by simp; omega) (Nat.zero_le i) (by simpa using hi)
    | succ n =>
      obtain ⟨i, rfl⟩ : ∃ j, i = j + 1 := ⟨i - 1, by omega⟩
      rw [Nat.pow_succ] at h
      exact @ih n i (by omega) (by omega) (by simpa using hi)

lemma ofLe_lt_iff {bytes : List UInt8} {n : ℕ} :
    ofLe bytes < 256 ^ n ↔ ∀ b ∈ bytes.drop n, b = 0 := by
  induction bytes generalizing n with
  | nil =>
    have hpos : 0 < 256 ^ n := Nat.pow_pos (by decide)
    exact iff_of_true hpos (by simp)
  | cons b bs ih =>
    have hb : b.toNat < 256 := b.toNat_lt
    cases n with
    | zero =>
      have hbs := @ih 0
      rw [Nat.pow_zero, Nat.lt_one_iff, List.drop_zero] at hbs
      rw [Nat.pow_zero, Nat.lt_one_iff, ofLe, List.drop_zero, List.forall_mem_cons, ← hbs, ← UInt8.toNat_inj]
      have hzero : (0 : UInt8).toNat = 0 := rfl
      omega
    | succ n =>
      rw [ofLe, List.drop_succ_cons, ← ih, Nat.pow_succ]
      omega

lemma toLe_eq_map (n v : ℕ) : toLe n v = (List.range n).map fun i => UInt8.ofNat (v / 256 ^ i % 256) := by
  induction n generalizing v with
  | zero => rfl
  | succ n ih =>
    rw [toLe, ih, List.range_succ_eq_map, List.map_cons, List.map_map, Nat.pow_zero, Nat.div_one]
    refine congrArg _ (List.map_congr_left fun i _ => ?_)
    rw [Function.comp_apply, Nat.pow_succ', Nat.div_div_eq_div_mul]

lemma ofLe_append (bytes more : List UInt8) :
    ofLe (bytes ++ more) = ofLe bytes + 256 ^ bytes.length * ofLe more := by
  induction bytes with
  | nil => simp [ofLe]
  | cons b bs ih =>
    rw [List.cons_append, ofLe, ih, ofLe, List.length_cons, Nat.pow_succ', Nat.mul_assoc]
    omega

lemma or_shiftLeft {a i : ℕ} (h : a < 2 ^ i) (b : ℕ) : a ||| b <<< i = a + 2 ^ i * b := by
  rw [Nat.shiftLeft_eq, Nat.or_comm, Nat.mul_comm, ← Nat.two_pow_add_eq_or_of_lt h, Nat.add_comm]

end LittleEndian
