import HyperDHT.Lib.Radix
import HyperDHT.Routing.NodeId

/-!
# The XOR metric

An id is a 256-bit number, and the distance of an id from a target is the XOR of the two numbers.
`compare_distance` and `bucket_index` (`routing_table.cpp`) are two loops over the bytes of ids; the
first one compares distances as numbers, and the second one agrees with it: an id in a higher bucket
is nearer.

## Main definitions

* `Routing.NodeId.toNat`, `Routing.distance` — an id as a number, and the distance of an id.
* `Routing.XorMetric` — the laws of the two functions.

## Main results

* `Routing.NodeId.lt_iff_toNat_lt`, `Routing.toNat_xor` — ids are ordered as numbers, and the XOR of
  ids is that of the numbers.
* `Routing.compareDistance_eq_sign` — the comparison is that of the distances.
* `Routing.compareDistance_neg_of_bucketIndex_lt` — an id in a higher bucket is nearer.
* `Routing.xorMetric` — all laws together.
-/

set_option autoImplicit false

namespace HyperDHT.Routing

/-! ## Ids as numbers -/

/-- An id as a number, its first byte the most significant one. -/
def NodeId.toNat (id : NodeId) : ℕ := Radix.value id.digits

/-- The distance of an id from a target. -/
def distance (target id : NodeId) : ℕ := target.toNat ^^^ id.toNat

lemma NodeId.length_digits (id : NodeId) : id.digits.length = 32 := by simp [digits]

lemma NodeId.lt_iff_toNat_lt (a b : NodeId) : a < b ↔ a.toNat < b.toNat :=
  Radix.lt_iff_value_lt (a.length_digits.trans b.length_digits.symm)

lemma toNat_xor (a b : NodeId) : (a.xor b).toNat = a.toNat ^^^ b.toNat := by
  have hdigits : (a.xor b).digits = List.zipWith (fun d e => d ^^^ e) a.digits b.digits := by
    obtain ⟨⟨as, ha⟩⟩ := a
    obtain ⟨⟨bs, hb⟩⟩ := b
    change (List.zipWith (fun x y => x ^^^ y) as bs).map UInt8.toFin =
      List.zipWith (fun d e => d ^^^ e) (as.map UInt8.toFin) (bs.map UInt8.toFin)
    rw [List.map_zipWith, List.zipWith_map]
    simp only [UInt8.toFin_xor]
  rw [NodeId.toNat, hdigits]
  exact Radix.value_zipWith_xor (k := 8) rfl (a.length_digits.trans b.length_digits.symm)

lemma xor_lt_xor_iff (target a b : NodeId) :
    target.xor a < target.xor b ↔ distance target a < distance target b := by
  rw [NodeId.lt_iff_toNat_lt, toNat_xor, toNat_xor]
  rfl

/-! ## The comparison -/

/-- **The comparison is that of the distances as numbers.** -/
theorem compareDistance_eq_sign (target a b : NodeId) :
    compareDistance target a b = Int.sign (distance target a - distance target b) := by
  rcases compareDistance_cases target a b with ⟨h, hd⟩ | ⟨h, hd⟩ | ⟨h, hd⟩
  · rw [xor_lt_xor_iff] at hd
    rw [h, Int.sign_eq_neg_one_of_neg (by omega)]
  · rw [xor_lt_xor_iff] at hd
    rw [h, Int.sign_eq_one_of_pos (by omega)]
  · rw [xor_injective target hd] at h ⊢
    rw [h, Int.sub_self, Int.sign_zero]

lemma compareDistance_neg_iff_distance_lt (target a b : NodeId) :
    compareDistance target a b < 0 ↔ distance target a < distance target b :=
  (compareDistance_neg_iff target a b).trans (xor_lt_xor_iff target a b)

/-! ## The bucket index -/

lemma bucketIndex_comm (a b : NodeId) : bucketIndex a b = bucketIndex b a := by
  by_cases h : a = b
  case pos => rw [h]
  case neg => exact (firstDiff_bucketIndex h).unique (firstDiff_bucketIndex (Ne.symm h)).symm

lemma bucketIndex_eq_idBits_iff (a b : NodeId) : bucketIndex a b = idBits ↔ a = b := by
  rcases bucketIndex_cases a b with ⟨h, hi⟩ | ⟨h, hi⟩
  · exact iff_of_true hi h
  · exact iff_of_false hi.ne h

/-- **An id in a higher bucket is nearer.**

**Proof sketch.** The id in the lower bucket leaves the local id at an earlier bit, where the other
one still has the bit of the local id. -/
theorem compareDistance_neg_of_bucketIndex_lt {l a b : NodeId}
    (h : bucketIndex l b < bucketIndex l a) : compareDistance l a b < 0 := by
  have hlb : l ≠ b := by
    rw [← bucketIndex_lt_iff]
    exact h.trans_le ((bucketIndex_cases l a).elim (fun h => h.2.le) fun h => h.2.le)
  have hagree : ∀ i ≤ bucketIndex l b, a.bit i = l.bit i := by
    intro i hi
    by_cases hla : l = a
    case pos => rw [hla]
    case neg => exact ((firstDiff_bucketIndex hla).agree i (hi.trans_lt h)).symm
  have hfirst : FirstDiff a.bit b.bit (bucketIndex l b) := by
    refine ⟨?_, fun i hi => ?_⟩
    · rw [hagree _ le_rfl]
      exact (firstDiff_bucketIndex hlb).differ
    · rw [hagree i hi.le]
      exact (firstDiff_bucketIndex hlb).agree i hi
  have hab : a ≠ b := fun hab => hfirst.differ (by rw [hab])
  rw [compareDistance_neg_iff, xor_lt_iff hab, (firstDiff_bucketIndex hab).unique hfirst]
  exact hagree _ le_rfl

/-! ## The laws -/

/-- The laws of the comparison and of the bucket index. -/
structure XorMetric : Prop where
  eq_zero_iff : ∀ target a b, compareDistance target a b = 0 ↔ a = b
  antisymm : ∀ target a b, compareDistance target b a = -compareDistance target a b
  trans : ∀ target a b c, compareDistance target a b < 0 → compareDistance target b c < 0 →
    compareDistance target a c < 0
  /-- The comparison is that of the distances as numbers. -/
  eq_sign : ∀ target a b,
    compareDistance target a b = Int.sign (distance target a - distance target b)
  /-- An id in a higher bucket is nearer. -/
  closer : ∀ l a b, bucketIndex l a > bucketIndex l b → compareDistance l a b < 0
  symm : ∀ a b, bucketIndex a b = bucketIndex b a
  eq_idBits_iff : ∀ a b, bucketIndex a b = 256 ↔ a = b

/-- **The two loops are coherent**: one compares the XOR distances, and the other agrees with it. -/
theorem xorMetric : XorMetric where
  eq_zero_iff target a b := by
    rw [compareDistance_eq_zero_iff, (xor_injective target).eq_iff]
  antisymm target a b := by
    rw [compareDistance_eq_sign, compareDistance_eq_sign, ← Int.sign_neg, Int.neg_sub]
  trans target a b c hab hbc := by
    rw [compareDistance_neg_iff_distance_lt] at *
    exact hab.trans hbc
  eq_sign := compareDistance_eq_sign
  closer _ _ _ := compareDistance_neg_of_bucketIndex_lt
  symm := bucketIndex_comm
  eq_idBits_iff := bucketIndex_eq_idBits_iff

end HyperDHT.Routing
