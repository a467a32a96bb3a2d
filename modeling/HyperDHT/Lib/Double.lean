import Mathlib

/-!
# Quotients of small integers in double precision

`Float` is the IEEE 754 format with 53 bits of mantissa. The quotient of two integers of 32 bits is compared with one
half as the exact quotient is: the rounding does not bring any of them to one half.

## Main results

* `Double.unpack_pack` — a positive number of full width survives packing.
* `Double.unpack_toFloat` — an integer of 32 bits is represented exactly.
* `Double.half_lt_round_iff` — when a rounded number exceeds one half.
* `Double.half_lt_div_iff` — a quotient of two integers of 32 bits exceeds one half exactly when the exact one does.
-/

set_option autoImplicit false

namespace Double

open Float.Model Float.Model.UnpackedFloat

/-! ## Packing -/

lemma unpackSign_packComponents {spec : Format} {sign : Sign} {exponent : BitVec spec.exponentBits}
    {mantissa : BitVec spec.mantissaBitsWithoutImplicit} :
    unpackSign (packComponents spec sign exponent mantissa) = sign.toBitVec := by
  ext i hi
  obtain rfl : i = 0 := by omega
  have hge : ¬ spec.mantissaBitsWithoutImplicit + spec.exponentBits < spec.mantissaBitsWithoutImplicit := by omega
  simp [unpackSign, packComponents, BitVec.getLsbD_eq_getElem, BitVec.getLsbD_append, BitVec.getElem_append, hge]

lemma toNat_append_one {m : ℕ} (hlow : 2 ^ 52 ≤ m) (hhigh : m < 2 ^ 53) :
    (1#1 ++ BitVec.ofNat 52 m).toNat = m := by
  have hlt : (BitVec.ofNat 52 m).toNat < 2 ^ 52 := BitVec.isLt _
  rw [BitVec.toNat_append, ← Nat.shiftLeft_add_eq_or_of_lt hlt, BitVec.toNat_ofNat, Nat.shiftLeft_eq]
  simp
  omega

/-- **A positive number of full width** survives packing. -/
lemma unpack_pack {m : ℕ} {e : ℤ} (hm : m.log2 = 52) (hlow : -1074 ≤ e) (hhigh : e ≤ 971) (hpos : 0 < m) :
    (pack (.finite .positive m e hpos)).unpack = .finite .positive m e hpos := by
  obtain ⟨hm1, hm2⟩ := (Nat.log2_eq_iff (Nat.ne_of_gt hpos)).1 hm
  obtain ⟨b, hb⟩ : ∃ b : ℕ, e = (b : ℤ) - 1075 := ⟨(e + 1075).toNat, by omega⟩
  have hbiased : (e + (Format.binary64.exponentBias : ℤ) + (52 : ℕ)).toNat = b := by
    show (e + 1023 + 52).toNat = b
    omega
  have hb1 : 1 ≤ b := by omega
  have hb2 : b + 1 < 2 ^ 11 := by omega
  have hpack : UnpackedFloat.pack Format.binary64 (.finite .positive m e hpos) =
      packComponents Format.binary64 .positive (BitVec.ofNat 11 b) (BitVec.ofNat 52 m) := by
    simp only [UnpackedFloat.pack]
    rw [hbiased, if_neg (by omega), if_pos (by rw [hm]; rfl)]
  have hbits : (BitVec.ofNat 11 b).toNat = b := by
    rw [BitVec.toNat_ofNat]
    omega
  have hne : ∀ c : ℕ, c < 2 ^ 11 → c ≠ b → BitVec.ofNat 11 b ≠ BitVec.ofNat 11 c := by
    intro c hc hcb heq
    have htoNat := congrArg BitVec.toNat heq
    rw [hbits, BitVec.toNat_ofNat, Nat.mod_eq_of_lt hc] at htoNat
    exact hcb htoNat.symm
  have hexponent : ((BitVec.ofNat 11 b).toNat : ℤ) - (Format.binary64.exponentBias + (52 : ℕ)) = e := by
    rw [hbits, hb]
    show (b : ℤ) - (1023 + 52) = b - 1075
    omega
  have hunpack : (pack (.finite .positive m e hpos)).unpack =
      UnpackedFloat.unpack Format.binary64 (UnpackedFloat.pack Format.binary64 (.finite .positive m e hpos)) := rfl
  rw [hunpack, hpack]
  simp only [UnpackedFloat.unpack, unpackExponent_packComponents, unpackMantissa_packComponents,
    unpackSign_packComponents]
  have hones : BitVec.ofNat 11 b ≠ -1#11 := hne 2047 (by decide) (by omega)
  rw [if_neg hones, if_neg (hne 0 (by decide) (by omega))]
  simp only [hexponent, toNat_append_one hm1 hm2]
  rfl

/-! ## Rounding -/

lemma targetExponent_eq (total : ℤ) : Format.binary64.targetExponent total = max (total - 53) (-1074) := by
  rw [Format.targetExponent]
  rfl

lemma shift_normal {m : ℕ} {e : ℤ} (hm : m.log2 = 52) (he : -1074 ≤ e) (acc : Accuracy) :
    shiftToTargetExponent Format.binary64 m e acc = (.ofMantissaAndAccuracy m acc, e) := by
  have htarget : (Format.binary64.targetExponent (totalExponent m e) - e).toNat = 0 := by
    rw [targetExponent_eq, totalExponent, hm]
    omega
  simp only [shiftToTargetExponent, shiftToExponent, htarget]
  exact Prod.ext rfl (Int.add_zero e)

lemma shift_wide {m : ℕ} {e : ℤ} (hm : m.log2 = 53) (he : -1074 ≤ e) (acc : Accuracy) :
    shiftToTargetExponent Format.binary64 m e acc =
      ((ExtendedMantissa.ofMantissaAndAccuracy m acc).shiftRightOne, e + 1) := by
  have htarget : (Format.binary64.targetExponent (totalExponent m e) - e).toNat = 1 := by
    rw [targetExponent_eq, totalExponent, hm]
    omega
  simp only [shiftToTargetExponent, shiftToExponent, htarget]
  rfl

@[simp] lemma ofMantissaAndAccuracy_mantissa (m : ℕ) (acc : Accuracy) :
    (ExtendedMantissa.ofMantissaAndAccuracy m acc).mantissa = m := by
  cases acc with
  | exact => rfl
  | inexact o => cases o <;> rfl

lemma roundedMantissa_cases (em : ExtendedMantissa) :
    em.roundedMantissa = em.mantissa ∨ em.roundedMantissa = em.mantissa + 1 := by
  obtain ⟨m, r, s⟩ := em
  cases r with
  | false =>
    cases s with
    | false => exact .inl rfl
    | true => exact .inl rfl
  | true =>
    cases s with
    | false =>
      show m + m % 2 = m ∨ m + m % 2 = m + 1
      omega
    | true => exact .inr rfl

def half : UnpackedFloat := .finite .positive (2 ^ 52) (-53) (by decide)

lemma half_lt_finite_iff {m : ℕ} {e : ℤ} (hpos : 0 < m) :
    half.lt (.finite .positive m e hpos) = true ↔ -53 < e ∨ e = -53 ∧ 2 ^ 52 < m := by
  show (some ((compare (-53 : ℤ) e).then (compare (2 ^ 52) m)) == some Ordering.lt) = true ↔ _
  rw [beq_iff_eq, Option.some_inj, Ordering.then_eq_lt, Int.compare_eq_lt, Int.compare_eq_eq, Nat.compare_eq_lt,
    eq_comm]

/-- **When a rounded number exceeds one half**, if its mantissa was shifted to 53 bits: its exponent is larger, or the
same with a larger mantissa. -/
lemma half_lt_round_iff {m : ℕ} {e e' : ℤ} {acc : Accuracy} {em : ExtendedMantissa}
    (hshift : shiftToTargetExponent Format.binary64 m e acc = (em, e')) (hem : em.mantissa.log2 = 52)
    (hlow : -1074 ≤ e') (hhigh : e' ≤ 970) :
    half.lt (pack (roundWithAccuracy Format.binary64 .positive m e acc)).unpack = true ↔
      -53 < e' ∨ e' = -53 ∧ 2 ^ 52 < em.roundedMantissa := by
  have hpos : em.mantissa ≠ 0 := by
    rintro hzero
    rw [hzero] at hem
    exact absurd hem (by decide)
  obtain ⟨hm1, hm2⟩ := (Nat.log2_eq_iff hpos).1 hem
  have hrounded := roundedMantissa_cases em
  by_cases hfits : em.roundedMantissa < 2 ^ 53
  · have hr : em.roundedMantissa.log2 = 52 := (Nat.log2_eq_iff (by omega)).2 ⟨by omega, hfits⟩
    have hround : roundWithAccuracy Format.binary64 .positive m e acc =
        .finite .positive em.roundedMantissa e' (by omega) := by
      simp only [roundWithAccuracy, hshift, shift_normal hr hlow, ofMantissaAndAccuracy_mantissa]
      exact dif_neg (by omega)
    rw [hround, unpack_pack hr hlow (by omega), half_lt_finite_iff]
  · have hr : em.roundedMantissa = 2 ^ 53 := by omega
    have hround : roundWithAccuracy Format.binary64 .positive m e acc =
        .finite .positive (2 ^ 52) (e' + 1) (by decide) := by
      simp only [roundWithAccuracy, hshift, hr, shift_wide (show (2 ^ 53).log2 = 53 by decide) hlow]
      rfl
    rw [hround, unpack_pack (by decide) (by omega) (by omega), half_lt_finite_iff, hr]
    omega

/-! ## Division -/

/-- **When a quotient exceeds one half**, if both mantissas are even: the divisor's exponent is not larger, or larger
by one with a smaller mantissa.

**Proof sketch.** The quotient of the mantissas has 53 or 54 bits. If it exceeds the mantissa of one half at all, it
does so in a bit that is not rounded off, as the mantissas differ by two at least. -/
lemma half_lt_div_finite_iff {m₁ m₂ : ℕ} {e₁ e₂ : ℤ} (hm₁ : m₁.log2 = 52) (hm₂ : m₂.log2 = 52)
    (heven₁ : m₁ % 2 = 0) (heven₂ : m₂ % 2 = 0) (hlow : -1000 ≤ e₁ - e₂) (hhigh : e₁ - e₂ ≤ 1000)
    (hpos₁ : 0 < m₁) (hpos₂ : 0 < m₂) :
    half.lt (pack (UnpackedFloat.div Format.binary64 (.finite .positive m₁ e₁ hpos₁)
        (.finite .positive m₂ e₂ hpos₂))).unpack = true ↔
      e₂ ≤ e₁ ∨ e₂ = e₁ + 1 ∧ m₂ < m₁ := by
  have hcore : divCore Format.binary64 m₁ e₁ m₂ e₂ =
      (m₁ * 2 ^ 53 / m₂, e₁ - e₂ - 53, accuracyOfFraction (m₁ * 2 ^ 53 % m₂) m₂) := by
    have htarget : min (e₁ - e₂) (Format.binary64.targetExponent (totalExponent m₁ e₁ - totalExponent m₂ e₂)) =
        e₁ - e₂ - 53 := by
      rw [targetExponent_eq, totalExponent, totalExponent, hm₁, hm₂]
      omega
    have hshift : (e₁ - e₂ - (e₁ - e₂ - 53)).toNat = 53 := by omega
    simp only [divCore, htarget, hshift, Nat.shiftLeft_eq]
  have hdiv : UnpackedFloat.div Format.binary64 (.finite .positive m₁ e₁ hpos₁) (.finite .positive m₂ e₂ hpos₂) =
      roundWithAccuracy Format.binary64 .positive (m₁ * 2 ^ 53 / m₂) (e₁ - e₂ - 53)
        (accuracyOfFraction (m₁ * 2 ^ 53 % m₂) m₂) := by
    simp only [UnpackedFloat.div, hcore]
    rfl
  obtain ⟨hlow₁, hhigh₁⟩ := (Nat.log2_eq_iff (Nat.ne_of_gt hpos₁)).1 hm₁
  obtain ⟨hlow₂, hhigh₂⟩ := (Nat.log2_eq_iff (Nat.ne_of_gt hpos₂)).1 hm₂
  rw [hdiv]
  generalize hacc : accuracyOfFraction (m₁ * 2 ^ 53 % m₂) m₂ = acc
  by_cases hle : m₂ ≤ m₁
  · -- the quotient has 54 bits
    have hq1 : 2 ^ 53 ≤ m₁ * 2 ^ 53 / m₂ := (Nat.le_div_iff_mul_le hpos₂).2 (by omega)
    have hq2 : m₁ * 2 ^ 53 / m₂ < 2 ^ 54 := (Nat.div_lt_iff_lt_mul hpos₂).2 (by omega)
    have hlog : (m₁ * 2 ^ 53 / m₂).log2 = 53 := (Nat.log2_eq_iff (by omega)).2 ⟨hq1, hq2⟩
    have hmantissa : (ExtendedMantissa.ofMantissaAndAccuracy (m₁ * 2 ^ 53 / m₂) acc).shiftRightOne.mantissa =
        m₁ * 2 ^ 53 / m₂ / 2 := by
      rw [ExtendedMantissa.shiftRightOne, ofMantissaAndAccuracy_mantissa]
    have hem : (m₁ * 2 ^ 53 / m₂ / 2).log2 = 52 := (Nat.log2_eq_iff (by omega)).2 ⟨by omega, by omega⟩
    have hlarger : 2 ^ 52 < (ExtendedMantissa.ofMantissaAndAccuracy (m₁ * 2 ^ 53 / m₂)
        acc).shiftRightOne.roundedMantissa ↔ m₂ < m₁ := by
      rcases Nat.lt_or_eq_of_le hle with hlt | rfl
      · have hgap : 2 ^ 53 + 2 ≤ m₁ * 2 ^ 53 / m₂ := (Nat.le_div_iff_mul_le hpos₂).2 (by omega)
        have hrounded := roundedMantissa_cases
          (ExtendedMantissa.ofMantissaAndAccuracy (m₁ * 2 ^ 53 / m₂) acc).shiftRightOne
        rw [hmantissa] at hrounded
        exact iff_of_true (by omega) hlt
      · have hexact : acc = .exact := by
          rw [← hacc, Nat.mul_mod_right]
          rfl
        rw [Nat.mul_div_cancel_left _ hpos₂, hexact]
        exact iff_of_false (by decide) (Nat.lt_irrefl _)
    rw [half_lt_round_iff (shift_wide hlog (by omega) acc) (hmantissa ▸ hem) (by omega) (by omega), hlarger]
    omega
  · -- the quotient has 53 bits
    have hq1 : 2 ^ 52 + 1 ≤ m₁ * 2 ^ 53 / m₂ := (Nat.le_div_iff_mul_le hpos₂).2 (by omega)
    have hq2 : m₁ * 2 ^ 53 / m₂ < 2 ^ 53 := (Nat.div_lt_iff_lt_mul hpos₂).2 (by omega)
    have hlog : (m₁ * 2 ^ 53 / m₂).log2 = 52 := (Nat.log2_eq_iff (by omega)).2 ⟨by omega, hq2⟩
    have hmantissa := ofMantissaAndAccuracy_mantissa (m₁ * 2 ^ 53 / m₂) acc
    have hrounded := roundedMantissa_cases (ExtendedMantissa.ofMantissaAndAccuracy (m₁ * 2 ^ 53 / m₂) acc)
    rw [hmantissa] at hrounded
    rw [half_lt_round_iff (shift_normal hlog (by omega) acc) (hmantissa.symm ▸ hlog) (by omega) (by omega)]
    omega

/-! ## Integers of 32 bits -/

lemma roundWithAccuracy_exact {m : ℕ} {e : ℤ} (hm : m.log2 = 52) (he : -1074 ≤ e) (hpos : 0 < m) :
    roundWithAccuracy Format.binary64 .positive m e .exact = .finite .positive m e hpos := by
  have hrounded : (ExtendedMantissa.ofMantissaAndAccuracy m .exact).roundedMantissa = m := rfl
  simp only [roundWithAccuracy, shift_normal hm he, hrounded, ofMantissaAndAccuracy_mantissa]
  exact dif_neg (Nat.ne_of_gt hpos)

lemma log2_mul_pow {k : ℕ} (hk : k ≠ 0) (hsmall : k.log2 ≤ 52) : (k * 2 ^ (52 - k.log2)).log2 = 52 := by
  obtain ⟨hlow, hhigh⟩ := (Nat.log2_eq_iff hk).1 rfl
  have hpow : 2 ^ k.log2 * 2 ^ (52 - k.log2) = 2 ^ 52 := by
    rw [← Nat.pow_add]
    congr 1
    omega
  have hmul1 := Nat.mul_le_mul_right (2 ^ (52 - k.log2)) hlow
  have hmul2 := Nat.mul_lt_mul_of_pos_right hhigh (Nat.two_pow_pos (52 - k.log2))
  rw [Nat.pow_succ, Nat.mul_right_comm] at hmul2
  refine (Nat.log2_eq_iff (by omega)).2 ⟨by omega, by omega⟩

lemma log2_toNat_lt (n : UInt32) : n.toNat.log2 < 32 := by
  by_cases hn : n.toNat = 0
  · rw [hn]
    decide
  · exact (Nat.log2_lt hn).2 n.toNat_lt

/-- **An integer of 32 bits is represented exactly**, with full width. -/
lemma unpack_toFloat (n : UInt32) (hn : n ≠ 0) :
    ∃ h, n.toFloat.toModel.unpack =
      .finite .positive (n.toNat * 2 ^ (52 - n.toNat.log2)) ((n.toNat.log2 : ℤ) - 52) h := by
  have hk : n.toNat ≠ 0 := fun h => hn (UInt32.toNat.inj h)
  have hsmall := log2_toNat_lt n
  have hlog := log2_mul_pow hk (by omega)
  have hpos : 0 < n.toNat * 2 ^ (52 - n.toNat.log2) := Nat.mul_pos (by omega) (Nat.two_pow_pos _)
  have htarget : Format.binary64.targetExponent (totalExponent n.toNat 0) = (n.toNat.log2 : ℤ) - 52 := by
    rw [targetExponent_eq, totalExponent]
    omega
  have hshift : (0 - ((n.toNat.log2 : ℤ) - 52)).toNat = 52 - n.toNat.log2 := by omega
  have hexponent : (0 : ℤ) - ((52 - n.toNat.log2 : ℕ) : ℤ) = (n.toNat.log2 : ℤ) - 52 := by omega
  have hround : UnpackedFloat.round Format.binary64 .positive n.toNat 0 =
      .finite .positive (n.toNat * 2 ^ (52 - n.toNat.log2)) ((n.toNat.log2 : ℤ) - 52) hpos := by
    simp only [UnpackedFloat.round, decreaseExponent, htarget, hshift, Nat.shiftLeft_eq, hexponent]
    exact roundWithAccuracy_exact hlog (by omega) hpos
  have hnormalize : UnpackedFloat.normalize Format.binary64 (n.toNat : ℤ) 0 .positive =
      UnpackedFloat.round Format.binary64 .positive n.toNat 0 := by
    have hcompare : compare (n.toNat : ℤ) 0 = .gt := by
      rw [Int.compare_eq_gt]
      omega
    simp only [UnpackedFloat.normalize, hcompare, Int.toNat_natCast]
  have hmodel : n.toFloat.toModel.unpack =
      (pack (UnpackedFloat.normalize Format.binary64 (n.toNat : ℤ) 0 .positive)).unpack := rfl
  exact ⟨hpos, by rw [hmodel, hnormalize, hround, unpack_pack hlog (by omega) (by omega)]⟩

/-- **A quotient of two integers of 32 bits exceeds one half exactly when the exact one does.** -/
theorem half_lt_div_iff (t a : UInt32) (ha : a ≠ 0) :
    (0.5 : Float) < t.toFloat / a.toFloat ↔ a.toNat < 2 * t.toNat := by
  have hdiv : (0.5 : Float) < t.toFloat / a.toFloat ↔ half.lt (pack (UnpackedFloat.div Format.binary64
      t.toFloat.toModel.unpack a.toFloat.toModel.unpack)).unpack = true :=
    decide_eq_true_iff (p := (0.5 : Float).toModel < (t.toFloat / a.toFloat).toModel)
  obtain ⟨hposa, hunpacka⟩ := unpack_toFloat a ha
  rw [hdiv, hunpacka]
  by_cases ht : t = 0
  · subst ht
    have hzero : (0 : UInt32).toFloat.toModel.unpack = .zero .positive := rfl
    have hquotient : (pack (UnpackedFloat.div Format.binary64 (.zero .positive) (.finite .positive
        (a.toNat * 2 ^ (52 - a.toNat.log2)) ((a.toNat.log2 : ℤ) - 52) hposa))).unpack = .zero .positive := by
      simp only [UnpackedFloat.div]
      rfl
    rw [hzero, hquotient]
    exact iff_of_false (by decide) (Nat.not_lt_zero _)
  · obtain ⟨hpost, hunpackt⟩ := unpack_toFloat t ht
    have hkt : t.toNat ≠ 0 := fun h => ht (UInt32.toNat.inj h)
    have hka : a.toNat ≠ 0 := fun h => ha (UInt32.toNat.inj h)
    have hsmallt := log2_toNat_lt t
    have hsmalla := log2_toNat_lt a
    have heven {k : ℕ} (hk : k.log2 < 32) : k * 2 ^ (52 - k.log2) % 2 = 0 := by
      have hpow : 2 ^ (52 - k.log2) = 2 * 2 ^ (51 - k.log2) := by
        rw [← Nat.pow_succ']
        congr 1
        omega
      rw [hpow, Nat.mul_left_comm, Nat.mul_mod_right]
    rw [hunpackt, half_lt_div_finite_iff (log2_mul_pow hkt (by omega)) (log2_mul_pow hka (by omega)) (heven hsmallt)
      (heven hsmalla) (by omega) (by omega)]
    obtain ⟨hlowt, hhight⟩ := (Nat.log2_eq_iff hkt).1 rfl
    obtain ⟨hlowa, hhigha⟩ := (Nat.log2_eq_iff hka).1 rfl
    rcases Nat.lt_trichotomy a.toNat.log2 (t.toNat.log2 + 1) with hlt | heq | hgt
    · have hpow : 2 ^ (a.toNat.log2 + 1) ≤ 2 * 2 ^ t.toNat.log2 := by
        rw [← Nat.pow_succ']
        exact Nat.pow_le_pow_right (by decide) hlt
      exact iff_of_true (.inl (by omega)) (by omega)
    · have hpow : 2 ^ (52 - t.toNat.log2) = 2 * 2 ^ (52 - a.toNat.log2) := by
        rw [← Nat.pow_succ']
        congr 1
        omega
      have hmul : a.toNat * 2 ^ (52 - a.toNat.log2) < t.toNat * 2 ^ (52 - t.toNat.log2) ↔
          a.toNat < 2 * t.toNat := by
        rw [hpow, ← Nat.mul_assoc, Nat.mul_lt_mul_right (Nat.two_pow_pos _), Nat.mul_comm t.toNat 2]
      rw [hmul]
      omega
    · have hpow : 2 * 2 ^ (t.toNat.log2 + 1) ≤ 2 ^ a.toNat.log2 := by
        rw [← Nat.pow_succ']
        exact Nat.pow_le_pow_right (by decide) hgt
      exact iff_of_false (by omega) (by omega)

end Double
