import Mathlib.Data.List.Lex
import Mathlib.Data.Nat.Bitwise
import Mathlib.Data.Vector.Basic
import Mathlib.Data.Fin.Basic
import Mathlib.Order.Fin.Basic
import Mathlib.Tactic.Common

/-!
# Node ids and the XOR distance

The 256-bit ids of `routing_table.hpp`, ordered lexicographically by bytes as `std::array` is,
and the two functions on them: the position of the first differing bit, which is the index of a
bucket, and the comparison of two ids by their XOR distance from a target.

## Main definitions

* `Routing.NodeId` — a node id, with its lexicographic order and `NodeId.xor`.
* `Routing.bucketIndex`, `compareDistance` — the functions of `routing_table.cpp`.
* `Routing.NodeId.bit`, `Routing.FirstDiff` — the bits of an id, and the first one in which two
  ids differ.

## Main results

* `Routing.bucketIndex_cases`, `Routing.bucketIndex_lt_iff` — a bucket index is 256 for equal ids, and
  below 256 for different ones.
* `Routing.compareDistance_neg_iff`, `Routing.compareDistance_eq_zero_iff` — the comparison is
  that of the distances in the order of ids.
* `Routing.firstDiff_bucketIndex`, `Routing.xor_lt_iff` — a bucket index is the first bit in which
  two ids differ, and the id that has the bit of the target there is the nearer one.
-/

set_option autoImplicit false

namespace HyperDHT.Routing

/-- The length of an id in bytes. -/
def idLen : ℕ := 32

/-- The length of an id in bits. -/
def idBits : ℕ := idLen * 8

/-- A node id. -/
structure NodeId where
  /-- The bytes, the most significant first. -/
  bytes : List.Vector UInt8 32
  deriving DecidableEq

namespace NodeId

/-- The bytes as digits, which carry the lexicographic order. -/
def digits (id : NodeId) : List (Fin 256) := id.bytes.toList.map UInt8.toFin

lemma digits_injective : Function.Injective digits := by
  rintro ⟨a⟩ ⟨b⟩ h
  have hab : a.toList = b.toList :=
    List.map_injective_iff.2 (fun _ _ => UInt8.toFin_inj.1) h
  rw [List.Vector.eq a b hab]

/-- Ids are compared lexicographically by bytes, as `std::array` compares them. -/
instance : LinearOrder NodeId := LinearOrder.lift' digits digits_injective

def zero : NodeId := ⟨List.Vector.replicate 32 0⟩

/-- The XOR of two ids. -/
def xor (a b : NodeId) : NodeId :=
  ⟨List.Vector.map₂ (fun x y => x ^^^ y) a.bytes b.bytes⟩

end NodeId

/-- `std::countl_zero` of a byte: the number of leading zero bits. -/
def countlZero (b : UInt8) : ℕ := if b = 0 then 8 else 7 - Nat.log2 b.toNat

/-- The loop of `bucket_index` from byte `i` on. -/
def bucketIndexLoop : ℕ → List UInt8 → List UInt8 → ℕ
  | i, a :: as, b :: bs =>
    if a ^^^ b ≠ 0 then i * 8 + countlZero (a ^^^ b) else bucketIndexLoop (i + 1) as bs
  | _, _, _ => idBits

/-- The position of the first bit in which two ids differ, or 256 if they are equal. -/
def bucketIndex (localId remoteId : NodeId) : ℕ :=
  bucketIndexLoop 0 localId.bytes.toList remoteId.bytes.toList

/-- The loop of `compare_distance`: the first byte in which the distances differ decides. -/
def compareDistanceLoop : List UInt8 → List UInt8 → List UInt8 → ℤ
  | t :: ts, a :: as, b :: bs =>
    if t ^^^ a < t ^^^ b then -1
    else if t ^^^ a > t ^^^ b then 1
    else compareDistanceLoop ts as bs
  | _, _, _ => 0

/-- Compare two ids by their XOR distance from the target: negative if `a` is closer, positive
if `b` is, zero if they are equally far. -/
def compareDistance (target a b : NodeId) : ℤ :=
  compareDistanceLoop target.bytes.toList a.bytes.toList b.bytes.toList

/-! ## The bucket index -/

lemma bucketIndexLoop_bounds (i : ℕ) (as bs : List UInt8) (hlen : as.length = bs.length) :
    (as = bs ∧ bucketIndexLoop i as bs = idBits) ∨
      (as ≠ bs ∧ bucketIndexLoop i as bs < (i + as.length) * 8) := by
  induction as generalizing i bs with
  | nil =>
    obtain rfl : bs = [] := List.length_eq_zero_iff.1 (by simpa using hlen.symm)
    exact Or.inl ⟨rfl, rfl⟩
  | cons a as ih =>
    cases bs with
    | nil => simp at hlen
    | cons b bs =>
      simp only [List.length_cons, Nat.add_right_cancel_iff] at hlen
      rw [bucketIndexLoop]
      by_cases hab : a = b
      · subst hab
        simp only [UInt8.xor_self, ne_eq, not_true_eq_false, if_false, List.cons.injEq, true_and,
          List.length_cons]
        rcases ih (i + 1) bs hlen with h | h
        · exact Or.inl h
        · exact Or.inr ⟨h.1, by omega⟩
      · have hx : a ^^^ b ≠ 0 := fun h => hab (UInt8.xor_eq_zero_iff.1 h)
        rw [if_pos hx]
        refine Or.inr ⟨by simp [hab], ?_⟩
        have : countlZero (a ^^^ b) ≤ 7 := by rw [countlZero, if_neg hx]; omega
        simp only [List.length_cons]
        omega

lemma bucketIndex_cases (a b : NodeId) :
    (a = b ∧ bucketIndex a b = idBits) ∨ (a ≠ b ∧ bucketIndex a b < idBits) := by
  have hlen : a.bytes.toList.length = b.bytes.toList.length := by simp
  rcases bucketIndexLoop_bounds 0 _ _ hlen with ⟨h, hi⟩ | ⟨h, hi⟩
  · refine Or.inl ⟨?_, hi⟩
    cases a; cases b
    simpa using List.Vector.eq _ _ h
  · refine Or.inr ⟨fun hab => h (by rw [hab]), ?_⟩
    simpa [bucketIndex, idBits, idLen] using hi

lemma bucketIndex_lt_iff (a b : NodeId) : bucketIndex a b < idBits ↔ a ≠ b := by
  rcases bucketIndex_cases a b with ⟨h, hi⟩ | ⟨h, hi⟩
  · simp [h, h ▸ hi]
  · simp [h, hi]

/-! ## The comparison of distances -/

/-- The loop compares the distances lexicographically.

**Proof sketch.** Induction on the bytes: the first bytes in which the distances differ decide
both the loop and the lexicographic order; equal ones are skipped by both. -/
lemma compareDistanceLoop_cases (ts as bs : List UInt8) (ha : as.length = ts.length)
    (hb : bs.length = ts.length) :
    let da := (List.zipWith (fun x y => x ^^^ y) ts as).map UInt8.toFin
    let db := (List.zipWith (fun x y => x ^^^ y) ts bs).map UInt8.toFin
    (compareDistanceLoop ts as bs = -1 ∧ da < db) ∨
      (compareDistanceLoop ts as bs = 1 ∧ db < da) ∨
      (compareDistanceLoop ts as bs = 0 ∧ da = db) := by
  induction ts generalizing as bs with
  | nil => exact Or.inr (Or.inr ⟨by rw [compareDistanceLoop]; simp, by simp⟩)
  | cons t ts ih =>
    cases as with
    | nil => simp at ha
    | cons a as =>
      cases bs with
      | nil => simp at hb
      | cons b bs =>
        simp only [List.length_cons, Nat.add_right_cancel_iff] at ha hb
        simp only [compareDistanceLoop, List.zipWith_cons_cons, List.map_cons]
        rcases lt_trichotomy (t ^^^ a).toFin (t ^^^ b).toFin with hlt | heq | hgt
        · rw [if_pos (show t ^^^ a < t ^^^ b from hlt)]
          exact Or.inl ⟨rfl, List.Lex.rel hlt⟩
        · have hx : t ^^^ a = t ^^^ b := UInt8.toFin_inj.1 heq
          rw [hx, if_neg (UInt8.lt_irrefl _), if_neg (UInt8.lt_irrefl _)]
          rcases ih as bs ha hb with ⟨h, hd⟩ | ⟨h, hd⟩ | ⟨h, hd⟩
          · exact Or.inl ⟨h, List.Lex.cons hd⟩
          · exact Or.inr (Or.inl ⟨h, List.Lex.cons hd⟩)
          · exact Or.inr (Or.inr ⟨h, by rw [hd]⟩)
        · have hnlt : ¬ t ^^^ a < t ^^^ b := fun h => lt_asymm (α := Fin _) h hgt
          rw [if_neg hnlt, if_pos (show t ^^^ a > t ^^^ b from hgt)]
          exact Or.inr (Or.inl ⟨rfl, List.Lex.rel hgt⟩)

lemma compareDistance_cases (target a b : NodeId) :
    (compareDistance target a b = -1 ∧ target.xor a < target.xor b) ∨
      (compareDistance target a b = 1 ∧ target.xor b < target.xor a) ∨
      (compareDistance target a b = 0 ∧ target.xor a = target.xor b) := by
  have h := compareDistanceLoop_cases target.bytes.toList a.bytes.toList b.bytes.toList
    (by simp) (by simp)
  have hd : ∀ c : NodeId, (target.xor c).digits =
      (List.zipWith (fun x y => x ^^^ y) target.bytes.toList c.bytes.toList).map UInt8.toFin := by
    rintro ⟨c⟩
    rfl
  simp only [← hd] at h
  rcases h with ⟨h, hlt⟩ | ⟨h, hlt⟩ | ⟨h, heq⟩
  · exact Or.inl ⟨h, hlt⟩
  · exact Or.inr (Or.inl ⟨h, hlt⟩)
  · exact Or.inr (Or.inr ⟨h, NodeId.digits_injective heq⟩)

lemma compareDistance_neg_iff (target a b : NodeId) :
    compareDistance target a b < 0 ↔ target.xor a < target.xor b := by
  rcases compareDistance_cases target a b with ⟨h, hd⟩ | ⟨h, hd⟩ | ⟨h, hd⟩
  · simp [h, hd]
  · simp [h, hd.le]
  · simp [h, hd]

lemma compareDistance_eq_zero_iff (target a b : NodeId) :
    compareDistance target a b = 0 ↔ target.xor a = target.xor b := by
  rcases compareDistance_cases target a b with ⟨h, hd⟩ | ⟨h, hd⟩ | ⟨h, hd⟩
  · simp [h, hd.ne]
  · simp [h, hd.ne']
  · simp [h, hd]

/-! ## Bits -/

/-- Bit `i` of a byte, the most significant first. -/
def byteBit (b : UInt8) (i : ℕ) : Bool := b.toNat.testBit (7 - i)

/-- Bit `i` of a list of bytes, the most significant first. -/
def bitAt (l : List UInt8) (i : ℕ) : Bool := byteBit (l.getD (i / 8) 0) (i % 8)

/-- Bit `i` of an id, the most significant first. -/
def NodeId.bit (id : NodeId) (i : ℕ) : Bool := bitAt id.bytes.toList i

/-- Bit `q` is the first in which `f` and `g` differ. -/
structure FirstDiff (f g : ℕ → Bool) (q : ℕ) : Prop where
  differ : f q ≠ g q
  agree : ∀ j < q, f j = g j

namespace FirstDiff

variable {f g : ℕ → Bool} {q r : ℕ}

lemma symm (h : FirstDiff f g q) : FirstDiff g f q :=
  ⟨h.differ.symm, fun j hj => (h.agree j hj).symm⟩

lemma unique (h : FirstDiff f g q) (h' : FirstDiff f g r) : q = r := by
  rcases lt_trichotomy q r with hlt | heq | hgt
  · exact absurd (h'.agree q hlt) h.differ
  · exact heq
  · exact absurd (h.agree r hgt) h'.differ

lemma of_lt {g' : ℕ → Bool} (h : FirstDiff f g q) (h' : FirstDiff f g' r) (hlt : q < r) :
    FirstDiff g g' q := by
  refine ⟨fun heq => h.differ ?_, fun j hj => ?_⟩
  · rw [heq, h'.agree q hlt]
  · rw [← h.agree j hj, h'.agree j (hj.trans hlt)]

end FirstDiff

lemma bitAt_cons_of_lt (a : UInt8) (l : List UInt8) {i : ℕ} (h : i < 8) :
    bitAt (a :: l) i = byteBit a i := by
  simp [bitAt, Nat.div_eq_of_lt h, Nat.mod_eq_of_lt h]

lemma bitAt_cons_add (a : UInt8) (l : List UInt8) (i : ℕ) :
    bitAt (a :: l) (i + 8) = bitAt l i := by
  simp [bitAt, Nat.add_div_right]

lemma byte_ext {a b : UInt8} (h : ∀ i < 8, byteBit a i = byteBit b i) : a = b := by
  refine UInt8.toNat_inj.1 (Nat.eq_of_testBit_eq fun k => ?_)
  rcases Nat.lt_or_ge k 8 with hk | hk
  · have := h (7 - k) (by omega)
    simpa [byteBit, show 7 - (7 - k) = k by omega] using this
  · have hpow : 2 ^ 8 ≤ 2 ^ k := Nat.pow_le_pow_right (by decide) hk
    have ha : a.toNat < 2 ^ 8 := a.toNat_lt
    have hb : b.toNat < 2 ^ 8 := b.toNat_lt
    rw [Nat.testBit_lt_two_pow (by omega), Nat.testBit_lt_two_pow (by omega)]

lemma firstDiff_countlZero {a b : UInt8} (h : a ≠ b) :
    countlZero (a ^^^ b) < 8 ∧ FirstDiff (byteBit a) (byteBit b) (countlZero (a ^^^ b)) := by
  have hx : a ^^^ b ≠ 0 := fun hx => h (UInt8.xor_eq_zero_iff.1 hx)
  have hnat : (a ^^^ b).toNat ≠ 0 := fun hz => hx (UInt8.toNat_inj.1 (by simpa using hz))
  have hlog : (a ^^^ b).toNat.log2 < 8 := (Nat.log2_lt hnat).2 (a ^^^ b).toNat_lt
  have hclz : countlZero (a ^^^ b) = 7 - (a ^^^ b).toNat.log2 := by rw [countlZero, if_neg hx]
  have hxor : ∀ k, (a ^^^ b).toNat.testBit k = Bool.xor (a.toNat.testBit k) (b.toNat.testBit k) := by
    intro k
    rw [UInt8.toNat_xor, Nat.testBit_xor]
  rw [hclz]
  refine ⟨by omega, ?_, fun j hj => ?_⟩
  · have htop := Nat.testBit_log2 hnat
    rw [hxor] at htop
    rw [byteBit, byteBit, show 7 - (7 - (a ^^^ b).toNat.log2) = (a ^^^ b).toNat.log2 by omega]
    simpa using htop
  · have hlt : (a ^^^ b).toNat < 2 ^ (7 - j) :=
      Nat.lt_of_lt_of_le Nat.lt_log2_self (Nat.pow_le_pow_right (by decide) (by omega))
    have hzero := Nat.testBit_lt_two_pow hlt
    rw [hxor] at hzero
    simpa [byteBit] using hzero

lemma byte_xor_lt_iff {a b : UInt8} {q : ℕ} (hq : q < 8) (h : FirstDiff (byteBit a) (byteBit b) q)
    (t : UInt8) : t ^^^ a < t ^^^ b ↔ byteBit a q = byteBit t q := by
  have hbits : ∀ (c : UInt8) k,
      (t ^^^ c).toNat.testBit k = Bool.xor (t.toNat.testBit k) (c.toNat.testBit k) := by
    intro c k
    rw [UInt8.toNat_xor, Nat.testBit_xor]
  -- the XORs agree above the first difference, and there the one of the other byte is set
  have hone : ∀ c d : UInt8, FirstDiff (byteBit c) (byteBit d) q → byteBit c q = byteBit t q →
      (t ^^^ c).toNat < (t ^^^ d).toNat := by
    intro c d hdiff hbit
    refine Nat.lt_of_testBit (7 - q) ?_ ?_ fun j hj => ?_
    · rw [hbits, ← byteBit, ← byteBit, hbit, Bool.xor_self]
    · rw [hbits, ← byteBit, ← byteBit, ← hbit]
      simpa using hdiff.differ
    · rw [hbits, hbits]
      rcases Nat.lt_or_ge j 8 with hj8 | hj8
      · have := hdiff.agree (7 - j) (by omega)
        rw [byteBit, byteBit, show 7 - (7 - j) = j by omega] at this
        rw [this]
      · have hpow : 2 ^ 8 ≤ 2 ^ j := Nat.pow_le_pow_right (by decide) hj8
        have hc : c.toNat < 2 ^ 8 := c.toNat_lt
        have hd : d.toNat < 2 ^ 8 := d.toNat_lt
        rw [Nat.testBit_lt_two_pow (x := c.toNat) (by omega),
          Nat.testBit_lt_two_pow (x := d.toNat) (by omega)]
  rw [UInt8.lt_iff_toNat_lt]
  refine ⟨fun hlt => ?_, hone a b h⟩
  by_contra hbit
  have hb : byteBit b q = byteBit t q := by
    have := h.differ
    cases ha : byteBit a q <;> cases hb : byteBit b q <;> cases ht : byteBit t q <;> simp_all
  exact absurd (hone b a h.symm hb) (Nat.lt_asymm hlt)

lemma bucketIndexLoop_spec (i : ℕ) (as bs : List UInt8) (hlen : as.length = bs.length)
    (hne : as ≠ bs) : ∃ q < as.length * 8,
      bucketIndexLoop i as bs = i * 8 + q ∧ FirstDiff (bitAt as) (bitAt bs) q := by
  induction as generalizing i bs with
  | nil =>
    obtain rfl : bs = [] := List.length_eq_zero_iff.1 (by simpa using hlen.symm)
    exact absurd rfl hne
  | cons a as ih =>
    cases bs with
    | nil => simp at hlen
    | cons b bs =>
      simp only [List.length_cons, Nat.add_right_cancel_iff] at hlen
      by_cases hab : a = b
      · subst hab
        obtain ⟨q, hq, hloop, hdiff⟩ := ih (i + 1) bs hlen (by simpa using hne)
        refine ⟨q + 8, by simp only [List.length_cons]; omega, ?_, ?_, fun j hj => ?_⟩
        · rw [bucketIndexLoop, if_neg (by simp), hloop]
          omega
        · rw [bitAt_cons_add, bitAt_cons_add]
          exact hdiff.differ
        · rcases Nat.lt_or_ge j 8 with hj8 | hj8
          · rw [bitAt_cons_of_lt _ _ hj8, bitAt_cons_of_lt _ _ hj8]
          · obtain ⟨k, rfl⟩ := Nat.exists_eq_add_of_le' hj8
            rw [bitAt_cons_add, bitAt_cons_add]
            exact hdiff.agree k (by omega)
      · obtain ⟨hlt, hdiff⟩ := firstDiff_countlZero hab
        have hx : a ^^^ b ≠ 0 := fun hx => hab (UInt8.xor_eq_zero_iff.1 hx)
        refine ⟨countlZero (a ^^^ b), by simp only [List.length_cons]; omega, ?_, ?_,
          fun j hj => ?_⟩
        · rw [bucketIndexLoop, if_pos hx]
        · rw [bitAt_cons_of_lt _ _ hlt, bitAt_cons_of_lt _ _ hlt]
          exact hdiff.differ
        · rw [bitAt_cons_of_lt _ _ (hj.trans hlt), bitAt_cons_of_lt _ _ (hj.trans hlt)]
          exact hdiff.agree j hj

/-- Of two lists of bytes, the one with the bit of `ts` at the first difference has the lesser
XOR. -/
lemma zipWith_xor_lt_iff {ts as bs : List UInt8} (ha : as.length = ts.length)
    (hb : bs.length = ts.length) {q : ℕ} (hq : q < ts.length * 8)
    (h : FirstDiff (bitAt as) (bitAt bs) q) :
    (List.zipWith (fun x y => x ^^^ y) ts as).map UInt8.toFin <
      (List.zipWith (fun x y => x ^^^ y) ts bs).map UInt8.toFin ↔ bitAt as q = bitAt ts q := by
  induction ts generalizing as bs q with
  | nil => simp at hq
  | cons t ts ih =>
    cases as with
    | nil => simp at ha
    | cons a as =>
      cases bs with
      | nil => simp at hb
      | cons b bs =>
        simp only [List.length_cons, Nat.add_right_cancel_iff] at ha hb hq
        simp only [List.zipWith_cons_cons, List.map_cons, List.cons_lt_cons_iff]
        rcases Nat.lt_or_ge q 8 with hq8 | hq8
        · have hhead : FirstDiff (byteBit a) (byteBit b) q := by
            refine ⟨?_, fun j hj => ?_⟩
            · rw [← bitAt_cons_of_lt a as hq8, ← bitAt_cons_of_lt b bs hq8]
              exact h.differ
            · rw [← bitAt_cons_of_lt a as (hj.trans hq8), ← bitAt_cons_of_lt b bs (hj.trans hq8)]
              exact h.agree j hj
          have hab : (t ^^^ a).toFin ≠ (t ^^^ b).toFin := by
            intro heq
            refine hhead.differ ?_
            rw [(UInt8.xor_right_inj t).1 (UInt8.toFin_inj.1 heq)]
          rw [bitAt_cons_of_lt _ _ hq8, bitAt_cons_of_lt _ _ hq8, ← byte_xor_lt_iff hq8 hhead]
          simp only [hab, false_and, or_false]
          rfl
        · obtain ⟨k, rfl⟩ := Nat.exists_eq_add_of_le' hq8
          obtain rfl : a = b := byte_ext fun i hi => by
            rw [← bitAt_cons_of_lt a as hi, ← bitAt_cons_of_lt b bs hi]
            exact h.agree i (by omega)
          rw [bitAt_cons_add, bitAt_cons_add, ← ih ha hb (by omega) ⟨?_, fun j hj => ?_⟩]
          · simp
          · rw [← bitAt_cons_add a as, ← bitAt_cons_add a bs]
            exact h.differ
          · rw [← bitAt_cons_add a as, ← bitAt_cons_add a bs]
            exact h.agree (j + 8) (by omega)

/-- **The bucket index is the first bit in which two ids differ.** -/
theorem firstDiff_bucketIndex {a b : NodeId} (h : a ≠ b) :
    FirstDiff a.bit b.bit (bucketIndex a b) := by
  have hne : a.bytes.toList ≠ b.bytes.toList := by
    intro heq
    cases a; cases b
    exact h (by simpa using List.Vector.eq _ _ heq)
  obtain ⟨q, -, hloop, hdiff⟩ := bucketIndexLoop_spec 0 _ _ (by simp) hne
  have hq : bucketIndex a b = q := by rw [bucketIndex, hloop]; omega
  rw [hq]
  exact hdiff

/-- **The nearer of two ids** has the bit of the target where they first differ. -/
theorem xor_lt_iff {a b : NodeId} (h : a ≠ b) (target : NodeId) :
    target.xor a < target.xor b ↔
      a.bit (bucketIndex a b) = target.bit (bucketIndex a b) := by
  have hlt := (bucketIndex_lt_iff a b).2 h
  refine @zipWith_xor_lt_iff target.bytes.toList a.bytes.toList b.bytes.toList ?_ ?_ _ ?_
    (firstDiff_bucketIndex h)
  · simp
  · simp
  · simpa [idBits, idLen] using hlt

lemma xor_injective (target : NodeId) : Function.Injective target.xor := by
  intro a b heq
  by_contra hne
  have hab := firstDiff_bucketIndex hne
  have hdiff := hab.differ
  have ha := xor_lt_iff hne target
  have hb := xor_lt_iff (Ne.symm hne) target
  rw [(firstDiff_bucketIndex (Ne.symm hne)).unique hab.symm, heq, lt_self_iff_false,
    false_iff] at hb
  rw [heq, lt_self_iff_false, false_iff] at ha
  -- one of the two bits is that of the target
  cases hat : a.bit (bucketIndex a b) <;> cases hbt : b.bit (bucketIndex a b) <;>
    cases ht : target.bit (bucketIndex a b) <;> simp_all

lemma lt_iff_bit {a b : NodeId} (h : a ≠ b) : a < b ↔ a.bit (bucketIndex a b) = false := by
  have hxor : ∀ c : NodeId, NodeId.zero.xor c = c := by
    rintro ⟨l, hl⟩
    refine congrArg NodeId.mk (List.Vector.eq _ _ ?_)
    change List.zipWith (fun x y => x ^^^ y) (List.replicate 32 0) l = l
    refine List.ext_getElem (by simp [hl]) fun i _ _ => ?_
    rw [List.getElem_zipWith, List.getElem_replicate, UInt8.zero_xor]
  have hbit : ∀ i, NodeId.zero.bit i = false := by
    intro i
    change bitAt (List.replicate 32 0) i = false
    rw [bitAt, List.getD_eq_getElem?_getD, List.getElem?_replicate]
    split_ifs <;> simp [byteBit]
  have := xor_lt_iff h NodeId.zero
  rwa [hxor, hxor, hbit] at this

end HyperDHT.Routing
