import Mathlib.Data.List.Sort
import Mathlib.Tactic.Common

/-!
# Sorted vectors as finite maps

A vector of elements kept strictly increasing in a key is a finite map from keys: a binary
search finds the position of a key or the place where it belongs, and an insertion or an
erasure at that position keeps the vector sorted.

## Main definitions

* `SortedVec.bisect` — the binary search for the first position at which a predicate fails.
* `SortedVec.Sorted` — a vector is strictly increasing in its key.
* `SortedVec.lowerBound` — the first position whose key is not below the given one.
* `SortedVec.find?` — the element at the lower bound if it has the key.

## Main results

* `SortedVec.bisect_spec` — the search returns the boundary of a monotone predicate.
* `SortedVec.find?_eq_some_iff`, `SortedVec.find?_isSome_iff` — in a sorted vector the search
  finds exactly the elements of the vector.
* `SortedVec.sorted_insertIdx`, `SortedVec.sorted_eraseIdx` — both updates keep the order.
* `SortedVec.mem_eraseIdx_iff` — the erasure at the position of a key removes that key only.
-/

set_option autoImplicit false

namespace SortedVec

/-! ## Binary search -/

/-- Binary search in `[lo, hi)` for the first position at which `p` fails; `fuel` bounds the
number of halvings. -/
def bisect (p : ℕ → Bool) : ℕ → ℕ → ℕ → ℕ
  | 0, lo, _ => lo
  | fuel + 1, lo, hi =>
    if lo < hi then
      let mid := lo + (hi - lo) / 2
      if p mid then bisect p fuel (mid + 1) hi else bisect p fuel lo mid
    else lo

/-- **The binary search is correct**: for a predicate that, once it fails, fails from there on,
and with enough fuel, the result is the boundary between the positions where it holds and those
where it fails.

**Proof sketch.** Induction on the fuel. If the predicate holds in the middle it holds on the
whole left half; otherwise it fails on the whole right half. -/
theorem bisect_spec {p : ℕ → Bool} {fuel lo hi : ℕ} (hfuel : hi - lo ≤ fuel) (hle : lo ≤ hi)
    (hmono : ∀ i j, lo ≤ i → i ≤ j → j < hi → p j → p i) :
    lo ≤ bisect p fuel lo hi ∧ bisect p fuel lo hi ≤ hi ∧
      (∀ i, lo ≤ i → i < bisect p fuel lo hi → p i) ∧
      ∀ i, bisect p fuel lo hi ≤ i → i < hi → ¬ p i := by
  induction fuel generalizing lo hi with
  | zero =>
    obtain rfl : lo = hi := by omega
    refine ⟨le_rfl, le_rfl, ?_, ?_⟩ <;> (intro i h1 h2; simp only [bisect] at h1 h2; omega)
  | succ fuel ih =>
    rw [bisect]
    split
    · rename_i hlt
      dsimp only
      generalize hmid : lo + (hi - lo) / 2 = mid
      have hmid1 : lo ≤ mid := by omega
      have hmid2 : mid < hi := by omega
      split
      · rename_i hp
        obtain ⟨h1, h2, h3, h4⟩ := @ih (mid + 1) hi (by omega) (by omega)
          (fun i j hi' hij hj => hmono i j (by omega) hij hj)
        refine ⟨by omega, h2, fun i hi1 hi2 => ?_, h4⟩
        -- left of the middle by monotonicity, right of it by the induction hypothesis
        rcases Nat.lt_or_ge mid i with h | h
        · exact h3 i h hi2
        · exact hmono i mid hi1 h hmid2 hp
      · rename_i hp
        obtain ⟨h1, h2, h3, h4⟩ := @ih lo mid (by omega) hmid1
          (fun i j hi' hij hj => hmono i j hi' hij (by omega))
        refine ⟨h1, by omega, h3, fun i hi1 hi2 => ?_⟩
        rcases Nat.lt_or_ge i mid with h | h
        · exact h4 i hi1 h
        · exact fun hpi => hp (hmono mid i hmid1 h hi2 hpi)
    · obtain rfl : lo = hi := by omega
      exact ⟨le_rfl, le_rfl, fun i h1 h2 => by omega, fun i h1 h2 => by omega⟩

/-! ## Sorted vectors -/

variable {α κ : Type*} [LinearOrder κ] (key : α → κ)

/-- The vector is strictly increasing in the key. -/
def Sorted (l : List α) : Prop := l.Pairwise fun a b => key a < key b

/-- The first position whose key is not below `k`. -/
def lowerBound (l : List α) (k : κ) : ℕ :=
  bisect (fun i => (l[i]?.map fun a => decide (key a < k)).getD false) l.length 0 l.length

/-- The element at the lower bound of `k`, if it has the key `k`. -/
def find? (l : List α) (k : κ) : Option α :=
  l[lowerBound key l k]?.filter fun a => key a = k

variable {key}

lemma lowerBound_spec {l : List α} (h : Sorted key l) (k : κ) :
    lowerBound key l k ≤ l.length ∧ (∀ a ∈ l.take (lowerBound key l k), key a < k) ∧
      ∀ a ∈ l.drop (lowerBound key l k), k ≤ key a := by
  have hmono : ∀ i j, 0 ≤ i → i ≤ j → j < l.length →
      (l[j]?.map fun a => decide (key a < k)).getD false →
      (l[i]?.map fun a => decide (key a < k)).getD false := by
    intro i j _ hij hj
    rw [List.getElem?_eq_getElem hj, List.getElem?_eq_getElem (hij.trans_lt hj)]
    simp only [Option.map_some, Option.getD_some, decide_eq_true_eq]
    rcases Nat.lt_or_ge i j with hlt | hge
    · exact (List.pairwise_iff_getElem.1 h i j (hij.trans_lt hj) hj hlt).trans
    · obtain rfl : i = j := by omega
      exact id
  obtain ⟨-, h2, h3, h4⟩ := bisect_spec (Nat.sub_le l.length 0) (Nat.zero_le _) hmono
  refine ⟨h2, fun a ha => ?_, fun a ha => ?_⟩
  · obtain ⟨i, hi, rfl⟩ := List.mem_take_iff_getElem.1 ha
    have := h3 i (Nat.zero_le _) (by unfold lowerBound at hi; omega)
    rw [List.getElem?_eq_getElem (by omega)] at this
    simpa using this
  · obtain ⟨i, hi, rfl⟩ := List.mem_drop_iff_getElem.1 ha
    have := h4 (lowerBound key l k + i) (Nat.le_add_right _ _) (by omega)
    rw [List.getElem?_eq_getElem (by omega)] at this
    simpa using this

/-- **The search finds exactly the elements of a sorted vector.** -/
theorem find?_eq_some_iff {l : List α} (h : Sorted key l) (k : κ) (a : α) :
    find? key l k = some a ↔ a ∈ l ∧ key a = k := by
  simp only [find?, Option.filter_eq_some_iff, decide_eq_true_eq]
  constructor
  · rintro ⟨hget, hk⟩
    exact ⟨List.mem_of_getElem? hget, hk⟩
  · rintro ⟨hmem, rfl⟩
    refine ⟨?_, rfl⟩
    obtain ⟨-, hlow, hhigh⟩ := lowerBound_spec h (key a)
    have hdrop : a ∈ l.drop (lowerBound key l (key a)) := by
      rw [← List.take_append_drop (lowerBound key l (key a)) l, List.mem_append] at hmem
      exact hmem.resolve_left fun hm => (hlow a hm).false
    cases hd : l.drop (lowerBound key l (key a)) with
    | nil => rw [hd] at hdrop; cases hdrop
    | cons b rest =>
      have hb : b ∈ l.drop (lowerBound key l (key a)) := by rw [hd]; exact List.mem_cons_self
      have hba : b = a := by
        rw [hd, List.mem_cons] at hdrop
        rcases hdrop with hab | hrest
        · exact hab.symm
        · have hpair : Sorted key (b :: rest) := hd ▸ h.sublist (List.drop_sublist _ l)
          exact absurd (hhigh b hb) (not_le_of_gt ((List.pairwise_cons.1 hpair).1 a hrest))
      rw [← List.head?_drop, hd, hba]
      rfl

lemma find?_isSome_iff {l : List α} (h : Sorted key l) (k : κ) :
    (find? key l k).isSome ↔ ∃ a ∈ l, key a = k := by
  simp only [Option.isSome_iff_exists, find?_eq_some_iff h]

lemma insertIdx_eq_take_append {l : List α} {i : ℕ} (h : i ≤ l.length) (a : α) :
    l.insertIdx i a = l.take i ++ a :: l.drop i := by
  induction i generalizing l with
  | zero => simp
  | succ i ih =>
    cases l with
    | nil => simp at h
    | cons b l => simp [ih (Nat.le_of_succ_le_succ h)]

lemma sorted_insertIdx {l : List α} (h : Sorted key l) {a : α}
    (hnew : ∀ b ∈ l, key b ≠ key a) :
    Sorted key (l.insertIdx (lowerBound key l (key a)) a) := by
  obtain ⟨hle, hlow, hhigh⟩ := lowerBound_spec h (key a)
  have hsplit := List.take_append_drop (lowerBound key l (key a)) l
  have hpair : Sorted key (l.take (lowerBound key l (key a)) ++
      l.drop (lowerBound key l (key a))) := hsplit.symm ▸ h
  rw [insertIdx_eq_take_append hle]
  obtain ⟨h1, h2, h3⟩ := List.pairwise_append.1 hpair
  refine List.pairwise_append.2 ⟨h1, List.pairwise_cons.2 ⟨fun b hb => ?_, h2⟩, ?_⟩
  · exact lt_of_le_of_ne (hhigh b hb) (hnew b (List.mem_of_mem_drop hb)).symm
  · intro x hx y hy
    rcases List.mem_cons.1 hy with rfl | hy
    · exact hlow x hx
    · exact h3 x hx y hy

lemma sorted_eraseIdx {l : List α} (h : Sorted key l) (i : ℕ) : Sorted key (l.eraseIdx i) :=
  h.sublist (List.eraseIdx_sublist l i)

lemma mem_eraseIdx_iff {l : List α} (h : Sorted key l) {k : κ} {a : α}
    (hfind : find? key l k = some a) (b : α) :
    b ∈ l.eraseIdx (lowerBound key l k) ↔ b ∈ l ∧ key b ≠ k := by
  simp only [find?, Option.filter_eq_some_iff, decide_eq_true_eq] at hfind
  obtain ⟨hget, hk⟩ := hfind
  generalize lowerBound key l k = i at hget ⊢
  obtain ⟨hi, rfl⟩ := List.getElem?_eq_some_iff.1 hget
  subst hk
  have hlt := List.pairwise_iff_getElem.1 h
  rw [List.mem_eraseIdx_iff_getElem]
  constructor
  · rintro ⟨j, hj, hne, rfl⟩
    refine ⟨List.getElem_mem hj, ?_⟩
    rcases Nat.lt_or_gt_of_ne hne with hji | hij
    · exact (hlt j i hj hi hji).ne
    · exact (hlt i j hi hj hij).ne'
  · rintro ⟨hb, hne⟩
    obtain ⟨j, hj, rfl⟩ := List.mem_iff_getElem.1 hb
    exact ⟨j, hj, fun hji => hne (by simp only [hji]), rfl⟩

lemma lowerBound_lt_of_find? {l : List α} {k : κ} {a : α} (hfind : find? key l k = some a) :
    lowerBound key l k < l.length := by
  simp only [find?, Option.filter_eq_some_iff] at hfind
  exact (List.getElem?_eq_some_iff.1 hfind.1).1

end SortedVec
