import Mathlib.Data.List.Sort
import Mathlib.Tactic.Common

/-!
# Cutting a traversal and sorting what is left

A selection of the `k` smallest elements may traverse the elements bucket by bucket, cut the
traversal at `k` elements, and sort those. The result is the `k` smallest exactly if everything
before the cut is smaller than everything after it, which can be said bucket by bucket.

## Main definitions

* `Traversal.room` — the room that is left when the traversal reaches a bucket.
* `Traversal.Smallest` — a list of the `k` smallest elements, in order.

## Main results

* `Traversal.mem_take_flatMap`, `Traversal.mem_drop_flatMap` — what is before and after the cut.
* `Traversal.rel_of_room` — the cut is in one bucket: a bucket with elements before the cut comes
  before every other bucket with elements after it.
* `Traversal.smallest_insertionSort_take_iff` — when cutting and sorting selects the smallest.
-/

set_option autoImplicit false

namespace Traversal

variable {ι α κ : Type*} [DecidableEq ι] (f : ι → List α)

/-- The room that is left of `k` when a traversal of the buckets reaches `x`. -/
def room : List ι → ℕ → ι → ℕ
  | [], k, _ => k
  | y :: xs, k, x => if y = x then k else room xs (k - (f y).length) x

variable {f}

lemma room_zero (xs : List ι) (x : ι) : room f xs 0 x = 0 := by
  induction xs with
  | nil => rfl
  | cons y xs ih => simp [room, ih]

lemma mem_part_flatMap (part : ℕ → List α → List α) (hnil : ∀ k, part k [] = [])
    (happend : ∀ k l r, part k (l ++ r) = part k l ++ part (k - l.length) r) {xs : List ι} (hnodup : xs.Nodup)
    (k : ℕ) (a : α) : a ∈ part k (xs.flatMap f) ↔ ∃ x ∈ xs, a ∈ part (room f xs k x) (f x) := by
  induction xs generalizing k with
  | nil => simp [hnil]
  | cons y xs ih =>
    obtain ⟨hy, hnodup⟩ := List.nodup_cons.1 hnodup
    have hne : ∀ x ∈ xs, y ≠ x := fun x hx heq => hy (heq ▸ hx)
    rw [List.flatMap_cons, happend, List.mem_append, ih hnodup]
    constructor
    · rintro (h | ⟨x, hx, h⟩)
      · exact ⟨y, List.mem_cons_self, by simpa [room] using h⟩
      · exact ⟨x, List.mem_cons_of_mem _ hx, by simpa [room, hne x hx] using h⟩
    · rintro ⟨x, hx, h⟩
      rcases List.mem_cons.1 hx with rfl | hx
      · exact Or.inl (by simpa [room] using h)
      · exact Or.inr ⟨x, hx, by simpa [room, hne x hx] using h⟩

lemma mem_take_flatMap {xs : List ι} (hnodup : xs.Nodup) (k : ℕ) (a : α) :
    a ∈ (xs.flatMap f).take k ↔ ∃ x ∈ xs, a ∈ (f x).take (room f xs k x) :=
  mem_part_flatMap List.take (fun _ => List.take_nil) (fun _ _ _ => List.take_append) hnodup k a

lemma mem_drop_flatMap {xs : List ι} (hnodup : xs.Nodup) (k : ℕ) (a : α) :
    a ∈ (xs.flatMap f).drop k ↔ ∃ x ∈ xs, a ∈ (f x).drop (room f xs k x) :=
  mem_part_flatMap List.drop (fun _ => List.drop_nil) (fun _ _ _ => List.drop_append) hnodup k a

lemma rel_of_room {R : ι → ι → Prop} {xs : List ι} (hR : xs.Pairwise R) (hnodup : xs.Nodup)
    {k : ℕ} {x y : ι} (hx : x ∈ xs) (hy : y ∈ xs) (hxy : x ≠ y)
    (htake : (f x).take (room f xs k x) ≠ []) (hdrop : (f y).drop (room f xs k y) ≠ []) :
    R x y := by
  induction xs generalizing k with
  | nil => simp at hx
  | cons z xs ih =>
    obtain ⟨hz, hR⟩ := List.pairwise_cons.1 hR
    obtain ⟨hznot, hnodup⟩ := List.nodup_cons.1 hnodup
    rcases List.mem_cons.1 hx with rfl | hx
    · exact hz y ((List.mem_cons.1 hy).resolve_left (Ne.symm hxy))
    · have hzx : z ≠ x := fun heq => hznot (heq ▸ hx)
      rw [room, if_neg hzx] at htake
      rcases List.mem_cons.1 hy with rfl | hy
      · -- the cut is in the first bucket, so that there is no room for the others
        rw [room, if_pos rfl] at hdrop
        have hlt : k < (f y).length := by
          by_contra hle
          exact hdrop (List.drop_of_length_le (by omega))
        rw [show k - (f y).length = 0 by omega, room_zero] at htake
        simp at htake
      · have hzy : z ≠ y := fun heq => hznot (heq ▸ hy)
        rw [room, if_neg hzy] at hdrop
        exact ih hR hnodup hx hy htake hdrop

/-! ## The smallest elements -/

/-- `r` has the `k` elements of `l` with the smallest keys, or all of them, in order. -/
structure Smallest [LT κ] (key : α → κ) (k : ℕ) (l r : List α) : Prop where
  length : r.length = min k l.length
  mem : ∀ a ∈ r, a ∈ l
  increasing : r.Pairwise fun a b => key a < key b
  smallest : ∀ a ∈ r, ∀ b ∈ l, b ∉ r → key a < key b

/-- **Cutting and sorting** selects the smallest elements exactly if those before the cut are
smaller than those after it. -/
theorem smallest_insertionSort_take_iff [LinearOrder κ] {key : α → κ} {le : α → α → Prop}
    [DecidableRel le] (hle : ∀ a b, le a b ↔ key a ≤ key b) (k : ℕ) {l : List α}
    (hl : (l.map key).Nodup) :
    Smallest key k l ((l.take k).insertionSort le) ↔
      ∀ a ∈ l.take k, ∀ b ∈ l.drop k, key a < key b := by
  have hsplit : (l.take k ++ l.drop k).map key = l.map key := by rw [List.take_append_drop]
  rw [← hsplit, List.map_append, List.nodup_append] at hl
  obtain ⟨htake, -, hdisjoint⟩ := hl
  constructor
  · intro h a ha b hb
    refine h.smallest a ((List.mem_insertionSort le).2 ha) b (List.mem_of_mem_drop hb) ?_
    intro hbr
    exact hdisjoint _ (List.mem_map_of_mem ((List.mem_insertionSort le).1 hbr)) _
      (List.mem_map_of_mem hb) rfl
  · intro h
    refine ⟨?_, ?_, ?_, ?_⟩
    · rw [List.length_insertionSort, List.length_take]
    · exact fun a ha => List.mem_of_mem_take ((List.mem_insertionSort le).1 ha)
    · have : Std.Total le := ⟨fun a b => by simpa [hle] using le_total (key a) (key b)⟩
      have : IsTrans α le := ⟨fun a b c hab hbc => by
        rw [hle] at hab hbc ⊢
        exact hab.trans hbc⟩
      have hsorted := List.pairwise_insertionSort le (l.take k)
      have hne : ((l.take k).insertionSort le).Pairwise fun a b => key a ≠ key b := by
        have hperm := (List.perm_insertionSort le (l.take k)).map key
        exact List.pairwise_map.1 (hperm.nodup_iff.2 htake)
      refine (hsorted.and hne).imp fun hab => ?_
      exact lt_of_le_of_ne ((hle _ _).1 hab.1) hab.2
    · intro a ha b hb hbr
      rw [List.mem_insertionSort] at ha hbr
      refine h a ha b ?_
      rw [← List.take_append_drop k l, List.mem_append] at hb
      exact hb.resolve_left hbr

end Traversal
