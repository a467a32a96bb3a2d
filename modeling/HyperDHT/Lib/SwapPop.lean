import Mathlib.Data.List.Basic
import Mathlib.Data.List.Perm.Basic
import Mathlib.Tactic.Common

/-!
# Vectors without an order

A vector whose order does not matter drops an entry in constant time: the last entry is moved
into its place and the vector is cut by one.

## Main definitions

* `SwapPop.swapPop` — the entry at a position is dropped.
* `SwapPop.remove` — the first entry that meets a test is dropped.

## Main results

* `SwapPop.swapPop_perm` — the dropped entry and what is left are the entries there were.
* `SwapPop.remove_perm` — the same for the first entry that meets a test.
-/

set_option autoImplicit false

namespace SwapPop

open scoped List

variable {α : Type*}

/-- The entry at `i` is overwritten by the last one, and the last one is popped. -/
def swapPop (l : List α) (i : ℕ) : List α :=
  match l.getLast? with
  | none => l
  | some back => (l.set i back).dropLast

/-- The first entry that meets the test is dropped; without one nothing changes. -/
def remove (test : α → Bool) (l : List α) : List α :=
  match l.findIdx? test with
  | none => l
  | some i => swapPop l i

/-- **Swap and pop**: the entry at `i` together with what is left are the entries of the list. -/
theorem swapPop_perm {l : List α} {i : ℕ} (hi : i < l.length) :
    l[i] :: swapPop l i ~ l := by
  rcases List.eq_nil_or_concat l with rfl | ⟨front, back, rfl⟩
  · simp at hi
  have hpop : swapPop (front ++ [back]) i = ((front ++ [back]).set i back).dropLast := by
    simp [swapPop]
  simp only [List.concat_eq_append] at hi ⊢
  rw [hpop]
  by_cases hfront : i < front.length
  · have hset : ((front ++ [back]).set i back).dropLast = front.set i back := by
      rw [List.set_append_left _ _ hfront, List.dropLast_concat]
    rw [hset, List.getElem_append_left hfront]
    calc front[i] :: front.set i back
        ~ front[i] :: back :: front.eraseIdx i :=
          (List.set_perm_cons_eraseIdx hfront back).cons _
      _ ~ back :: front[i] :: front.eraseIdx i := List.Perm.swap _ _ _
      _ ~ back :: front := (List.getElem_cons_eraseIdx_perm hfront).cons _
      _ ~ front ++ [back] := (List.perm_append_singleton back front).symm
  · obtain rfl : i = front.length := by
      simp at hi
      omega
    have hset : ((front ++ [back]).set front.length back).dropLast = front := by simp
    rw [hset]
    simpa using (List.perm_append_singleton back front).symm

/-- Dropping an entry that is there leaves the other ones. -/
theorem remove_perm {test : α → Bool} {l : List α} {a : α} (ha : a ∈ l)
    (hunique : ∀ b ∈ l, test b = true ↔ b = a) : a :: remove test l ~ l := by
  cases hfind : l.findIdx? test with
  | none =>
    rw [List.findIdx?_eq_none_iff] at hfind
    have := hfind a ha
    simp [(hunique a ha).2 rfl] at this
  | some i =>
    obtain ⟨hi, htest, -⟩ := List.findIdx?_eq_some_iff_getElem.1 hfind
    have hentry : l[i] = a := (hunique l[i] (List.getElem_mem hi)).1 htest
    have hremove : remove test l = swapPop l i := by simp [remove, hfind]
    rw [hremove, ← hentry]
    exact swapPop_perm hi

end SwapPop
