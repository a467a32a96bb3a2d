import Mathlib.Data.List.AList

/-!
# Association maps

A loop over a map that erases the entries that do not meet a condition, the entry that an iteration begins
with, and the sizes of maps.

## Main definitions

* `AssocMap.keep` — the entries of a map that meet a condition.
* `AssocMap.beginKey`, `AssocMap.eraseBegin` — the key an iteration begins with, and the map without it.

## Main results

* `AssocMap.lookup_keep`, `AssocMap.lookup_eraseBegin` — what the map gives for a key afterwards.
* `AssocMap.length_insert_of_lookup`, `AssocMap.length_insert_le` — an insertion adds an entry at most, and none
  where the key was there.
-/

set_option autoImplicit false

namespace AssocMap

variable {α : Type*} {β : α → Type*} [DecidableEq α]

/-- The entries that meet a condition. -/
def keep (p : (a : α) → β a → Bool) (m : AList β) : AList β :=
  ⟨m.entries.filter fun e => p e.1 e.2, m.nodupKeys.sublist List.filter_sublist⟩

/-- A key is given what it was given before, if that meets the condition. -/
@[simp] theorem lookup_keep (p : (a : α) → β a → Bool) (m : AList β) (a : α) :
    (keep p m).lookup a = (m.lookup a).filter (p a) := by
  apply Option.ext
  intro b
  have hmem : ∀ m' : AList β, m'.lookup a = some b ↔ ⟨a, b⟩ ∈ m'.entries :=
    fun _ => AList.mem_lookup_iff
  rw [Option.filter_eq_some_iff, hmem, hmem]
  simp [keep]

/-! ## The entry an iteration begins with -/

/-- The key an iteration begins with. -/
def beginKey (m : AList β) : Option α := m.entries.head?.map Sigma.fst

/-- The map without the entry an iteration begins with. -/
def eraseBegin (m : AList β) : AList β :=
  ⟨m.entries.tail, m.nodupKeys.sublist (List.tail_sublist _)⟩

/-- Only that key is lost. -/
theorem lookup_eraseBegin (m : AList β) (a : α) :
    (eraseBegin m).lookup a = if beginKey m = some a then none else m.lookup a := by
  obtain ⟨entries, hnodup⟩ := m
  cases entries with
  | nil => rfl
  | cons e entries =>
    have hnew : e.1 ∉ entries.keys := (List.nodupKeys_cons.1 hnodup).1
    have hbegin : beginKey (⟨e :: entries, hnodup⟩ : AList β) = some e.1 := rfl
    rw [hbegin]
    by_cases ha : e.1 = a
    case pos =>
      subst ha
      rw [if_pos rfl]
      exact List.dlookup_eq_none.2 hnew
    case neg =>
      rw [if_neg (fun h => ha (Option.some.inj h))]
      exact (List.dlookup_cons_ne _ e (Ne.symm ha)).symm

/-! ## Sizes -/

omit [DecidableEq α] in
lemma length_eraseBegin (m : AList β) : (eraseBegin m).entries.length = m.entries.length - 1 :=
  List.length_tail

omit [DecidableEq α] in
lemma length_keep_le (p : (a : α) → β a → Bool) (m : AList β) :
    (keep p m).entries.length ≤ m.entries.length := List.length_filter_le _ _

lemma length_erase_le (m : AList β) (a : α) : (m.erase a).entries.length ≤ m.entries.length :=
  (List.kerase_sublist a m.entries).length_le

lemma length_insert_le (m : AList β) (a : α) (b : β a) :
    (m.insert a b).entries.length ≤ m.entries.length + 1 := by
  rw [AList.entries_insert, List.length_cons]
  exact Nat.succ_le_succ (length_erase_le m a)

lemma length_insert_of_lookup {m : AList β} {a : α} {b : β a} (h : m.lookup a = some b) (b' : β a) :
    (m.insert a b').entries.length = m.entries.length := by
  have hkey : a ∈ m.entries.keys := AList.lookup_isSome.1 (by rw [h]; rfl)
  obtain ⟨c, l₁, l₂, -, hsplit, herase⟩ := List.exists_of_kerase hkey
  rw [AList.entries_insert, herase, hsplit]
  simp only [List.length_cons, List.length_append]
  omega

end AssocMap
