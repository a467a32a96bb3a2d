import Mathlib.Data.Finset.Card
import Mathlib.Data.List.Sort
import Mathlib.Tactic.Common

/-!
# Keeping the `k` best

A list kept strictly increasing in a key and cut at `k` elements keeps the `k` elements with the
smallest keys that were pushed to it. The key of its last element never grows, so what was once
too far away for the list stays too far away.

## Main definitions

* `TopK.Sorted` — the list is strictly increasing in the key.
* `TopK.insertKey` — insertion at the place of the key; an element whose key is there is dropped.
* `TopK.push` — the insertion, cut at `k` elements.
* `TopK.Beyond` — the list has `k` elements, none with a key above `x`.
* `TopK.insertAll` — everything that was pushed, in the order of the keys, without the cut.

## Main results

* `TopK.sorted_push`, `TopK.length_push_le` — a push keeps the order and the bound.
* `TopK.insertKey_append_of_lt`, `TopK.insertKey_append_of_eq` — where an insertion takes place,
  read off the element before it.
* `TopK.Beyond.push` — a push keeps out what was too far away.
* `TopK.mem_push_self_iff` — what a push takes in.
* `TopK.foldl_push_eq` — cutting at every push is cutting once at the end.
* `TopK.exists_append_of_mem_insertAll`, `TopK.length_insertAll` — of every key the first element
  is there, and nothing else.
-/

set_option autoImplicit false

namespace TopK

variable {α κ : Type*} [LinearOrder κ] (key : α → κ)

/-- The list is strictly increasing in the key. -/
def Sorted (l : List α) : Prop := l.Pairwise fun a b => key a < key b

/-- Insert at the place of the key, unless the key is there. -/
def insertKey (a : α) : List α → List α
  | [] => [a]
  | b :: l =>
    if key b < key a then b :: insertKey a l
    else if key b = key a then b :: l
    else a :: b :: l

/-- Insert and keep the first `k`. -/
def push (k : ℕ) (l : List α) (a : α) : List α := (insertKey key a l).take k

/-- The list has `k` elements, and none of them has a key above `x`. -/
def Beyond (k : ℕ) (l : List α) (x : κ) : Prop := l.length = k ∧ ∀ b ∈ l, key b ≤ x

variable {key}

lemma mem_insertKey {a b : α} {l : List α} (h : b ∈ insertKey key a l) : b = a ∨ b ∈ l := by
  induction l with
  | nil => simpa [insertKey] using h
  | cons c l ih =>
    rw [insertKey] at h
    split at h
    · rcases List.mem_cons.1 h with rfl | h
      · exact Or.inr List.mem_cons_self
      · exact (ih h).imp_right (List.mem_cons_of_mem _)
    · split at h
      · exact Or.inr h
      · exact List.mem_cons.1 h

lemma length_insertKey (a : α) (l : List α) :
    l.length ≤ (insertKey key a l).length ∧ (insertKey key a l).length ≤ l.length + 1 := by
  induction l with
  | nil => simp [insertKey]
  | cons b l ih =>
    rw [insertKey]
    split
    · simp only [List.length_cons]
      omega
    · split <;> simp

lemma sorted_insertKey {l : List α} (h : Sorted key l) (a : α) :
    Sorted key (insertKey key a l) := by
  induction l with
  | nil => exact List.pairwise_singleton _ _
  | cons b l ih =>
    obtain ⟨hb, hl⟩ := List.pairwise_cons.1 h
    rw [insertKey]
    split
    · rename_i hba
      refine List.pairwise_cons.2 ⟨fun c hc => ?_, ih hl⟩
      rcases mem_insertKey hc with rfl | hc
      · exact hba
      · exact hb c hc
    · split
      · exact h
      · rename_i hge hne
        have hab : key a < key b := lt_of_le_of_ne (not_lt.1 hge) (Ne.symm hne)
        refine List.pairwise_cons.2 ⟨fun c hc => ?_, h⟩
        rcases List.mem_cons.1 hc with rfl | hc
        · exact hab
        · exact hab.trans (hb c hc)

lemma insertKey_of_forall_lt {a : α} {l : List α} (h : ∀ b ∈ l, key a < key b) :
    insertKey key a l = a :: l := by
  cases l with
  | nil => rfl
  | cons b l =>
    have hab : key a < key b := h b List.mem_cons_self
    rw [insertKey, if_neg (not_lt.2 hab.le), if_neg hab.ne']

lemma insertKey_append_of_forall_lt {a : α} {l r : List α} (h : ∀ b ∈ l, key b < key a) :
    insertKey key a (l ++ r) = l ++ insertKey key a r := by
  induction l with
  | nil => rfl
  | cons b l ih =>
    rw [List.cons_append, insertKey, if_pos (h b List.mem_cons_self),
      ih fun c hc => h c (List.mem_cons_of_mem _ hc), List.cons_append]

lemma Sorted.forall_lt_last {l r : List α} {b : α} (h : Sorted key (l ++ b :: r)) :
    ∀ c ∈ l, key c < key b :=
  fun c hc => (List.pairwise_append.1 h).2.2 c hc b List.mem_cons_self

/-- **The place of an insertion**: between a smaller key and the larger ones. -/
lemma insertKey_append_of_lt {a b : α} {l r : List α} (h : Sorted key (l ++ b :: r))
    (hba : key b < key a) (hr : ∀ c ∈ r, key a < key c) :
    insertKey key a (l ++ b :: r) = l ++ b :: a :: r := by
  have hl : ∀ c ∈ l ++ [b], key c < key a := by
    intro c hc
    rcases List.mem_append.1 hc with hc | hc
    · exact (h.forall_lt_last c hc).trans hba
    · rw [List.mem_singleton.1 hc]
      exact hba
  calc insertKey key a (l ++ b :: r)
      = insertKey key a ((l ++ [b]) ++ r) := by simp
    _ = (l ++ [b]) ++ insertKey key a r := insertKey_append_of_forall_lt hl
    _ = l ++ b :: a :: r := by rw [insertKey_of_forall_lt hr]; simp

lemma insertKey_append_of_eq {a b : α} {l r : List α} (h : Sorted key (l ++ b :: r))
    (hba : key b = key a) : insertKey key a (l ++ b :: r) = l ++ b :: r := by
  have hl : ∀ c ∈ l, key c < key a := fun c hc => hba ▸ h.forall_lt_last c hc
  rw [insertKey_append_of_forall_lt hl, insertKey, if_neg (by rw [hba]; exact lt_irrefl _),
    if_pos hba]

lemma sorted_push {k : ℕ} {l : List α} (h : Sorted key l) (a : α) : Sorted key (push key k l a) :=
  (sorted_insertKey h a).sublist (List.take_sublist _ _)

lemma length_push_le (k : ℕ) (l : List α) (a : α) : (push key k l a).length ≤ k := by
  simp [push]

/-- **A push keeps out what was too far away**: the largest key of a full list never grows. -/
theorem Beyond.push {k : ℕ} {l : List α} {x : κ} (h : Beyond key k l x) (a : α) :
    Beyond key k (push key k l a) x := by
  obtain ⟨hlen, hle⟩ := h
  constructor
  · have hlength : l.length ≤ (insertKey key a l).length := (length_insertKey a l).1
    simp only [TopK.push, List.length_take]
    omega
  · intro b hb
    rcases le_or_gt (key a) x with hax | hax
    · rcases mem_insertKey (List.mem_of_mem_take hb) with rfl | hb
      · exact hax
      · exact hle b hb
    · have hl : ∀ c ∈ l, key c < key a := fun c hc => (hle c hc).trans_lt hax
      have happ : insertKey key a l = l ++ [a] := by
        simpa [insertKey] using insertKey_append_of_forall_lt (r := []) hl
      rw [TopK.push, happ, ← hlen, List.take_left] at hb
      exact hle b hb

lemma beyond_iff_getLast {k : ℕ} {l : List α} {b : α} {x : κ} (h : Sorted key l)
    (hlast : l.getLast? = some b) : Beyond key k l x ↔ l.length = k ∧ key b ≤ x := by
  obtain ⟨r, rfl⟩ := List.getLast?_eq_some_iff.1 hlast
  refine and_congr_right fun _ => ⟨fun hx => hx b (by simp), fun hx c hc => ?_⟩
  rcases List.mem_append.1 hc with hc | hc
  · exact (h.forall_lt_last c hc).le.trans hx
  · rw [List.mem_singleton.1 hc]
    exact hx

lemma mem_insertKey_of_mem {a b : α} {l : List α} (h : b ∈ l) : b ∈ insertKey key a l := by
  induction l with
  | nil => cases h
  | cons c l ih =>
    rw [insertKey]
    split
    · rcases List.mem_cons.1 h with rfl | h
      · exact List.mem_cons_self
      · exact List.mem_cons_of_mem _ (ih h)
    · split
      · exact h
      · exact List.mem_cons_of_mem _ h

lemma mem_insertKey_self {a : α} {l : List α} (h : ∀ b ∈ l, key b ≠ key a) :
    a ∈ insertKey key a l := by
  induction l with
  | nil => exact List.mem_cons_self
  | cons c l ih =>
    rw [insertKey, if_neg (h c List.mem_cons_self)]
    split
    · exact List.mem_cons_of_mem _ (ih fun b hb => h b (List.mem_cons_of_mem _ hb))
    · exact List.mem_cons_self

lemma insertKey_concat {a c : α} {l : List α} (h : key a < key c) :
    insertKey key a (l ++ [c]) = insertKey key a l ++ [c] := by
  induction l with
  | nil => simp [insertKey, h.not_gt, h.ne']
  | cons b l ih =>
    rw [List.cons_append, insertKey, insertKey, ih]
    split
    · rfl
    · split <;> rfl

lemma insertKey_of_exists_eq {a b : α} {l : List α} (h : Sorted key l) (hb : b ∈ l)
    (hkey : key b = key a) : insertKey key a l = l := by
  obtain ⟨pre, suf, rfl⟩ := List.append_of_mem hb
  exact insertKey_append_of_eq h hkey

/-- **What a push takes in**: an element that is there, or one with a new key that is not beyond the
list. -/
theorem mem_push_self_iff {k : ℕ} {l : List α} {a : α} (h : Sorted key l) (hlen : l.length ≤ k) :
    a ∈ push key k l a ↔
      a ∈ l ∨ (∀ b ∈ l, key b ≠ key a) ∧ ¬ Beyond key k l (key a) := by
  by_cases hmem : a ∈ l
  · have hsame : push key k l a = l := by
      rw [push, insertKey_of_exists_eq h hmem rfl, List.take_of_length_le hlen]
    rw [hsame]
    exact ⟨.inl, fun _ => hmem⟩
  rw [or_iff_right hmem]
  constructor
  · intro hpush
    have hnew : ∀ b ∈ l, key b ≠ key a := fun b hb hkey => by
      rw [push, insertKey_of_exists_eq h hb hkey] at hpush
      exact hmem (List.mem_of_mem_take hpush)
    refine ⟨hnew, fun ⟨hfull, hle⟩ => hmem ?_⟩
    have hend := @insertKey_append_of_forall_lt _ _ _ key a l [] fun b hb =>
      lt_of_le_of_ne (hle b hb) (hnew b hb)
    rw [List.append_nil] at hend
    rw [push, hend, List.take_left' hfull] at hpush
    exact hpush
  · rintro ⟨hnew, hnear⟩
    rcases hlen.lt_or_eq with hroom | hfull
    · have hle : (insertKey key a l).length ≤ l.length + 1 := (length_insertKey a l).2
      rw [push, List.take_of_length_le (by omega)]
      exact mem_insertKey_self hnew
    · have habove : ∃ b ∈ l, key a < key b := by
        by_contra hnone
        exact hnear ⟨hfull, fun b hb => not_lt.1 fun hlt => hnone ⟨b, hb, hlt⟩⟩
      obtain ⟨b, hb, hlt⟩ := habove
      obtain ⟨front, c, rfl⟩ :=
        (List.eq_nil_or_concat' l).resolve_left (List.ne_nil_of_mem hb)
      have hlast : key a < key c := by
        rcases List.mem_append.1 hb with hb | hb
        · exact hlt.trans (h.forall_lt_last b hb)
        · rwa [List.mem_singleton.1 hb] at hlt
      have hle : (insertKey key a front).length ≤ front.length + 1 :=
        (length_insertKey a front).2
      rw [List.length_append, List.length_singleton] at hfull
      rw [push, insertKey_concat hlast, List.take_append, List.take_of_length_le (by omega)]
      refine List.mem_append_left _ (mem_insertKey_self fun b hb => hnew b ?_)
      exact List.mem_append_left _ hb

/-! ## A sequence of pushes -/

variable (key) in
/-- Insert one element after another into the empty list. -/
def insertAll (as : List α) : List α := as.foldl (fun l a => insertKey key a l) []

lemma insertAll_concat (as : List α) (a : α) :
    insertAll key (as ++ [a]) = insertKey key a (insertAll key as) := by
  simp [insertAll]

lemma sorted_insertAll (as : List α) : Sorted key (insertAll key as) := by
  induction as using List.reverseRecOn with
  | nil => exact List.Pairwise.nil
  | append_singleton as a ih =>
    rw [insertAll_concat]
    exact sorted_insertKey ih a

lemma take_insertKey (k : ℕ) (a : α) (l : List α) :
    (insertKey key a (l.take k)).take k = (insertKey key a l).take k := by
  induction l generalizing k with
  | nil => simp
  | cons b l ih =>
    cases k with
    | zero => simp
    | succ k =>
      rw [List.take_succ_cons, insertKey, insertKey]
      split
      · rw [List.take_succ_cons, List.take_succ_cons, ih]
      · split
        · rw [List.take_succ_cons, List.take_succ_cons, List.take_take, Nat.min_self]
        · rw [List.take_succ_cons, List.take_succ_cons]
          congr 1
          cases k with
          | zero => rfl
          | succ k =>
            rw [List.take_succ_cons, List.take_succ_cons, List.take_take,
              Nat.min_eq_left (Nat.le_succ k)]

/-- **Cutting at every push is cutting once at the end.** -/
theorem foldl_push_eq (k : ℕ) (as : List α) :
    as.foldl (push key k) [] = (insertAll key as).take k := by
  induction as using List.reverseRecOn with
  | nil => simp [insertAll]
  | append_singleton as a ih =>
    rw [List.foldl_append, List.foldl_cons, List.foldl_nil, ih, push, take_insertKey,
      insertAll_concat]

lemma exists_key_insertKey {a : α} {l : List α} {x : κ} :
    (∃ b ∈ insertKey key a l, key b = x) ↔ (∃ b ∈ l, key b = x) ∨ key a = x := by
  induction l with
  | nil => simp [insertKey]
  | cons c l ih =>
    rw [insertKey]
    split
    · rw [List.exists_mem_cons_iff, List.exists_mem_cons_iff, ih, or_assoc]
    · split
      · rename_i hsame
        rw [List.exists_mem_cons_iff, hsame]
        exact (or_iff_left_of_imp Or.inl).symm
      · rw [List.exists_mem_cons_iff, or_comm]

lemma exists_key_insertAll {as : List α} {x : κ} :
    (∃ b ∈ insertAll key as, key b = x) ↔ ∃ a ∈ as, key a = x := by
  induction as using List.reverseRecOn with
  | nil => simp [insertAll]
  | append_singleton as a ih =>
    rw [insertAll_concat, exists_key_insertKey, ih]
    simp [or_and_right, exists_or]

lemma length_insertAll [DecidableEq κ] (as : List α) :
    (insertAll key as).length = (as.map key).toFinset.card := by
  have hnodup : ((insertAll key as).map key).Nodup :=
    List.pairwise_map.2 ((sorted_insertAll as).imp fun h => h.ne)
  have hkeys : ((insertAll key as).map key).toFinset = (as.map key).toFinset := by
    ext x
    simpa using exists_key_insertAll
  rw [← hkeys, List.toFinset_card_of_nodup hnodup, List.length_map]

/-- **Of every key the first element is there**: what is in the list was inserted, and before it
nothing with its key. -/
theorem exists_append_of_mem_insertAll {as : List α} {b : α} (h : b ∈ insertAll key as) :
    ∃ before after, as = before ++ b :: after ∧ ∀ c ∈ before, key c ≠ key b := by
  induction as using List.reverseRecOn with
  | nil => cases h
  | append_singleton as a ih =>
    by_cases hold : b ∈ insertAll key as
    · obtain ⟨before, after, rfl, hfirst⟩ := ih hold
      exact ⟨before, after ++ [a], by simp, hfirst⟩
    · rw [insertAll_concat] at h
      have hnew : ∀ c ∈ insertAll key as, key c ≠ key a := fun c hc hkey =>
        hold (insertKey_of_exists_eq (sorted_insertAll as) hc hkey ▸ h)
      obtain rfl : b = a := (mem_insertKey h).resolve_right hold
      refine ⟨as, [], rfl, fun c hc hkey => ?_⟩
      obtain ⟨d, hd, hdkey⟩ := exists_key_insertAll.2 ⟨c, hc, hkey⟩
      exact hnew d hd hdkey

lemma mem_take_of_mem_take_insertKey {k : ℕ} {a b : α} {l : List α} (hs : Sorted key l)
    (hb : b ∈ l) (h : b ∈ (insertKey key a l).take k) : b ∈ l.take k := by
  induction l generalizing k with
  | nil => cases hb
  | cons c l ih =>
    cases k with
    | zero => cases h
    | succ k =>
      obtain ⟨hc, hl⟩ := List.pairwise_cons.1 hs
      rw [insertKey] at h
      rw [List.take_succ_cons]
      rcases List.mem_cons.1 hb with rfl | hbl
      · exact List.mem_cons_self
      · refine List.mem_cons_of_mem _ ?_
        have hne : b ≠ c := fun heq => (hc b hbl).ne' (congrArg key heq)
        split at h
        · exact ih hl hbl ((List.mem_cons.1 h).resolve_left hne)
        · split at h
          · exact (List.mem_cons.1 h).resolve_left hne
          · rename_i hge hne'
            have hac : key a < key c := lt_of_le_of_ne (not_lt.1 hge) (Ne.symm hne')
            have hba : b ≠ a := fun heq => (hac.trans (hc b hbl)).ne' (congrArg key heq)
            have htake := (List.mem_cons.1 h).resolve_left hba
            cases k with
            | zero => cases htake
            | succ k =>
              rw [List.take_succ_cons] at htake
              exact List.take_subset_take_left l (Nat.le_succ k)
                ((List.mem_cons.1 htake).resolve_left hne)

lemma mem_insertAll_append {as : List α} {b : α} (cs : List α) (h : b ∈ insertAll key as) :
    b ∈ insertAll key (as ++ cs) := by
  induction cs using List.reverseRecOn with
  | nil => rwa [List.append_nil]
  | append_singleton cs c ih =>
    rw [← List.append_assoc, insertAll_concat]
    exact mem_insertKey_of_mem ih

/-- **What was cut off does not come back.** -/
lemma mem_take_of_mem_take_append {k : ℕ} {as : List α} {b : α} (cs : List α)
    (h : b ∈ insertAll key as) (hb : b ∈ (insertAll key (as ++ cs)).take k) :
    b ∈ (insertAll key as).take k := by
  induction cs using List.reverseRecOn with
  | nil => rwa [List.append_nil] at hb
  | append_singleton cs c ih =>
    rw [← List.append_assoc, insertAll_concat] at hb
    exact ih (mem_take_of_mem_take_insertKey (sorted_insertAll _) (mem_insertAll_append cs h) hb)

lemma Sorted.lt_of_notMem_take {k : ℕ} {l : List α} (h : Sorted key l) {b c : α}
    (hb : b ∈ l.take k) (hc : c ∈ l) (hcut : c ∉ l.take k) : key b < key c := by
  have happ : Sorted key (l.take k ++ l.drop k) := by rwa [List.take_append_drop]
  have hdrop : c ∈ l.drop k := by
    rw [← List.take_append_drop k l, List.mem_append] at hc
    exact hc.resolve_left hcut
  exact (List.pairwise_append.1 happ).2.2 b hb c hdrop

end TopK
