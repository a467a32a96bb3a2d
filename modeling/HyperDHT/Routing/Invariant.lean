import Mathlib.Algebra.BigOperators.Fin
import Mathlib.Algebra.Order.BigOperators.Group.Finset
import HyperDHT.Lib.Runs
import HyperDHT.Routing.Table

/-!
# The representation invariant of the routing table

Binary search, ordered insertion, the node counter and the placement of nodes in buckets stay
coherent under every call of the table, the rebuild under a new own id included. Lookups
therefore find exactly the nodes that were added and neither removed nor dropped by a rebuild.

## Main definitions

* `Routing.Bucket.Valid` — a bucket is sorted and not overfull.
* `Routing.Table.Coherent` — the representation invariant of a table.
* `Routing.keptBy` — the nodes a rebuild keeps in a bucket: the first `K` of the old traversal
  that belong there.
* `Routing.live` — the ids a history of calls has added and not since removed or dropped.

## Main results

* `Routing.rebuildWithId_perm` — the buckets after a rebuild hold exactly the kept nodes.
* `Routing.coherent_step` — every call keeps the invariant.
* `Routing.table_representation` — in every reachable table the invariant holds, lookups find
  exactly the live ids, and `random` finds a node whenever there is one.
-/

set_option autoImplicit false

namespace HyperDHT.Routing

open Runs

/-! ## Buckets -/

namespace Bucket

/-- The bucket is strictly increasing in the ids and has at most `K` nodes. -/
structure Valid (b : Bucket) : Prop where
  sorted : SortedVec.Sorted Node.id b.nodes
  length_le : b.nodes.length ≤ K

lemma valid_empty : Valid {} := ⟨List.Pairwise.nil, Nat.zero_le _⟩

lemma get_eq_some_iff {b : Bucket} (h : b.Valid) (id : NodeId) (n : Node) :
    b.get id = some n ↔ n ∈ b.nodes ∧ n.id = id :=
  SortedVec.find?_eq_some_iff h.sorted id n

lemma hasId_iff {b : Bucket} (h : b.Valid) (id : NodeId) :
    b.hasId id = true ↔ ∃ n ∈ b.nodes, n.id = id :=
  SortedVec.find?_isSome_iff h.sorted id

lemma add_cases {b : Bucket} (h : b.Valid) (node : Node) :
    ((b.add node).2 = true ∧ (∀ n ∈ b.nodes, n.id ≠ node.id) ∧ b.nodes.length < K ∧
        (b.add node).1.Valid ∧ (b.add node).1.nodes.Perm (node :: b.nodes)) ∨
      (b.add node = (b, false) ∧
        ((∃ n ∈ b.nodes, n.id = node.id) ∨ K ≤ b.nodes.length)) := by
  unfold add
  by_cases hid : b.hasId node.id
  · exact Or.inr ⟨if_pos hid, Or.inl ((hasId_iff h _).1 hid)⟩
  · rw [if_neg hid]
    by_cases hfull : b.isFull
    · exact Or.inr ⟨if_pos hfull, Or.inr (by simpa [isFull] using hfull)⟩
    · rw [if_neg hfull]
      have hnew : ∀ n ∈ b.nodes, n.id ≠ node.id := fun n hn he =>
        hid ((hasId_iff h _).2 ⟨n, hn, he⟩)
      have hroom : b.nodes.length < K := by simpa [isFull] using hfull
      have hle : b.findIndex node.id ≤ b.nodes.length :=
        (SortedVec.lowerBound_spec h.sorted node.id).1
      refine Or.inl ⟨rfl, hnew, hroom, ⟨SortedVec.sorted_insertIdx h.sorted hnew, ?_⟩,
        List.perm_insertIdx _ _ hle⟩
      rw [List.length_insertIdx_of_le_length hle]
      exact hroom

lemma remove_cases {b : Bucket} (h : b.Valid) (id : NodeId) :
    ((b.remove id).2 = true ∧ (∃ n ∈ b.nodes, n.id = id) ∧ (b.remove id).1.Valid ∧
        (∀ n, n ∈ (b.remove id).1.nodes ↔ n ∈ b.nodes ∧ n.id ≠ id) ∧
        (b.remove id).1.nodes.length + 1 = b.nodes.length) ∨
      (b.remove id = (b, false) ∧ ∀ n ∈ b.nodes, n.id ≠ id) := by
  unfold remove
  by_cases hid : b.hasId id
  · rw [if_pos hid]
    obtain ⟨n, hn⟩ := Option.isSome_iff_exists.1 hid
    have hlt : b.findIndex id < b.nodes.length := SortedVec.lowerBound_lt_of_find? hn
    have hlen := List.length_eraseIdx_of_lt hlt
    refine Or.inl ⟨rfl, (hasId_iff h id).1 hid, ⟨SortedVec.sorted_eraseIdx h.sorted _, ?_⟩,
      fun m => SortedVec.mem_eraseIdx_iff h.sorted hn m, ?_⟩
    · have := h.length_le
      dsimp only
      omega
    · dsimp only
      omega
  · rw [if_neg hid]
    exact Or.inr ⟨rfl, fun n hn he => hid ((hasId_iff h id).2 ⟨n, hn, he⟩)⟩

lemma modify_ids (b : Bucket) (id : NodeId) (f : NodeUpdate) :
    (b.modify id f).nodes.map Node.id = b.nodes.map Node.id := by
  unfold modify
  split
  · dsimp only
    refine List.ext_getElem? fun i => ?_
    simp only [List.getElem?_map, List.getElem?_modify]
    cases b.nodes[i]? with
    | none => rfl
    | some n =>
      simp only [Option.map_some]
      split <;> simp [f.apply_id]
  · rfl

lemma valid_modify {b : Bucket} (h : b.Valid) (id : NodeId) (f : NodeUpdate) :
    (b.modify id f).Valid := by
  have hids := modify_ids b id f
  constructor
  · have := List.pairwise_map.2 h.sorted
    rw [← hids] at this
    exact List.pairwise_map.1 this
  · have := congrArg List.length hids
    simp only [List.length_map] at this
    exact this ▸ h.length_le

end Bucket

/-! ## The table -/

namespace Table

/-- The representation invariant: every bucket is sorted and not overfull, every node is in its
bucket, and the counter counts the nodes. -/
structure Coherent (t : Table) : Prop where
  valid : ∀ i, (t.buckets i).Valid
  placed : ∀ i, ∀ n ∈ (t.buckets i).nodes, bucketIndex t.id n.id = i
  size_eq : t.size = ∑ i, (t.buckets i).nodes.length

lemma Coherent.own_id_absent {t : Table} (h : t.Coherent) :
    ∀ i, ∀ n ∈ (t.buckets i).nodes, n.id ≠ t.id := by
  intro i n hn hid
  have hi := h.placed i n hn
  rw [hid] at hi
  have hlt : bucketIndex t.id t.id < idBits := hi ▸ i.isLt
  exact (bucketIndex_lt_iff t.id t.id).1 hlt rfl

lemma coherent_init (localId : NodeId) (onFull : Bool) (calls : List (ℕ × Node)) :
    Coherent { id := localId, onFull := onFull, fullCalls := calls } :=
  ⟨fun _ => Bucket.valid_empty, fun i n hn => by simp at hn, by simp⟩

lemma bucketOf_eq_some_iff (t : Table) (id : NodeId) (i : Fin idBits) :
    t.bucketOf id = some i ↔ bucketIndex t.id id = i := by
  unfold bucketOf
  split
  · rw [Option.some.injEq, Fin.ext_iff]
  · rename_i h
    exact iff_of_false (by simp) fun he => h (he ▸ i.isLt)

lemma bucketOf_eq_none_iff (t : Table) (id : NodeId) : t.bucketOf id = none ↔ id = t.id := by
  unfold bucketOf
  split
  · rename_i h
    exact iff_of_false (by simp) fun he => (bucketIndex_lt_iff _ _).1 h he.symm
  · rename_i h
    refine iff_of_true rfl ?_
    by_contra hne
    exact h ((bucketIndex_lt_iff _ _).2 fun he => hne he.symm)

/-- Some node of the table has the id. -/
def Holds (t : Table) (id : NodeId) : Prop := ∃ i, ∃ n ∈ (t.buckets i).nodes, n.id = id

/-- **Lookups in a coherent table find exactly the nodes of the table.** -/
lemma get_eq_some_iff {t : Table} (h : t.Coherent) (id : NodeId) (n : Node) :
    t.get id = some n ↔ (∃ i, n ∈ (t.buckets i).nodes) ∧ n.id = id := by
  unfold get
  cases hb : t.bucketOf id with
  | none =>
    rw [bucketOf_eq_none_iff] at hb
    refine iff_of_false (by simp) ?_
    rintro ⟨⟨i, hn⟩, rfl⟩
    exact h.own_id_absent i n hn hb
  | some i =>
    rw [bucketOf_eq_some_iff] at hb
    dsimp only
    rw [Bucket.get_eq_some_iff (h.valid i)]
    constructor
    · rintro ⟨hn, rfl⟩
      exact ⟨⟨i, hn⟩, rfl⟩
    · rintro ⟨⟨j, hn⟩, rfl⟩
      obtain rfl : j = i := Fin.ext ((h.placed j n hn).symm.trans hb)
      exact ⟨hn, rfl⟩

lemma has_iff_holds {t : Table} (h : t.Coherent) (id : NodeId) :
    t.has id = true ↔ t.Holds id := by
  simp only [has, Option.isSome_iff_exists, get_eq_some_iff h, Holds]
  constructor
  · rintro ⟨n, ⟨i, hn⟩, hid⟩
    exact ⟨i, n, hn, hid⟩
  · rintro ⟨i, n, hn, hid⟩
    exact ⟨n, ⟨i, hn⟩, hid⟩

lemma sum_length_update (f : Fin idBits → Bucket) (i : Fin idBits) (b : Bucket) :
    (∑ j, (Function.update f i b j).nodes.length) + (f i).nodes.length =
      (∑ j, (f j).nodes.length) + b.nodes.length := by
  have h1 := Finset.add_sum_erase Finset.univ
    (fun j => (Function.update f i b j).nodes.length) (Finset.mem_univ i)
  have h2 := Finset.add_sum_erase Finset.univ (fun j => (f j).nodes.length) (Finset.mem_univ i)
  have h3 : ∑ j ∈ Finset.univ.erase i, (Function.update f i b j).nodes.length =
      ∑ j ∈ Finset.univ.erase i, (f j).nodes.length := by
    refine Finset.sum_congr rfl fun j hj => ?_
    rw [Function.update_of_ne (Finset.ne_of_mem_erase hj)]
  simp only [Function.update_self] at h1
  omega

lemma Coherent.update {t : Table} (h : t.Coherent) {i : Fin idBits} {b : Bucket} {size : ℕ}
    (hb : b.Valid) (hplaced : ∀ n ∈ b.nodes, bucketIndex t.id n.id = i)
    (hsize : size + (t.buckets i).nodes.length = t.size + b.nodes.length) :
    Coherent { t with buckets := Function.update t.buckets i b, size := size } := by
  refine ⟨fun j => ?_, fun j n hn => ?_, ?_⟩
  · by_cases hj : j = i
    · subst hj; simpa using hb
    · simpa [Function.update_of_ne hj] using h.valid j
  · by_cases hj : j = i
    · subst hj; exact hplaced n (by simpa using hn)
    · exact h.placed j n (by simpa [Function.update_of_ne hj] using hn)
  · have := sum_length_update t.buckets i b
    have := h.size_eq
    dsimp only
    omega

lemma holds_update (t : Table) (i : Fin idBits) (b : Bucket) (size : ℕ) (id : NodeId) :
    Holds { t with buckets := Function.update t.buckets i b, size := size } id ↔
      (∃ n ∈ b.nodes, n.id = id) ∨ ∃ j, j ≠ i ∧ ∃ n ∈ (t.buckets j).nodes, n.id = id := by
  unfold Holds
  constructor
  · rintro ⟨j, n, hn, hid⟩
    by_cases hj : j = i
    · subst hj; exact Or.inl ⟨n, by simpa using hn, hid⟩
    · exact Or.inr ⟨j, hj, n, by simpa [Function.update_of_ne hj] using hn, hid⟩
  · rintro (⟨n, hn, hid⟩ | ⟨j, hj, n, hn, hid⟩)
    · exact ⟨i, n, by simpa using hn, hid⟩
    · exact ⟨j, n, by simpa [Function.update_of_ne hj] using hn, hid⟩

/-- **What `add` does to a coherent table**: it takes the node into the bucket of its id, or
leaves the buckets alone because the id is the own one, is there already, or its bucket is
full. -/
lemma add_cases {t : Table} (h : t.Coherent) (node : Node) :
    ((t.add node).2 = true ∧ ∃ i : Fin idBits, bucketIndex t.id node.id = i ∧
        (∀ n ∈ (t.buckets i).nodes, n.id ≠ node.id) ∧ (t.buckets i).nodes.length < K ∧
        (t.add node).1.Coherent ∧
        ((t.add node).1.buckets i).nodes.Perm (node :: (t.buckets i).nodes) ∧
        ∀ j, j ≠ i → (t.add node).1.buckets j = t.buckets j) ∨
      ((t.add node).2 = false ∧ (t.add node).1.Coherent ∧ (t.add node).1.buckets = t.buckets ∧
        (node.id = t.id ∨ ∃ i : Fin idBits, bucketIndex t.id node.id = i ∧
          ((∃ n ∈ (t.buckets i).nodes, n.id = node.id) ∨ K ≤ (t.buckets i).nodes.length))) := by
  unfold add
  by_cases hown : node.id = t.id
  · rw [if_pos hown]
    exact Or.inr ⟨rfl, h, rfl, Or.inl hown⟩
  · rw [if_neg hown]
    cases hb : t.bucketOf node.id with
    | none => exact absurd ((bucketOf_eq_none_iff t node.id).1 hb) hown
    | some i =>
      dsimp only
      have hi := (bucketOf_eq_some_iff t node.id i).1 hb
      rcases Bucket.add_cases (h.valid i) node with ⟨hok, hnew, hroom, hval, hperm⟩ | ⟨hno, hwhy⟩
      · rw [if_pos hok]
        refine Or.inl ⟨rfl, i, hi, hnew, hroom, h.update hval ?_ ?_, by simpa using hperm, ?_⟩
        · intro n hn
          rw [hperm.mem_iff, List.mem_cons] at hn
          rcases hn with rfl | hn
          · exact hi
          · exact h.placed i n hn
        · have := hperm.length_eq
          simp only [List.length_cons] at this
          omega
        · intro j hj
          exact Function.update_of_ne hj _ _
      · have hfalse : ((t.buckets i).add node).2 = false := by rw [hno]
        rw [if_neg (by simp [hfalse])]
        refine Or.inr ?_
        split
        · exact ⟨rfl, ⟨h.valid, h.placed, h.size_eq⟩, rfl, Or.inr ⟨i, hi, hwhy⟩⟩
        · exact ⟨rfl, h, rfl, Or.inr ⟨i, hi, hwhy⟩⟩

@[simp] lemma add_id (t : Table) (node : Node) : (t.add node).1.id = t.id := by
  unfold add
  split
  · rfl
  · split
    · rfl
    · split
      · rfl
      · split <;> rfl

lemma holds_add {t : Table} (h : t.Coherent) (node : Node) (id : NodeId) :
    (t.add node).1.Holds id ↔ t.Holds id ∨ ((t.add node).2 = true ∧ id = node.id) := by
  rcases add_cases h node with ⟨hok, i, -, -, -, -, hperm, hother⟩ | ⟨hno, -, hsame, -⟩
  · constructor
    · rintro ⟨j, n, hn, rfl⟩
      by_cases hj : j = i
      · subst hj
        rw [hperm.mem_iff, List.mem_cons] at hn
        rcases hn with rfl | hn
        · exact Or.inr ⟨hok, rfl⟩
        · exact Or.inl ⟨j, n, hn, rfl⟩
      · exact Or.inl ⟨j, n, hother j hj ▸ hn, rfl⟩
    · rintro (⟨j, n, hn, rfl⟩ | ⟨-, rfl⟩)
      · by_cases hj : j = i
        · subst hj
          exact ⟨j, n, hperm.mem_iff.2 (List.mem_cons_of_mem _ hn), rfl⟩
        · exact ⟨j, n, (hother j hj).symm ▸ hn, rfl⟩
      · exact ⟨i, node, hperm.mem_iff.2 List.mem_cons_self, rfl⟩
  · simp [Holds, hsame, hno]

/-- **What `remove` does to a coherent table**: the node with the id goes away. -/
lemma remove_spec {t : Table} (h : t.Coherent) (id : NodeId) :
    (t.remove id).1.Coherent ∧
      ∀ id', (t.remove id).1.Holds id' ↔ t.Holds id' ∧ id' ≠ id := by
  unfold remove
  cases hb : t.bucketOf id with
  | none =>
    refine ⟨h, fun id' => ?_⟩
    obtain rfl := (bucketOf_eq_none_iff t id).1 hb
    refine ⟨fun hh => ⟨hh, ?_⟩, And.left⟩
    obtain ⟨i, n, hn, rfl⟩ := hh
    exact h.own_id_absent i n hn
  | some i =>
    dsimp only
    have hi := (bucketOf_eq_some_iff t id i).1 hb
    have hne : ∀ j, j ≠ i → ∀ n ∈ (t.buckets j).nodes, n.id ≠ id := by
      rintro j hj n hn rfl
      exact hj (Fin.ext ((h.placed j n hn).symm.trans hi))
    rcases Bucket.remove_cases (h.valid i) id with ⟨hok, -, hval, hmem, hlen⟩ | ⟨hno, habs⟩
    · rw [if_pos hok]
      refine ⟨h.update hval (fun n hn => h.placed i n ((hmem n).1 hn).1) ?_, fun id' => ?_⟩
      · have hpos : 0 < t.size := by
          rw [h.size_eq]
          refine lt_of_lt_of_le ?_ (Finset.single_le_sum (f := fun j => (t.buckets j).nodes.length)
            (fun j _ => Nat.zero_le _) (Finset.mem_univ i))
          omega
        omega
      · rw [holds_update]
        constructor
        · rintro (⟨n, hn, rfl⟩ | ⟨j, hj, n, hn, rfl⟩)
          · exact ⟨⟨i, n, ((hmem n).1 hn).1, rfl⟩, ((hmem n).1 hn).2⟩
          · exact ⟨⟨j, n, hn, rfl⟩, hne j hj n hn⟩
        · rintro ⟨⟨j, n, hn, rfl⟩, hid⟩
          by_cases hj : j = i
          · subst hj; exact Or.inl ⟨n, (hmem n).2 ⟨hn, hid⟩, rfl⟩
          · exact Or.inr ⟨j, hj, n, hn, rfl⟩
    · have hfalse : ((t.buckets i).remove id).2 = false := by rw [hno]
      rw [if_neg (by simp [hfalse])]
      refine ⟨h, fun id' => ⟨fun hh => ⟨hh, ?_⟩, And.left⟩⟩
      obtain ⟨j, n, hn, rfl⟩ := hh
      by_cases hj : j = i
      · subst hj; exact habs n hn
      · exact hne j hj n hn

lemma modify_spec {t : Table} (h : t.Coherent) (id : NodeId) (f : NodeUpdate) :
    (t.modify id f).Coherent ∧ ∀ id', (t.modify id f).Holds id' ↔ t.Holds id' := by
  unfold modify
  cases hb : t.bucketOf id with
  | none => exact ⟨h, fun _ => Iff.rfl⟩
  | some i =>
    have hids := Bucket.modify_ids (t.buckets i) id f
    have hmem : ∀ id', (∃ n ∈ ((t.buckets i).modify id f).nodes, n.id = id') ↔
        ∃ n ∈ (t.buckets i).nodes, n.id = id' := by
      intro id'
      rw [← List.mem_map, hids, List.mem_map]
    refine ⟨?_, fun id' => ?_⟩
    · refine h.update (Bucket.valid_modify (h.valid i) id f) (fun n hn => ?_) ?_
      · obtain ⟨m, hm, hid⟩ := (hmem n.id).1 ⟨n, hn, rfl⟩
        exact hid ▸ h.placed i m hm
      · have := congrArg List.length hids
        simp only [List.length_map] at this
        omega
    · rw [holds_update, hmem]
      constructor
      · rintro (⟨n, hn, hid⟩ | ⟨j, -, n, hn, hid⟩)
        · exact ⟨i, n, hn, hid⟩
        · exact ⟨j, n, hn, hid⟩
      · rintro ⟨j, n, hn, hid⟩
        by_cases hj : j = i
        · subst hj; exact Or.inl ⟨n, hn, hid⟩
        · exact Or.inr ⟨j, hj, n, hn, hid⟩

lemma get_modify_self {t : Table} (h : t.Coherent) {id : NodeId} {n : Node} (f : NodeUpdate)
    (hget : t.get id = some n) : (t.modify id f).get id = some (f.apply n) := by
  cases hb : t.bucketOf id with
  | none => simp [get, hb] at hget
  | some i =>
    have hfound : (t.buckets i).get id = some n := by simpa [get, hb] using hget
    have hid : n.id = id := ((Bucket.get_eq_some_iff (h.valid i) id n).1 hfound).2
    refine (get_eq_some_iff (modify_spec h id f).1 id (f.apply n)).2
      ⟨⟨i, ?_⟩, (f.apply_id n).trans hid⟩
    have hmodify : (t.modify id f).buckets i = (t.buckets i).modify id f := by
      simp [modify, hb]
    have hhas : (t.buckets i).hasId id = true := by simp [Bucket.hasId, hfound]
    have hplace : (t.buckets i).nodes[(t.buckets i).findIndex id]? = some n := by
      have hfind : SortedVec.find? Node.id (t.buckets i).nodes id = some n := hfound
      simp only [SortedVec.find?, Option.filter_eq_some_iff] at hfind
      exact hfind.1
    rw [hmodify, Bucket.modify, if_pos hhas]
    refine List.mem_of_getElem? (i := (t.buckets i).findIndex id) ?_
    simp [hplace]

lemma get_add_self {t : Table} (h : t.Coherent) {node : Node} (hadd : (t.add node).2 = true) :
    (t.add node).1.get node.id = some node := by
  rcases add_cases h node with ⟨-, i, -, -, -, hcoherent, hperm, -⟩ | ⟨hno, -⟩
  · exact (get_eq_some_iff hcoherent node.id node).2
      ⟨⟨i, hperm.mem_iff.2 List.mem_cons_self⟩, rfl⟩
  · simp [hno] at hadd

/-! ### Traversals -/

lemma mem_allNodes (t : Table) (n : Node) :
    n ∈ t.allNodes ↔ ∃ i, n ∈ (t.buckets i).nodes := by
  simp [allNodes, bucketList]

lemma Coherent.nodup_ids {t : Table} (h : t.Coherent) : (t.allNodes.map Node.id).Nodup := by
  rw [allNodes, bucketList, List.map_flatMap, List.flatMap_map, List.nodup_flatMap]
  constructor
  · intro i _
    exact (List.pairwise_map.2 (h.valid i).sorted).imp fun hlt => hlt.ne
  · refine (List.nodup_finRange idBits).imp fun {i j} hij => ?_
    intro id hi hj
    obtain ⟨n, hn, rfl⟩ := List.mem_map.1 hi
    obtain ⟨m, hm, hid⟩ := List.mem_map.1 hj
    have hmj := h.placed j m hm
    rw [hid, h.placed i n hn] at hmj
    exact hij (Fin.ext hmj)

lemma randomWalk_isSome (bs : List Bucket) (n : ℕ)
    (h : n < (bs.map fun b => b.nodes.length).sum) : (randomWalk bs n).isSome := by
  induction bs generalizing n with
  | nil => simp at h
  | cons b bs ih =>
    simp only [List.map_cons, List.sum_cons] at h
    rw [randomWalk]
    split
    · rename_i hlt
      simp [List.getElem?_eq_getElem hlt]
    · exact ih _ (by omega)

lemma Coherent.random_isSome {t : Table} (h : t.Coherent) {n : ℕ} (hn : n < t.size) :
    (t.random n).isSome := by
  rw [random, if_neg (by omega)]
  refine randomWalk_isSome _ _ ?_
  rw [bucketList, List.map_map]
  rw [h.size_eq, Fin.sum_univ_def] at hn
  exact hn

end Table

/-! ## The rebuild -/

/-- The nodes of a traversal that a rebuild under a new own id keeps in bucket `i`: the first
`K` of those that belong there. -/
def keptBy (newId : NodeId) (nodes : List Node) (i : Fin idBits) : List Node :=
  (nodes.filter fun n => bucketIndex newId n.id = i).take K

lemma keptBy_concat_of_ne {newId : NodeId} {nodes : List Node} {n : Node} {i : Fin idBits}
    (h : bucketIndex newId n.id ≠ i) : keptBy newId (nodes ++ [n]) i = keptBy newId nodes i := by
  simp [keptBy, h]

/-- **Filing the nodes of a list into an empty table keeps, in every bucket, the first `K` that
belong there.**

**Proof sketch.** Induction on the list from the end. The last node changes only the bucket of
its id, where it is taken in when fewer than `K` nodes came before it. -/
theorem foldl_add_perm (t : Table) (ht : t.Coherent) (hempty : ∀ i, (t.buckets i).nodes = [])
    (nodes : List Node) (hnodup : (nodes.map Node.id).Nodup) :
    let t' := nodes.foldl (fun t node => (t.add node).1) t
    t'.Coherent ∧ t'.id = t.id ∧ ∀ i, (t'.buckets i).nodes.Perm (keptBy t.id nodes i) := by
  induction nodes using List.reverseRecOn with
  | nil => exact ⟨ht, rfl, fun i => by simp [hempty, keptBy]⟩
  | append_singleton nodes n ih =>
    rw [List.map_append, List.nodup_append] at hnodup
    obtain ⟨hcoh, hid, hperm⟩ := ih hnodup.1
    simp only [List.foldl_append, List.foldl_cons, List.foldl_nil]
    generalize nodes.foldl (fun t node => (t.add node).1) t = t' at hcoh hid hperm ⊢
    have hnew : ∀ m ∈ nodes, m.id ≠ n.id := fun m hm =>
      hnodup.2.2 m.id (List.mem_map_of_mem hm) n.id (by simp)
    have hlen : ∀ i, (t'.buckets i).nodes.length =
        min K (nodes.filter fun m => bucketIndex t.id m.id = i).length := by
      intro i
      rw [(hperm i).length_eq, keptBy, List.length_take]
    refine ⟨?_, by rw [Table.add_id, hid], ?_⟩
    · rcases Table.add_cases hcoh n with ⟨-, i, -, -, -, h, -⟩ | ⟨-, h, -⟩ <;> exact h
    · intro j
      rcases Table.add_cases hcoh n with
        ⟨-, i, hi, -, hroom, -, hperm', hother⟩ | ⟨-, -, hsame, hwhy⟩
      · rw [hid] at hi
        by_cases hj : j = i
        · -- the bucket of the new node has room for it
          subst hj
          have hshort : (nodes.filter fun m => bucketIndex t.id m.id = j).length < K := by
            have := hlen j
            omega
          refine hperm'.trans (((hperm j).cons n).trans ?_)
          simp only [keptBy, List.filter_append, List.filter_cons, hi, decide_true, if_true,
            List.filter_nil]
          rw [List.take_of_length_le hshort.le, List.take_of_length_le
            (by rw [List.length_append, List.length_singleton]; exact hshort)]
          exact @List.perm_append_comm _ [n] _
        · rw [hother j hj, keptBy_concat_of_ne fun h => hj (Fin.ext (h.symm.trans hi))]
          exact hperm j
      · rw [hsame]
        rw [hid] at hwhy
        rcases hwhy with hown | ⟨i, hi, hwhy⟩
        · -- the own id belongs to no bucket
          rw [keptBy_concat_of_ne fun h => ?_]
          · exact hperm j
          · exact (bucketIndex_lt_iff t.id n.id).1 (h ▸ j.isLt) hown.symm
        · by_cases hj : j = i
          · subst hj
            have hfull : K ≤ (nodes.filter fun m => bucketIndex t.id m.id = j).length := by
              rcases hwhy with ⟨m, hm, hmid⟩ | hfull
              · have hmem := List.mem_of_mem_take ((hperm j).mem_iff.1 hm)
                exact absurd hmid (hnew m (List.mem_of_mem_filter hmem))
              · have := hlen j
                omega
            have hsame' : keptBy t.id (nodes ++ [n]) j = keptBy t.id nodes j := by
              simp only [keptBy, List.filter_append]
              rw [List.take_append_of_le_length hfull]
            rw [hsame']
            exact hperm j
          · rw [keptBy_concat_of_ne fun h => hj (Fin.ext (h.symm.trans hi))]
            exact hperm j

/-- **The buckets after a rebuild hold exactly the nodes it keeps.** -/
theorem rebuildWithId_perm {t : Table} (h : t.Coherent) (newId : NodeId) :
    (t.rebuildWithId newId).Coherent ∧ (t.rebuildWithId newId).id = newId ∧
      ∀ i, ((t.rebuildWithId newId).buckets i).nodes.Perm (keptBy newId t.allNodes i) := by
  obtain ⟨hcoh, hid, hperm⟩ := foldl_add_perm
    { id := newId, onFull := false, fullCalls := t.fullCalls }
    (Table.coherent_init newId false t.fullCalls) (fun _ => rfl) t.allNodes h.nodup_ids
  exact ⟨⟨hcoh.valid, hcoh.placed, hcoh.size_eq⟩, hid, hperm⟩

/-! ## Reachable tables -/

/-- **Every call keeps the invariant.** -/
theorem coherent_step {t : Table} (h : t.Coherent) (op : TableOp) : (step t op).Coherent := by
  cases op with
  | add node => rcases Table.add_cases h node with ⟨-, i, -, -, -, h, -⟩ | ⟨-, h, -⟩ <;> exact h
  | remove id => exact (Table.remove_spec h id).1
  | rebuildWithId newId => exact (rebuildWithId_perm h newId).1
  | modify id f => exact (Table.modify_spec h id f).1

/-- The ids that are live after a call: an `add` that succeeds adds its id, a `remove` takes its
id away, and a rebuild drops the ids of the nodes it does not keep. -/
def liveStep (t : Table) (ids : Set NodeId) : TableOp → Set NodeId
  | .add node => if (t.add node).2 then insert node.id ids else ids
  | .remove id => ids \ {id}
  | .rebuildWithId newId => {id ∈ ids | ∃ i, ∃ n ∈ keptBy newId t.allNodes i, n.id = id}
  | .modify _ _ => ids

/-- The ids that the calls `ops` on the table `t` have added and not since removed or dropped,
from the ids `ids` on. -/
def live : Table → Set NodeId → List TableOp → Set NodeId
  | _, ids, [] => ids
  | t, ids, op :: ops => live (step t op) (liveStep t ids op) ops

lemma holds_step {t : Table} (h : t.Coherent) {ids : Set NodeId}
    (hids : ∀ id, t.Holds id ↔ id ∈ ids) (op : TableOp) (id : NodeId) :
    (step t op).Holds id ↔ id ∈ liveStep t ids op := by
  cases op with
  | add node =>
    simp only [step, liveStep]
    rw [Table.holds_add h, hids]
    split
    · rename_i hok
      simp [hok, or_comm]
    · rename_i hno
      simp [hno]
  | remove id' =>
    simp only [step, liveStep]
    rw [(Table.remove_spec h id').2, hids]
    rfl
  | rebuildWithId newId =>
    obtain ⟨-, -, hperm⟩ := rebuildWithId_perm h newId
    simp only [step, liveStep, Table.Holds, (hperm _).mem_iff, Set.mem_ofPred_eq]
    refine ⟨fun hk => ⟨?_, hk⟩, And.right⟩
    obtain ⟨i, n, hn, rfl⟩ := hk
    rw [← hids]
    have hmem := List.mem_of_mem_filter (List.mem_of_mem_take hn)
    obtain ⟨j, hj⟩ := (Table.mem_allNodes t n).1 hmem
    exact ⟨j, n, hj, rfl⟩
  | modify id' f =>
    simp only [step, liveStep]
    rw [(Table.modify_spec h id' f).2, hids]

lemma holds_run {t : Table} (h : t.Coherent) {ids : Set NodeId}
    (hids : ∀ id, t.Holds id ↔ id ∈ ids) (ops : List TableOp) (id : NodeId) :
    (run step t ops).Holds id ↔ id ∈ live t ids ops := by
  induction ops generalizing t ids with
  | nil => exact hids id
  | cons op ops ih => exact ih (coherent_step h op) fun id => holds_step h hids op id

/-- **The representation of the routing table.** After every history of calls on a fresh table:
the buckets are strictly increasing in the ids and have at most `K` nodes, every node is in the
bucket of its id, the own id is nowhere, and the counter is the number of nodes; a lookup returns
a node exactly when the history has added its id and not since removed or dropped it, and then a
node with that id; and a draw below the size gives a node. -/
theorem table_representation (localId : NodeId) (onFull : Bool) (ops : List TableOp) :
    let t := run step { id := localId, onFull := onFull } ops
    ((∀ i, (t.buckets i).nodes.Pairwise fun a b => a.id < b.id) ∧
      (∀ i, (t.buckets i).nodes.length ≤ K) ∧
      (∀ i, ∀ n ∈ (t.buckets i).nodes, bucketIndex t.id n.id = i) ∧
      (∀ i, ∀ n ∈ (t.buckets i).nodes, n.id ≠ t.id) ∧
      t.size = ∑ i, (t.buckets i).nodes.length) ∧
    (∀ id, (t.get id).isSome ↔ id ∈ live { id := localId, onFull := onFull } ∅ ops) ∧
    (∀ id, t.has id = true ↔ id ∈ live { id := localId, onFull := onFull } ∅ ops) ∧
    (∀ id n, t.get id = some n → n.id = id ∧ ∃ i, n ∈ (t.buckets i).nodes) ∧
    ∀ n, n < t.size → (t.random n).isSome := by
  intro t
  have hinit := Table.coherent_init localId onFull []
  have hcoh : t.Coherent :=
    run_invariant (P := Table.Coherent) (fun _ op h => coherent_step h op) hinit ops
  have hlive : ∀ id, t.has id = true ↔ id ∈ live { id := localId, onFull := onFull } ∅ ops := by
    intro id
    rw [Table.has_iff_holds hcoh]
    exact holds_run hinit (by simp [Table.Holds]) ops id
  refine ⟨⟨fun i => (hcoh.valid i).sorted, fun i => (hcoh.valid i).length_le, hcoh.placed,
    hcoh.own_id_absent, hcoh.size_eq⟩, hlive, hlive, fun id n hget => ?_, fun n hn =>
    hcoh.random_isSome hn⟩
  exact ((Table.get_eq_some_iff hcoh id n).1 hget).symm

end HyperDHT.Routing
