import HyperDHT.Lib.Traversal
import HyperDHT.Routing.Invariant

/-!
# The closest nodes of a routing table

`RoutingTable::closest` visits the bucket of the target, the buckets after it and then the buckets
before it, stops at `count` nodes, and only then sorts by distance. The nodes of a bucket come in
the order of their ids, which is not that of their distances, and the buckets after that of the
target are not in the order of their distances either. So the nodes that are left out may be
nearer than those that were taken.

## Main definitions

* `Routing.ClosestNodes` — a list of the nodes with the smallest distances, in order.
* `Routing.Table.room` — the room that is left when the search reaches a bucket.
* `Routing.CutsWell` — the search is not cut where the order of the ids or that of the buckets
  differs from the order of the distances.

## Main results

* `Routing.closestNodes_iff_cutsWell` — the search finds the closest nodes exactly then.
* `Routing.not_closestNodes_twoNodes` — a table that holds the target itself, and a search for one
  node that returns the other one.

## Design

Two nodes are compared at the first bit in which their ids differ. Within a bucket the node that
comes first has a zero there, and of the buckets `i < j` after that of the target the nodes of `i`
are nearer exactly if the target differs from the own id in bit `i`.
-/

set_option autoImplicit false

namespace HyperDHT.Routing

open Runs

/-- The list has the `count` nodes of the table with the smallest distances from the target, or
all nodes if there are fewer, with strictly increasing distances (so that none is repeated). -/
structure ClosestNodes (t : Table) (target : NodeId) (count : ℕ) (nodes : List Node) : Prop where
  length : nodes.length = min count t.size
  mem : ∀ n ∈ nodes, n ∈ t.allNodes
  increasing : nodes.Pairwise fun a b => target.xor a.id < target.xor b.id
  nearest : ∀ a ∈ nodes, ∀ b ∈ t.allNodes, b ∉ nodes → target.xor a.id < target.xor b.id

namespace Table

/-- The bucket at which the search for a target starts. -/
def start (t : Table) (target : NodeId) : ℕ := min (bucketIndex t.id target) (idBits - 1)

/-- The buckets in the order in which the search visits them. -/
def visited (t : Table) (target : NodeId) : List (Fin idBits) :=
  (List.finRange idBits).drop (t.start target) ++
    ((List.finRange idBits).take (t.start target)).reverse

/-- The room that is left when the search for `count` nodes reaches the bucket `i`: `count` less
the nodes of the buckets that are visited before. -/
def room (t : Table) (target : NodeId) (count : ℕ) (i : Fin idBits) : ℕ :=
  Traversal.room (fun i => (t.buckets i).nodes) (t.visited target) count i

end Table

/-- The search for `count` nodes is cut well.

Inside a bucket that is cut, a node before the cut and a node after it first differ in a bit that
is zero in the target. And if a bucket `i` after that of the target has a node before the cut, and
a later one has a node after it, the target differs from the own id in bit `i`. -/
structure CutsWell (t : Table) (target : NodeId) (count : ℕ) : Prop where
  inside : ∀ i, ∀ a ∈ (t.buckets i).nodes.take (t.room target count i),
    ∀ b ∈ (t.buckets i).nodes.drop (t.room target count i),
      target.bit (bucketIndex a.id b.id) = false
  across : ∀ i j : Fin idBits, t.start target < i.val → i < j →
    (t.buckets i).nodes.take (t.room target count i) ≠ [] →
    (t.buckets j).nodes.drop (t.room target count j) ≠ [] → target.bit i ≠ t.id.bit i

/-! ## The order of the buckets -/

/-- The order in which the search visits the buckets. -/
def VisitedBefore (d : ℕ) (i j : Fin idBits) : Prop :=
  (d ≤ i.val ∧ i < j) ∨ (j.val < d ∧ (d ≤ i.val ∨ j < i))

lemma mem_drop_finRange {d : ℕ} {i : Fin idBits} (h : i ∈ (List.finRange idBits).drop d) :
    d ≤ i.val := by
  obtain ⟨k, hk, rfl⟩ := List.mem_iff_getElem.1 h
  simp

lemma mem_take_finRange {d : ℕ} {i : Fin idBits} (h : i ∈ (List.finRange idBits).take d) :
    i.val < d := by
  obtain ⟨k, hk, rfl⟩ := List.mem_iff_getElem.1 h
  rw [List.length_take] at hk
  simp
  omega

lemma pairwise_visited (t : Table) (target : NodeId) :
    (t.visited target).Pairwise (VisitedBefore (t.start target)) := by
  have hlt : (List.finRange idBits).Pairwise (· < ·) := List.pairwise_lt_finRange idBits
  refine List.pairwise_append.2 ⟨?_, ?_, ?_⟩
  · refine (hlt.sublist (List.drop_sublist _ _)).imp_of_mem fun hi _ hij => ?_
    exact Or.inl ⟨mem_drop_finRange hi, hij⟩
  · refine List.pairwise_reverse.2 ((hlt.sublist (List.take_sublist _ _)).imp_of_mem
      fun hi _ hij => ?_)
    exact Or.inr ⟨mem_take_finRange hi, Or.inr hij⟩
  · intro i hi j hj
    exact Or.inr ⟨mem_take_finRange (List.mem_reverse.1 hj), Or.inl (mem_drop_finRange hi)⟩

lemma visited_perm (t : Table) (target : NodeId) :
    (t.visited target).Perm (List.finRange idBits) := by
  refine ((List.Perm.refl _).append (List.reverse_perm _)).trans (List.perm_append_comm.trans ?_)
  rw [List.take_append_drop]

lemma nodup_visited (t : Table) (target : NodeId) : (t.visited target).Nodup :=
  (visited_perm t target).nodup_iff.2 (List.nodup_finRange _)

lemma mem_visited (t : Table) (target : NodeId) (i : Fin idBits) : i ∈ t.visited target :=
  (visited_perm t target).mem_iff.2 (List.mem_finRange i)

/-- The nodes in the order in which the search visits them. -/
def nodesVisited (t : Table) (target : NodeId) : List Node :=
  (t.visited target).flatMap fun i => (t.buckets i).nodes

lemma closest_eq (t : Table) (target : NodeId) (count : ℕ) :
    t.closest target count = ((nodesVisited t target).take count).insertionSort
      fun a b => compareDistance target a.id b.id ≤ 0 := by
  rw [Table.closest, nodesVisited, Table.visited, List.flatMap_append]
  simp only [Table.bucketList, Table.start, ← List.map_drop, ← List.map_take, ← List.map_reverse,
    List.flatMap_map]

lemma nodesVisited_perm (t : Table) (target : NodeId) :
    (nodesVisited t target).Perm t.allNodes := by
  rw [nodesVisited, Table.allNodes, Table.bucketList, List.flatMap_map]
  exact (visited_perm t target).flatMap_right _

lemma length_allNodes {t : Table} (h : t.Coherent) : t.allNodes.length = t.size := by
  rw [Table.allNodes, Table.bucketList, List.flatMap_map, List.length_flatMap, h.size_eq,
    Fin.sum_univ_def]

/-! ## Nearer nodes -/

lemma Table.Coherent.firstDiff {t : Table} (h : t.Coherent) {i : Fin idBits} {n : Node}
    (hn : n ∈ (t.buckets i).nodes) : FirstDiff t.id.bit n.id.bit i := by
  rw [← h.placed i n hn]
  exact firstDiff_bucketIndex (Ne.symm (h.own_id_absent i n hn))

lemma nearer_iff {t : Table} (h : t.Coherent) {i j : Fin idBits} (hij : i < j) {a b : Node}
    (ha : a ∈ (t.buckets i).nodes) (hb : b ∈ (t.buckets j).nodes) (target : NodeId) :
    target.xor a.id < target.xor b.id ↔ target.bit i ≠ t.id.bit i := by
  have hab := (h.firstDiff ha).of_lt (h.firstDiff hb) hij
  have hne : a.id ≠ b.id := fun heq => hab.differ (by rw [heq])
  rw [xor_lt_iff hne, (firstDiff_bucketIndex hne).unique hab]
  have hdiff := (h.firstDiff ha).differ
  cases ht : target.bit i <;> cases ho : t.id.bit i <;> cases hbit : a.id.bit i <;> simp_all

lemma nearer_iff' {t : Table} (h : t.Coherent) {i j : Fin idBits} (hij : i < j) {a b : Node}
    (ha : a ∈ (t.buckets j).nodes) (hb : b ∈ (t.buckets i).nodes) (target : NodeId) :
    target.xor a.id < target.xor b.id ↔ target.bit i = t.id.bit i := by
  have hba := (h.firstDiff hb).of_lt (h.firstDiff ha) hij
  have hne : a.id ≠ b.id := fun heq => hba.differ (by rw [heq])
  rw [xor_lt_iff hne, (firstDiff_bucketIndex hne).unique hba.symm,
    ← (h.firstDiff ha).agree i hij, eq_comm]

lemma nearer_iff_of_take_drop {b : Bucket} (h : b.Valid) {k : ℕ} {m n : Node}
    (hm : m ∈ b.nodes.take k) (hn : n ∈ b.nodes.drop k) (target : NodeId) :
    target.xor m.id < target.xor n.id ↔ target.bit (bucketIndex m.id n.id) = false := by
  have hsorted : (b.nodes.take k ++ b.nodes.drop k).Pairwise fun m n => m.id < n.id := by
    rw [List.take_append_drop]
    exact h.sorted
  have hlt := (List.pairwise_append.1 hsorted).2.2 m hm n hn
  rw [xor_lt_iff hlt.ne, (lt_iff_bit hlt.ne).1 hlt, eq_comm]

lemma agree_start (t : Table) (target : NodeId) {i : ℕ} (h : i < t.start target) :
    target.bit i = t.id.bit i := by
  by_cases heq : t.id = target
  · rw [heq]
  · exact ((firstDiff_bucketIndex heq).agree i (lt_of_lt_of_le h (min_le_left _ _))).symm

lemma differ_start (t : Table) (target : NodeId) (h : t.start target < idBits - 1) :
    target.bit (t.start target) ≠ t.id.bit (t.start target) := by
  have hstart : t.start target = bucketIndex t.id target := by
    rw [Table.start] at h ⊢
    omega
  have hne : t.id ≠ target := (bucketIndex_lt_iff _ _).1 (by omega)
  rw [hstart]
  exact (firstDiff_bucketIndex hne).differ.symm

lemma nearer_of_visitedBefore {t : Table} (h : t.Coherent) {target : NodeId} {i j : Fin idBits}
    (hij : VisitedBefore (t.start target) i j)
    (hafter : t.start target < i.val → i < j → target.bit i ≠ t.id.bit i) {a b : Node}
    (ha : a ∈ (t.buckets i).nodes) (hb : b ∈ (t.buckets j).nodes) :
    target.xor a.id < target.xor b.id := by
  rcases hij with ⟨hi, hlt⟩ | ⟨hj, hi⟩
  · rw [nearer_iff h hlt ha hb]
    rcases Nat.eq_or_lt_of_le hi with heq | hgt
    · rw [← heq]
      exact differ_start t target (by have := j.isLt; have : i.val < j.val := hlt; omega)
    · exact hafter hgt hlt
  · have hlt : j < i := by
      rcases hi with hi | hi
      · exact lt_of_lt_of_le (b := (⟨t.start target, lt_of_le_of_lt hi i.isLt⟩ : Fin idBits)) hj hi
      · exact hi
    rw [nearer_iff' h hlt ha hb]
    exact agree_start t target hj

/-! ## The search -/

/-- **The search finds the closest nodes of a coherent table exactly if it is cut well.** -/
theorem closestNodes_closest_iff {t : Table} (h : t.Coherent) (target : NodeId) (count : ℕ) :
    ClosestNodes t target count (t.closest target count) ↔ CutsWell t target count := by
  have hperm := nodesVisited_perm t target
  have hsmallest : ClosestNodes t target count (t.closest target count) ↔
      Traversal.Smallest (fun n : Node => target.xor n.id) count (nodesVisited t target)
        (t.closest target count) := by
    have hlength : (nodesVisited t target).length = t.size :=
      hperm.length_eq.trans (length_allNodes h)
    constructor
    · intro hc
      exact ⟨hlength ▸ hc.length, fun a ha => hperm.mem_iff.2 (hc.mem a ha), hc.increasing,
        fun a ha b hb => hc.nearest a ha b (hperm.mem_iff.1 hb)⟩
    · intro hs
      exact ⟨hlength ▸ hs.length, fun a ha => hperm.mem_iff.1 (hs.mem a ha), hs.increasing,
        fun a ha b hb => hs.smallest a ha b (hperm.mem_iff.2 hb)⟩
  have hle : ∀ a b : Node, compareDistance target a.id b.id ≤ 0 ↔
      target.xor a.id ≤ target.xor b.id := by
    intro a b
    rcases compareDistance_cases target a.id b.id with ⟨hc, hd⟩ | ⟨hc, hd⟩ | ⟨hc, hd⟩
    · simp [hc, hd.le]
    · simp [hc, hd]
    · simp [hc, hd]
  have hids : ((nodesVisited t target).map fun n => target.xor n.id).Nodup := by
    have hnodup : ((nodesVisited t target).map Node.id).Nodup :=
      (hperm.map Node.id).nodup_iff.2 h.nodup_ids
    have hmap := hnodup.map (xor_injective target)
    rwa [List.map_map] at hmap
  rw [hsmallest, closest_eq, Traversal.smallest_insertionSort_take_iff hle count hids]
  have hnodup := nodup_visited t target
  constructor
  · intro hcut
    refine ⟨fun i a ha b hb => ?_, fun i j hi hij htake hdrop => ?_⟩
    · rw [← nearer_iff_of_take_drop (h.valid i) ha hb]
      exact hcut a ((Traversal.mem_take_flatMap hnodup count a).2 ⟨i, mem_visited t target i, ha⟩)
        b ((Traversal.mem_drop_flatMap hnodup count b).2 ⟨i, mem_visited t target i, hb⟩)
    · obtain ⟨a, ha⟩ := List.exists_mem_of_ne_nil _ htake
      obtain ⟨b, hb⟩ := List.exists_mem_of_ne_nil _ hdrop
      rw [← nearer_iff h hij (List.mem_of_mem_take ha) (List.mem_of_mem_drop hb)]
      exact hcut a ((Traversal.mem_take_flatMap hnodup count a).2 ⟨i, mem_visited t target i, ha⟩)
        b ((Traversal.mem_drop_flatMap hnodup count b).2 ⟨j, mem_visited t target j, hb⟩)
  · intro hcut a ha b hb
    obtain ⟨i, hi, ha⟩ := (Traversal.mem_take_flatMap hnodup count a).1 ha
    obtain ⟨j, hj, hb⟩ := (Traversal.mem_drop_flatMap hnodup count b).1 hb
    by_cases hij : i = j
    · subst hij
      exact (nearer_iff_of_take_drop (h.valid i) ha hb target).2 (hcut.inside i a ha b hb)
    · have htake := List.ne_nil_of_mem ha
      have hdrop := List.ne_nil_of_mem hb
      have hbefore := Traversal.rel_of_room (pairwise_visited t target) hnodup hi hj hij htake hdrop
      exact nearer_of_visitedBefore h hbefore
        (fun hstart hlt => hcut.across i j hstart hlt htake hdrop)
        (List.mem_of_mem_take ha) (List.mem_of_mem_drop hb)

/-- **The closest nodes of a reachable table**: after any calls on a fresh table, for every target
and every count, the search returns exactly the closest nodes if and only if it is cut well. -/
theorem closestNodes_iff_cutsWell (localId : NodeId) (onFull : Bool) (ops : List TableOp)
    (target : NodeId) (count : ℕ) :
    ClosestNodes (run step { id := localId, onFull := onFull } ops) target count
        ((run step { id := localId, onFull := onFull } ops).closest target count) ↔
      CutsWell (run step { id := localId, onFull := onFull } ops) target count := by
  refine closestNodes_closest_iff ?_ target count
  exact run_invariant (P := Table.Coherent) (fun _ op h => coherent_step h op)
    (Table.coherent_init localId onFull []) ops

/-- A node whose id has the first byte 128 and the last byte `b`. -/
def nodeAt (b : UInt8) : Node :=
  { id := ⟨⟨128 :: (List.replicate 30 0 ++ [b]), by simp⟩⟩ }

def twoNodes : Table := run step { id := NodeId.zero } [.add (nodeAt 0), .add (nodeAt 1)]

/-- The search for one node at the id of the second node returns the first one, because its id is
the lesser one. -/
theorem not_closestNodes_twoNodes :
    ¬ ClosestNodes twoNodes (nodeAt 1).id 1 (twoNodes.closest (nodeAt 1).id 1) := by
  have hclosest : twoNodes.closest (nodeAt 1).id 1 = [nodeAt 0] := by decide +kernel
  have hmem : nodeAt 1 ∈ twoNodes.allNodes := by decide +kernel
  rw [hclosest]
  intro h
  have hlt := h.nearest (nodeAt 0) (by simp) (nodeAt 1) hmem (by decide +kernel)
  exact absurd hlt (by decide +kernel)

end HyperDHT.Routing
