import HyperDHT.Routing.Invariant

/-!
# Changing the own id

When a node becomes persistent, its routing table is rebuilt under a new own id. Every node may move to another
bucket, and several old buckets may meet in one that has no room for all of their nodes.

## Main definitions

* `Routing.TableInput` — the calls of the table, and the setter of its callback.
* `Routing.Table.before` — the nodes that come before a node in the traversal and go to the same new bucket.
* `Routing.KeepsNodes` — what a rebuild keeps.

## Main results

* `Routing.keepsNodes_rebuildWithId` — every rebuild of every reachable table keeps the nodes, and suspends the
  callback.
-/

set_option autoImplicit false

namespace HyperDHT.Routing

open Runs

/-- The mutating calls of the table, and `on_full`, which installs or takes out the callback. -/
inductive TableInput where
  | call (op : TableOp)
  | onFull (installed : Bool)

/-- The table after an input. -/
def inputStep (t : Table) : TableInput → Table
  | .call op => step t op
  | .onFull installed => { t with onFull := installed }

namespace Table

/-- The nodes that come before a node in the traversal, of those that go to its bucket under the new id. -/
def before (t : Table) (newId : NodeId) (n : Node) : List Node :=
  (t.allNodes.takeWhile (· ≠ n)).filter fun m => bucketIndex newId m.id = bucketIndex newId n.id

/-- The order of a traversal: the bucket, then the id. -/
def Earlier (t : Table) (a b : Node) : Prop :=
  bucketIndex t.id a.id < bucketIndex t.id b.id ∨ bucketIndex t.id a.id = bucketIndex t.id b.id ∧ a.id < b.id

end Table

/-- What becomes of the nodes of a table `t` under a new id, in a table `t'`: the nodes that are not the new id, and
before which in the old traversal there are fewer than `K` of the same new bucket, are there once and unchanged, and
no others. The callback is not called, and is installed as before. -/
structure KeepsNodes (t t' : Table) (newId : NodeId) : Prop where
  id : t'.id = newId
  traversal : t.allNodes.Pairwise t.Earlier
  kept : ∀ n, n ∈ t'.allNodes ↔ n ∈ t.allNodes ∧ n.id ≠ newId ∧ (t.before newId n).length < K
  once : t'.allNodes.Nodup
  size : t'.size = t'.allNodes.length
  fullCalls : t'.fullCalls = t.fullCalls
  onFull : t'.onFull = t.onFull

/-! ## The callback -/

namespace Table

lemma add_onFull (t : Table) (node : Node) : (t.add node).1.onFull = t.onFull := by
  unfold add
  split
  · rfl
  split
  · rfl
  split
  · rfl
  split <;> rfl

lemma add_fullCalls {t : Table} (h : t.onFull = false) (node : Node) :
    (t.add node).1.fullCalls = t.fullCalls := by
  unfold add
  split
  · rfl
  split
  · rfl
  split
  · rfl
  · rw [h]
    rfl

lemma foldl_add_fullCalls {t : Table} (h : t.onFull = false) (nodes : List Node) :
    (nodes.foldl (fun t node => (t.add node).1) t).fullCalls = t.fullCalls := by
  induction nodes generalizing t with
  | nil => rfl
  | cons node nodes ih =>
    rw [List.foldl_cons, ih ((add_onFull t node).trans h), add_fullCalls h]

/-! ## The old traversal -/

/-- **The traversal is in order**: by bucket, then by id. -/
lemma Coherent.pairwise_allNodes {t : Table} (h : t.Coherent) : t.allNodes.Pairwise t.Earlier := by
  rw [allNodes, bucketList, List.flatMap_map, List.pairwise_flatMap]
  constructor
  · intro i _
    refine List.Pairwise.imp_of_mem (fun {a b} ha hb hlt => ?_) (h.valid i).sorted
    exact Or.inr ⟨by rw [h.placed i a ha, h.placed i b hb], hlt⟩
  · refine (List.pairwise_lt_finRange idBits).imp fun {i j} hij a ha b hb => ?_
    rw [Earlier, h.placed i a ha, h.placed j b hb]
    exact Or.inl hij

lemma Coherent.size_eq_length {t : Table} (h : t.Coherent) : t.size = t.allNodes.length := by
  rw [h.size_eq, Fin.sum_univ_def, allNodes, bucketList, List.length_flatMap, List.map_map]
  rfl

end Table

/-- **The first few of a kind**: those before which there are fewer of the kind. -/
lemma mem_take_filter_iff {α : Type*} [DecidableEq α] (p : α → Bool) (n : α) (nodes : List α) (k : ℕ) :
    n ∈ (nodes.filter p).take k ↔
      n ∈ nodes ∧ p n = true ∧ ((nodes.takeWhile (· ≠ n)).filter p).length < k := by
  induction nodes generalizing k with
  | nil => simp
  | cons m nodes ih =>
    by_cases hm : m = n
    · -- nothing comes before the first node
      rw [hm, List.takeWhile_cons_of_neg (by simp), List.filter_nil, List.length_nil]
      cases hn : p n with
      | false =>
        have hnot : n ∉ (nodes.filter p).take k := fun hmem => by
          have hkind := List.of_mem_filter (List.mem_of_mem_take hmem)
          simp [hn] at hkind
        simp [hn, hnot]
      | true => cases k <;> simp [hn]
    · rw [List.takeWhile_cons_of_pos (by simpa using hm)]
      cases hkind : p m with
      | false => simp [hkind, ih k, Ne.symm hm]
      | true =>
        cases k with
        | zero => simp
        | succ k => simp [hkind, ih k, Ne.symm hm]

/-- **What a rebuild keeps**, of a coherent table. -/
lemma Table.Coherent.keepsNodes {t : Table} (h : t.Coherent) (newId : NodeId) :
    KeepsNodes t (t.rebuildWithId newId) newId := by
  obtain ⟨hcoherent, hid, hperm⟩ := rebuildWithId_perm h newId
  refine ⟨hid, h.pairwise_allNodes, fun n => ?_, List.Nodup.of_map Node.id hcoherent.nodup_ids,
    hcoherent.size_eq_length, ?_, rfl⟩
  · have hmem (i : Fin idBits) : n ∈ ((t.rebuildWithId newId).buckets i).nodes ↔
        n ∈ t.allNodes ∧ bucketIndex newId n.id = i ∧ (t.before newId n).length < K := by
      rw [(hperm i).mem_iff, keptBy, mem_take_filter_iff, decide_eq_true_iff]
      refine and_congr_right fun _ => and_congr_right fun hi => ?_
      rw [Table.before, hi]
    rw [Table.mem_allNodes]
    simp only [hmem]
    constructor
    · rintro ⟨i, hn, hi, hbefore⟩
      have hlt : bucketIndex newId n.id < idBits := hi ▸ i.isLt
      exact ⟨hn, fun hown => (bucketIndex_lt_iff newId n.id).1 hlt hown.symm, hbefore⟩
    · rintro ⟨hn, hown, hbefore⟩
      have hlt := (bucketIndex_lt_iff newId n.id).2 (Ne.symm hown)
      exact ⟨⟨_, hlt⟩, hn, rfl, hbefore⟩
  · rw [Table.rebuildWithId]
    exact Table.foldl_add_fullCalls rfl t.allNodes

/-- **Every input keeps the invariant.** -/
lemma coherent_inputStep {t : Table} (h : t.Coherent) (i : TableInput) : (inputStep t i).Coherent := by
  cases i with
  | call op => exact coherent_step h op
  | onFull installed => exact ⟨h.valid, h.placed, h.size_eq⟩

/-- **What a rebuild keeps**, in every reachable table. -/
theorem keepsNodes_rebuildWithId (localId : NodeId) (inputs : List TableInput) (newId : NodeId) :
    KeepsNodes (run inputStep { id := localId } inputs)
      ((run inputStep { id := localId } inputs).rebuildWithId newId) newId := by
  have hcoherent : (run inputStep { id := localId } inputs).Coherent :=
    run_invariant (P := Table.Coherent) (fun _ i h => coherent_inputStep h i)
      (Table.coherent_init localId false []) inputs
  exact hcoherent.keepsNodes newId

end HyperDHT.Routing
