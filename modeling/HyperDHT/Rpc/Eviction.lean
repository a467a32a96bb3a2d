import HyperDHT.Rpc.Node

/-!
# Which node the hook pings

The hook for full buckets (`on_bucket_full`) chooses the node it pings from the bucket alone. The
choice is stated here as a function of the state, and what adding a node does to the engine and to
the counters is told in terms of it.

## Main definitions

* `Rpc.RpcNode.swapVictim` — the node of a bucket that the hook pings.
* `Rpc.RpcNode.displaced` — the node that is pinged when a node is added.

## Main results

* `Rpc.RpcNode.onBucketFull_eq` — the hook starts a swap of exactly this node.
* `Rpc.RpcNode.swapVictim_spec` — it is a node of the bucket that was not pinged in this tick.
* `Rpc.RpcNode.tableAdd_none`, `Rpc.RpcNode.tableAdd_some` — adding a node that displaces none, and
  one that displaces some node.
-/

set_option autoImplicit false

namespace HyperDHT.Rpc.RpcNode

open Compact Routing

variable {s : RpcNode}

/-- The node that the hook for full buckets pings, if it starts a swap. -/
def swapVictim (s : RpcNode) (bucketIdx : ℕ) : Option Node :=
  if !s.bootstrapped then none
  else if s.repinging ≥ maxRepinging then none
  else
    (oldestCandidate s.tick (bucketNodes s.table bucketIdx)).filter fun oldest =>
      ¬ (s.tick - oldest.pinged < recentNodeTicks ∧ s.tick - oldest.added > oldNodeTicks)

/-- The node that is pinged when `node` is added to the table: the victim of its bucket, if `node`
is there already or finds the bucket full. -/
def displaced (s : RpcNode) (node : Node) : Option Node :=
  match s.table.bucketOf node.id with
  | none => none
  | some i =>
    if (s.table.buckets i).hasId node.id || (s.table.buckets i).isFull then s.swapVictim i
    else none

lemma onBucketFull_eq (s : RpcNode) (bucketIdx : ℕ) (newNode : Node) :
    s.onBucketFull bucketIdx newNode =
      match s.swapVictim bucketIdx with
      | none => s
      | some oldest => s.repingAndSwap newNode oldest := by
  unfold onBucketFull swapVictim
  split
  · rfl
  · split
    · rfl
    · cases oldestCandidate s.tick (bucketNodes s.table bucketIdx) with
      | none => rfl
      | some oldest =>
        by_cases hkeep : s.tick - oldest.pinged < recentNodeTicks ∧
            s.tick - oldest.added > oldNodeTicks
        · simp [hkeep, Option.filter]
        · simp [hkeep, Option.filter]

lemma oldestCandidate_spec {tick : UInt32} {nodes : List Node} {oldest : Node}
    (h : oldestCandidate tick nodes = some oldest) : oldest ∈ nodes ∧ oldest.pinged ≠ tick := by
  refine List.foldlRecOn nodes _
    (motive := fun found => ∀ n, found = some n → n ∈ nodes ∧ n.pinged ≠ tick)
    (by simp) (fun found hfound a ha n hn => ?_) oldest h
  by_cases hpinged : a.pinged = tick
  · rw [if_pos hpinged] at hn
    exact hfound n hn
  · rw [if_neg hpinged] at hn
    cases found with
    | none =>
      obtain rfl : a = n := Option.some.inj hn
      exact ⟨ha, hpinged⟩
    | some o =>
      dsimp only at hn
      split at hn
      · obtain rfl : a = n := Option.some.inj hn
        exact ⟨ha, hpinged⟩
      · exact hfound n hn

/-- **The victim of a bucket** is a node of the table that was not pinged in this tick; there is one
only while fewer than three swaps are under way. -/
theorem swapVictim_spec {bucketIdx : ℕ} {oldest : Node}
    (h : s.swapVictim bucketIdx = some oldest) :
    s.repinging < maxRepinging ∧ oldest.pinged ≠ s.tick ∧
      ∃ i : Fin idBits, oldest ∈ (s.table.buckets i).nodes := by
  unfold swapVictim at h
  split at h
  · simp at h
  · split at h
    · simp at h
    · next hbudget =>
      obtain ⟨hmem, hpinged⟩ := oldestCandidate_spec (Option.eq_some_of_filter_eq_some h)
      refine ⟨not_le.1 hbudget, hpinged, ?_⟩
      unfold bucketNodes at hmem
      split at hmem
      · next hidx => exact ⟨⟨bucketIdx, hidx⟩, hmem⟩
      · simp at hmem

lemma displaced_spec {node oldest : Node} (h : s.displaced node = some oldest) :
    s.repinging < maxRepinging ∧ oldest.pinged ≠ s.tick ∧
      ∃ i : Fin idBits, oldest ∈ (s.table.buckets i).nodes := by
  unfold displaced at h
  split at h
  · simp at h
  · split at h
    · exact swapVictim_spec h
    · simp at h

lemma bucket_add_snd (b : Bucket) (node : Node) :
    (b.add node).2 = !(b.hasId node.id || b.isFull) := by
  unfold Bucket.add
  split
  · next hhas => simp [hhas]
  · next hhas =>
    split
    · next hfull => simp [hfull]
    · next hroom => simp_all

/-- **What `table_.add` does**: it adds the node or ignores it, and pings no one, or the bucket
refuses the node and the hook is called for that bucket. -/
lemma tableAdd_eq (hhook : s.table.onFull = true) (node : Node) :
    (s.displaced node = none ∧
      (s.tableAdd node).1 = { s with table := (s.table.add node).1 }) ∨
    ∃ i, s.displaced node = s.swapVictim i ∧ (s.tableAdd node).1 = s.hooked i node := by
  cases hb : s.table.bucketOf node.id with
  | none =>
    have hown := (Table.bucketOf_eq_none_iff s.table node.id).1 hb
    exact .inl ⟨by simp [displaced, hb], by simp [tableAdd, Table.add, hown]⟩
  | some i =>
    have hown : node.id ≠ s.table.id := fun heq => by
      simp [(Table.bucketOf_eq_none_iff s.table node.id).2 heq] at hb
    cases hrefused : (s.table.buckets i).hasId node.id || (s.table.buckets i).isFull with
    | true =>
      have hadd : ((s.table.buckets i).add node).2 = false := by rw [bucket_add_snd, hrefused]; rfl
      have htable : s.table.add node =
          ({ s.table with fullCalls := s.table.fullCalls ++ [(i.val, node)] }, false) := by
        simp [Table.add, hown, hb, hadd, hhook]
      exact .inr ⟨i, by simp [displaced, hb, hrefused], by simp [tableAdd, htable, hooked]⟩
    | false =>
      have hadd : ((s.table.buckets i).add node).2 = true := by rw [bucket_add_snd, hrefused]; rfl
      have htable : s.table.add node = ({ s.table with
          buckets := Function.update s.table.buckets i ((s.table.buckets i).add node).1
          size := s.table.size + 1 }, true) := by
        simp [Table.add, hown, hb, hadd]
      exact .inl ⟨by simp [displaced, hb, hrefused], by simp [tableAdd, htable]⟩

/-- The state in which the hook runs. -/
def refused (s : RpcNode) (bucketIdx : ℕ) (node : Node) : RpcNode :=
  { s with
    table := { s.table with fullCalls := s.table.fullCalls ++ [(bucketIdx, node)] }
    events := s.events ++
      [TableEvent.full node (s.table.has node.id) (bucketSize s.table node.id)] }

/-- What the parts of the node keep when no request is sent: the engine, the counters, the clock. -/
structure SameBudget (s t : RpcNode) : Prop where
  socket : t.socket = s.socket
  repinging : t.repinging = s.repinging
  checks : t.checks = s.checks

lemma tableAdd_none (hhook : s.table.onFull = true) {node : Node} (h : s.displaced node = none) :
    SameBudget s (s.tableAdd node).1 := by
  rcases tableAdd_eq hhook node with ⟨-, heq⟩ | ⟨i, hvictim, heq⟩
  · rw [heq]
    exact ⟨rfl, rfl, rfl⟩
  · have hnone : (s.refused i node).swapVictim i = none := hvictim.symm.trans h
    have hhooked : s.hooked i node = (s.refused i node).onBucketFull i node := rfl
    rw [heq, hhooked, onBucketFull_eq, hnone]
    exact ⟨rfl, rfl, rfl⟩

lemma tableAdd_some (hhook : s.table.onFull = true) {node oldest : Node}
    (h : s.displaced node = some oldest) :
    ∃ i, (s.tableAdd node).1 = (s.refused i node).repingAndSwap node oldest := by
  rcases tableAdd_eq hhook node with ⟨hnone, -⟩ | ⟨i, hvictim, heq⟩
  · simp [hnone] at h
  · have hsome : (s.refused i node).swapVictim i = some oldest := hvictim.symm.trans h
    have hhooked : s.hooked i node = (s.refused i node).onBucketFull i node := rfl
    exact ⟨i, by rw [heq, hhooked, onBucketFull_eq, hsome]⟩

end HyperDHT.Rpc.RpcNode
