import Mathlib.Data.List.FinRange
import Mathlib.Data.List.Sort
import HyperDHT.Lib.SortedVec
import HyperDHT.Routing.NodeId

/-!
# The Kademlia routing table

The routing table of `routing_table.cpp`: 256 buckets of at most `K` nodes, each a vector kept
sorted by id, a node sitting in the bucket of the first bit in which its id differs from the own
id. There is no eviction in the table; a full bucket is reported through the `on_full_`
callback.

## Main definitions

* `Routing.Node`, `Bucket`, `Table` — the data model.
* `Bucket.add`, `remove`, `get`, `modify` — one bucket.
* `Table.add`, `remove`, `get`, `has`, `modify`, `closest`, `random`, `rebuildWithId` — the table.
* `Routing.TableOp`, `Routing.step` — the table as a machine over its mutating calls.
-/

set_option autoImplicit false

namespace HyperDHT.Routing

/-- The bucket size of the default build. -/
def K : ℕ := 20

/-- A peer in the routing table. -/
structure Node where
  id : NodeId
  host : List Char := []
  port : UInt16 := 0
  token : List UInt8 := []
  roundTripTime : UInt64 := 0
  addedAt : UInt64 := 0
  /-- The ticks at which the node was added, pinged, seen and sampled, zero for never. -/
  added : UInt32 := 0
  pinged : UInt32 := 0
  seen : UInt32 := 0
  sampled : UInt32 := 0
  downHints : UInt32 := 0
  deriving DecidableEq

/-- A change of a node in place that keeps its id, as a caller of `get_mut` makes it. -/
structure NodeUpdate where
  /-- The change. -/
  apply : Node → Node
  /-- It keeps the id. -/
  apply_id : ∀ n, (apply n).id = n.id

/-! ## Buckets -/

/-- A bucket: its nodes, sorted by id. -/
structure Bucket where
  nodes : List Node := []

namespace Bucket

/-- The position of the id, or the place where it belongs, by binary search. -/
def findIndex (b : Bucket) (id : NodeId) : ℕ := SortedVec.lowerBound Node.id b.nodes id

/-- The node at the position of the id, if it has the id. -/
def get (b : Bucket) (id : NodeId) : Option Node := SortedVec.find? Node.id b.nodes id

/-- Whether a node has the id. -/
def hasId (b : Bucket) (id : NodeId) : Bool := (b.get id).isSome

/-- Whether the bucket has no room. -/
def isFull (b : Bucket) : Bool := b.nodes.length ≥ K

/-- Add a node, unless its id is there or the bucket is full. -/
def add (b : Bucket) (node : Node) : Bucket × Bool :=
  if b.hasId node.id then (b, false)
  else if b.isFull then (b, false)
  else (⟨b.nodes.insertIdx (b.findIndex node.id) node⟩, true)

/-- Remove the node with the id. -/
def remove (b : Bucket) (id : NodeId) : Bucket × Bool :=
  if b.hasId id then (⟨b.nodes.eraseIdx (b.findIndex id)⟩, true) else (b, false)

/-- Change the node with the id in place, through the pointer that `get_mut` returns. -/
def modify (b : Bucket) (id : NodeId) (f : NodeUpdate) : Bucket :=
  if b.hasId id then ⟨b.nodes.modify (b.findIndex id) f.apply⟩ else b

end Bucket

/-! ## The table -/

/-- The routing table. `fullCalls` collects the calls of the `on_full_` callback. -/
structure Table where
  id : NodeId
  buckets : Fin idBits → Bucket := fun _ => {}
  size : ℕ := 0
  onFull : Bool := false
  fullCalls : List (ℕ × Node) := []

namespace Table

/-- The bucket of an id, if the id is not the own one. -/
def bucketOf (t : Table) (id : NodeId) : Option (Fin idBits) :=
  if h : bucketIndex t.id id < idBits then some ⟨bucketIndex t.id id, h⟩ else none

/-- Add a node; a bucket that does not take it is reported to the callback. -/
def add (t : Table) (node : Node) : Table × Bool :=
  if node.id = t.id then (t, false)
  else
    match t.bucketOf node.id with
    | none => (t, false)
    | some idx =>
      if ((t.buckets idx).add node).2 then
        ({ t with
            buckets := Function.update t.buckets idx ((t.buckets idx).add node).1
            size := t.size + 1 }, true)
      else if t.onFull then ({ t with fullCalls := t.fullCalls ++ [(idx.val, node)] }, false)
      else (t, false)

/-- Remove a node by id. -/
def remove (t : Table) (id : NodeId) : Table × Bool :=
  match t.bucketOf id with
  | none => (t, false)
  | some idx =>
    if ((t.buckets idx).remove id).2 then
      ({ t with
          buckets := Function.update t.buckets idx ((t.buckets idx).remove id).1
          size := t.size - 1 }, true)
    else (t, false)

/-- Look a node up by id. -/
def get (t : Table) (id : NodeId) : Option Node :=
  match t.bucketOf id with
  | none => none
  | some idx => (t.buckets idx).get id

/-- Whether a node has the id. -/
def has (t : Table) (id : NodeId) : Bool := (t.get id).isSome

/-- Change the node with the id in place. -/
def modify (t : Table) (id : NodeId) (f : NodeUpdate) : Table :=
  match t.bucketOf id with
  | none => t
  | some idx =>
    { t with buckets := Function.update t.buckets idx ((t.buckets idx).modify id f) }

/-- The buckets in the order of their indices. -/
def bucketList (t : Table) : List Bucket := (List.finRange idBits).map t.buckets

/-- All nodes, in the order of a traversal: by bucket, then by id. -/
def allNodes (t : Table) : List Node := t.bucketList.flatMap Bucket.nodes

/-- Up to `count` nodes of the buckets from that of the target on towards closer ones, then of
those farther away, sorted by distance from the target. -/
def closest (t : Table) (target : NodeId) (count : ℕ) : List Node :=
  let d := min (bucketIndex t.id target) (idBits - 1)
  let nearer := (t.bucketList.drop d).flatMap Bucket.nodes
  let farther := (t.bucketList.take d).reverse.flatMap Bucket.nodes
  ((nearer ++ farther).take count).insertionSort
    fun a b => compareDistance target a.id b.id ≤ 0

/-- The walk of `random` to the `n`-th node. -/
def randomWalk : List Bucket → ℕ → Option Node
  | [], _ => none
  | b :: bs, n => if n < b.nodes.length then b.nodes[n]? else randomWalk bs (n - b.nodes.length)

/-- The node a draw of `n` from `[0, size)` gives; a table without nodes gives none. -/
def random (t : Table) (n : ℕ) : Option Node :=
  if t.size = 0 then none else randomWalk t.bucketList n

/-- Re-file all nodes under a new own id. The callback is taken out meanwhile and put back. -/
def rebuildWithId (t : Table) (newId : NodeId) : Table :=
  let cleared : Table := { id := newId, onFull := false, fullCalls := t.fullCalls }
  { t.allNodes.foldl (fun t node => (t.add node).1) cleared with onFull := t.onFull }

end Table

/-- The mutating calls of the table. -/
inductive TableOp where
  | add (node : Node)
  | remove (id : NodeId)
  | rebuildWithId (newId : NodeId)
  | modify (id : NodeId) (f : NodeUpdate)

/-- The table after a call. -/
def step (t : Table) : TableOp → Table
  | .add node => (t.add node).1
  | .remove id => (t.remove id).1
  | .rebuildWithId newId => t.rebuildWithId newId
  | .modify id f => t.modify id f

end HyperDHT.Routing
