import HyperDHT.Handlers.Records
import HyperDHT.Query.Basic

/-!
# The operations of the DHT

The operations that a caller starts (`dht_ops.cpp`) and the two walks that the node starts for itself
(`dht_network.cpp`). Each is a query with a command, the callbacks it installs, and its first
candidates.

## Main definitions

* `Ops.CommitRequest` — what an operation sends to the closest nodes once the walk is over.
* `Ops.Operation` — the operations, with what their callers give them.
* `Ops.Operation.query` — the query that an operation creates.
* `Ops.Operation.callbacks` — the callbacks that it installs.

## Design

The signature of a mutable value is made by the caller's key, so it is an argument of the operation.
Of the callbacks that a caller passes on, the model knows whether they are there and how often they
call `destroy()`.
-/

set_option autoImplicit false

namespace HyperDHT.Ops

open Compact Handlers Routing Rpc

/-! ## Callbacks -/

/-- The request of the commit functions: its command, its target and its value. -/
structure CommitRequest where
  command : UInt32
  target : NodeId
  value : List UInt8

/-- The request to the node that sent a reply, with the token of the reply. -/
def CommitRequest.toNode (c : CommitRequest) (node : QueryReply) : Request where
  toAddr := node.fromAddr
  command := c.command
  target := some c.target
  token := node.token
  value := some c.value

/-- The callbacks that an operation installs: the commit function, if there is one, and how often
`on_reply_` calls `destroy()`, given how often the caller's own function does. -/
structure Callbacks where
  commit : Option CommitRequest := none
  onReply : (QueryReply → ℕ) → QueryReply → ℕ := id

/-- The environment in which the callbacks are installed. The commit function sends one request,
whose response is the continuation. -/
def Callbacks.install (cb : Callbacks) (env : Query.Env) : Query.Env :=
  { env with
    onCommit := fun node => (cb.commit.map fun c => CommitAct.request (c.toNode node)).toList
    onReply := cb.onReply env.onReply }

/-! ## Operations -/

/-- An operation, with what its caller gives it. -/
inductive Operation where
  | findPeer (publicKey : List UInt8)
  | lookup (target : NodeId)
  | announce (target : NodeId) (value : List UInt8)
  | immutablePut (value : List UInt8)
  | immutableGet (target : NodeId)
  | mutablePut (publicKey : List.Vector UInt8 32) (value : List UInt8) (seq : UInt64)
      (signature : List.Vector UInt8 64)
  | mutableGet (publicKey : List.Vector UInt8 32) (minSeq : UInt64) (latest : Bool)
  /-- The walk towards the own id, when the node starts. -/
  | bootstrapWalk (localId : NodeId)
  /-- The walk towards a node of the table, or towards the own id if the table is empty. -/
  | refresh (target : NodeId)

/-- The concurrency of the walks that the node starts for itself. -/
def backgroundConcurrency : ℤ := max 2 (10 / 8)

namespace Operation

variable (blake2b : List UInt8 → NodeId)

/-- What is walked towards. -/
def target : Operation → NodeId
  | .findPeer publicKey => blake2b publicKey
  | .lookup target => target
  | .announce target _ => target
  | .immutablePut value => blake2b value
  | .immutableGet target => target
  | .mutablePut publicKey _ _ _ => blake2b publicKey.toList
  | .mutableGet publicKey _ _ => blake2b publicKey.toList
  | .bootstrapWalk localId => localId
  | .refresh target => target

/-- The command of the visits. -/
def command : Operation → UInt32
  | .findPeer _ => cmdFindPeer
  | .lookup _ => cmdLookup
  | .announce _ _ => cmdAnnounce
  | .immutablePut _ => cmdImmutableGet
  | .immutableGet _ => cmdImmutableGet
  | .mutablePut _ _ _ _ => cmdMutableGet
  | .mutableGet _ _ _ => cmdMutableGet
  | .bootstrapWalk _ => cmdFindNode
  | .refresh _ => cmdFindNode

/-- The value of the visits. -/
def value : Operation → Option (List UInt8)
  | .announce _ value => some value
  | .mutablePut _ _ _ _ => some (uintEncode 0)
  | .mutableGet _ minSeq _ => some (uintEncode minSeq)
  | _ => none

/-- The walks that the node starts for itself. -/
def isBackground : Operation → Bool
  | .bootstrapWalk _ => true
  | .refresh _ => true
  | _ => false

/-- What is committed to the closest nodes. -/
def commit : Operation → Option CommitRequest
  | .announce target value => some ⟨cmdAnnounce, target, value⟩
  | .immutablePut value => some ⟨cmdImmutablePut, blake2b value, value⟩
  | .mutablePut publicKey value seq signature =>
    some ⟨cmdMutablePut, blake2b publicKey.toList,
      encodeMutablePut { publicKey, seq, value, signature }⟩
  | _ => none

/-- A reply has the value that was asked for. -/
def verified (verify : Verify) : Operation → QueryReply → Bool
  | .immutableGet target, reply =>
    match reply.value with
    | none => false
    | some value => !value.isEmpty && blake2b value = target
  | .mutableGet publicKey minSeq _, reply =>
    match reply.value with
    | none => false
    | some bytes =>
      let resp := decodeMutableGetResp bytes
      !bytes.isEmpty && !resp.value.isEmpty && minSeq ≤ resp.seq &&
        verifyMutable blake2b verify resp.signature resp.seq resp.value publicKey
  | _, _ => false

/-- A value that was asked for ends the walk, unless the latest one is. -/
def stopsAt (verify : Verify) (op : Operation) (reply : QueryReply) : Bool :=
  match op with
  | .mutableGet _ _ true => false
  | _ => op.verified blake2b verify reply

/-- How often `on_reply_` calls `destroy()`. The caller of `immutable_get` and `mutable_get` is
called for verified values only. -/
def onReply (verify : Verify) (op : Operation) (caller : QueryReply → ℕ) (reply : QueryReply) : ℕ :=
  match op with
  | .immutableGet _ | .mutableGet _ _ _ =>
    if op.verified blake2b verify reply then
      caller reply + (op.stopsAt blake2b verify reply).toNat
    else 0
  | _ => caller reply

/-- The callbacks that are installed. -/
def callbacks (verify : Verify) (op : Operation) : Callbacks where
  commit := op.commit blake2b
  onReply := op.onReply blake2b verify

/-- Which callbacks there are, given those of the caller. -/
def options (op : Operation) (hasOnReply hasOnDone : Bool) : Query.Options where
  concurrency := if op.isBackground then backgroundConcurrency else 10
  internal := op.isBackground
  hasOnReply :=
    match op with
    | .findPeer _ | .lookup _ => hasOnReply
    | .immutableGet _ | .mutableGet _ _ _ => true
    | _ => false
  hasOnCommit := (op.commit blake2b).isSome
  hasOnDone := op.isBackground || hasOnDone

/-- The query that is created. -/
def query (op : Operation) (hasOnReply hasOnDone : Bool) : Query :=
  Query.create (op.target blake2b) op.command op.value (op.options blake2b hasOnReply hasOnDone)

end Operation

end HyperDHT.Ops
