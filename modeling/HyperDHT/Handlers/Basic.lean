import HyperDHT.Handlers.AnnounceStore
import HyperDHT.Handlers.DownHint
import HyperDHT.Handlers.LruCache
import HyperDHT.Handlers.Records

/-!
# The request handlers

How a node answers the requests of others (`rpc_handlers.cpp`): the commands of the base protocol,
and those of the store, which only a persistent node serves.

## Main definitions

* `Handlers.TokenStore` — the two secrets from which tokens are made (`tokens.cpp`).
* `Handlers.Incoming` — a request as it was received.
* `Handlers.RpcHandlers` — the state of the handlers, with the node they belong to.
* `Handlers.RpcHandlers.handle` — the dispatch, over one function for each command.
* `Handlers.RpcHandlers.step` — the node with its handlers as a machine.

## Main results

* `Handlers.RpcHandlers.handleAnnounce_cases`, `handleUnannounce_cases`, `handleMutablePut_cases`,
  `handleImmutablePut_cases` — what each of the commands that write to the store does.
* `Handlers.RpcHandlers.step_storage` — what a step does to what is stored.

## Design

A handler returns the new state and the reply it sends, if any. The router is a function from
targets to records; the commands of connections are its business and leave no trace here. The time
is an input. The digest, the keyed digest and the check of signatures are parameters.
-/

set_option autoImplicit false

namespace HyperDHT.Handlers

open Compact Routing Rpc

/-- What the handlers were constructed with, besides what the node was: the keyed digest, the check
of signatures and the longest delay of a ping. -/
structure HandlerEnv extends Rpc.Env where
  keyedHash : List.Vector UInt8 32 → List Char → List.Vector UInt8 32
  verify : Verify
  maxPingDelayMs : UInt64 := 10000

/-! ## Tokens -/

/-- The secrets of a node. -/
structure TokenStore where
  current : List.Vector UInt8 32
  previous : List.Vector UInt8 32
  deriving DecidableEq

namespace TokenStore

/-- The token of a host. -/
def generateToken (env : HandlerEnv) (host : List Char) (secret : List.Vector UInt8 32) :
    List.Vector UInt8 32 :=
  env.keyedHash secret host

/-- The secrets are exchanged, and the one that is now current is hashed. -/
def rotate (env : HandlerEnv) (s : TokenStore) : TokenStore where
  current := (env.blake2b s.previous.toList).bytes
  previous := s.current

/-- The token that is handed out. -/
def create (env : HandlerEnv) (s : TokenStore) (host : List Char) : List.Vector UInt8 32 :=
  generateToken env host s.current

/-- A token of either secret is accepted. -/
def validate (env : HandlerEnv) (s : TokenStore) (host : List Char) (token : List.Vector UInt8 32) :
    Bool :=
  token = generateToken env host s.current || token = generateToken env host s.previous

end TokenStore

/-! ## Requests and state -/

/-- A request as it was received: its sender, the socket it came in on, and its fields. -/
structure Incoming where
  tid : UInt16 := 0
  fromAddr : Ipv4Address
  fromServer : Bool := false
  token : Option (List.Vector UInt8 32) := none
  command : UInt32
  target : Option NodeId := none
  value : Option (List UInt8) := none
  internal : Bool := false
  /-- The decoder of requests reads no longer values. -/
  valueFits : ∀ v, value = some v → v.length ≤ maxBufferDecode

lemma none_fits : ∀ v : List UInt8, none = some v → v.length ≤ maxBufferDecode := by simp

/-- A ping that is answered later. -/
structure DelayedReply where
  tid : UInt16
  fromAddr : Ipv4Address
  fromServer : Bool
  delayMs : UInt32
  deriving DecidableEq

def maxPendingDelayed : ℕ := 256
def maxFindNodeSources : ℕ := 8192
def maxStoredValue : ℕ := 32768
def maxRelayAddresses : ℕ := 3

/-- The handlers, with the node they belong to. -/
structure RpcHandlers extends HintedNode where
  tokens : TokenStore
  /-- The records of the servers that listen here, if there is a router. -/
  router : Option (NodeId → Option (List UInt8)) := none
  storageTtlMs : UInt64
  annTtlMs : UInt64
  store : AnnounceStore := {}
  mutables : LruCache (List Char) (List UInt8)
  immutables : LruCache (List Char) (List UInt8)
  findNodeRate : List (List.Vector UInt8 4 × UInt64) := []
  pendingDelayed : List DelayedReply := []

/-- The digits of a key. -/
def hexChar (n : ℕ) : Char := if n < 10 then Char.ofNat (48 + n) else Char.ofNat (87 + n)

/-- The key of a target: two digits a byte. -/
def toHexKey (target : NodeId) : List Char :=
  target.bytes.toList.flatMap fun b => [hexChar (b.toNat / 16), hexChar (b.toNat % 16)]

namespace RpcHandlers

/-! ## Replies -/

/-- The own id, for a request that came in on the server socket of a persistent node. -/
def replyId (s : RpcHandlers) (fromServer : Bool) : Option NodeId :=
  if !s.node.ephemeral && fromServer then some s.node.table.id else none

/-- A reply with nothing but the own id. -/
def emptyReply (s : RpcHandlers) (req : Incoming) : Response where
  tid := req.tid
  fromAddr := req.fromAddr
  id := s.replyId req.fromServer

/-- The addresses of the nodes that are closest to a target. -/
def closestAddrs (s : RpcHandlers) (target : NodeId) : List Ipv4Address :=
  (s.node.table.closest target K).map fun n => Ipv4Address.fromString n.host n.port

/-- A reply with the own id, a token and the nodes closest to the target. -/
def makeQueryResponse (env : HandlerEnv) (s : RpcHandlers) (req : Incoming) : Response where
  tid := req.tid
  fromAddr := req.fromAddr
  id := s.replyId req.fromServer
  token := some (s.tokens.create env req.fromAddr.hostString)
  closerNodes :=
    match req.target with
    | none => []
    | some target => s.closestAddrs target

/-! ## The base protocol -/

def handlePing (env : HandlerEnv) (s : RpcHandlers) (req : Incoming) :
    RpcHandlers × Option Response :=
  (s, some { s.makeQueryResponse env req with closerNodes := [] })

/-- The reply goes to the port that the request names. -/
def handlePingNat (s : RpcHandlers) (req : Incoming) : RpcHandlers × Option Response :=
  match req.value with
  | some (low :: high :: _) =>
    let port : UInt16 := low.toUInt16 ||| (high.toUInt16 <<< 8)
    if port = 0 then (s, none)
    else
      (s, some {
        tid := req.tid
        fromAddr := Ipv4Address.fromString req.fromAddr.hostString port })
  | _ => (s, none)

/-- The host got an answer less than a second ago. -/
def findNodeLimited (s : RpcHandlers) (now : UInt64) (source : Ipv4Address) : Bool :=
  match s.findNodeRate.lookup source.host with
  | none => false
  | some last => now - last < 1000

/-- The time of the answer is kept; a map that grew too large is cleared. -/
def noteFindNode (s : RpcHandlers) (now : UInt64) (source : Ipv4Address) : RpcHandlers :=
  let rate := (source.host, now) :: s.findNodeRate.filter (·.1 ≠ source.host)
  { s with findNodeRate := if rate.length > maxFindNodeSources then [] else rate }

def handleFindNode (env : HandlerEnv) (s : RpcHandlers) (now : UInt64) (req : Incoming) :
    RpcHandlers × Option Response :=
  if s.findNodeLimited now req.fromAddr then (s, none)
  else (s.noteFindNode now req.fromAddr, some (s.makeQueryResponse env req))

/-- A report of an unresponsive node is answered unless it is malformed. -/
def handleDownHint (env : HandlerEnv) (s : RpcHandlers) (now : UInt64) (req : Incoming) :
    RpcHandlers × Option Response :=
  ({ s with
      toHintedNode := s.toHintedNode.handleDownHint env.toEnv now req.fromAddr req.value },
    match req.value with
    | none => none
    | some bytes => if bytes.length < 6 then none else some (s.emptyReply req))

/-- The reply is due after a delay. -/
def handleDelayedPing (env : HandlerEnv) (s : RpcHandlers) (req : Incoming) :
    RpcHandlers × Option Response :=
  match req.value with
  | some (a :: b :: c :: d :: _) =>
    let delayMs : UInt32 :=
      a.toUInt32 ||| (b.toUInt32 <<< 8) ||| (c.toUInt32 <<< 16) ||| (d.toUInt32 <<< 24)
    if s.pendingDelayed.length ≥ maxPendingDelayed then (s, none)
    else if delayMs.toUInt64 > env.maxPingDelayMs then (s, none)
    else
      ({ s with
        pendingDelayed := s.pendingDelayed ++
          [DelayedReply.mk req.tid req.fromAddr req.fromServer delayMs] }, none)
  | _ => (s, none)

/-- The delay of a ping is over. -/
def onDelayedPingFire (s : RpcHandlers) (k : ℕ) : RpcHandlers × Option Response :=
  match s.pendingDelayed[k]? with
  | none => (s, none)
  | some reply =>
    ({ s with pendingDelayed := SwapPop.swapPop s.pendingDelayed k },
      some { tid := reply.tid, fromAddr := reply.fromAddr, id := s.replyId reply.fromServer })

/-! ## Announcements -/

/-- One record of a target: that of a server that listens here, or the last one announced. -/
def handleFindPeer (env : HandlerEnv) (s : RpcHandlers) (req : Incoming) :
    RpcHandlers × Option Response :=
  match req.target with
  | none => (s, none)
  | some target =>
    let resp := s.makeQueryResponse env req
    match s.router.bind fun record => record target with
    | some record => (s, some { resp with value := some record })
    | none =>
      match (s.store.get target).getLast? with
      | none => (s, some resp)
      | some last => (s, some { resp with value := some last.value })

/-- All records of a target. -/
def handleLookup (env : HandlerEnv) (s : RpcHandlers) (req : Incoming) :
    RpcHandlers × Option Response :=
  match req.target with
  | none => (s, none)
  | some target =>
    let resp := s.makeQueryResponse env req
    let peers := (s.store.get target).take maxPeersPerTarget
    if peers.isEmpty then (s, some resp)
    else (s, some { resp with value := some (encodeLookupPeers (peers.map (·.value))) })

/-- The message of an announcement with its relays cut to the number allowed, over which the
signature is checked. -/
def capRelays (ann : AnnounceMessage) (peer : PeerRecord) : AnnounceMessage :=
  { ann with
    peer := some { peer with relayAddresses := peer.relayAddresses.take maxRelayAddresses } }

/-- The token, the message, its peer and its signature, if the token is valid. A message without a
peer is answered if it has a refresh token, which is all that becomes of it. -/
def handleAnnounce (env : HandlerEnv) (s : RpcHandlers) (now : UInt64) (req : Incoming) :
    RpcHandlers × Option Response :=
  match req.target, req.token, req.value with
  | some target, some token, some value =>
    if !s.tokens.validate env req.fromAddr.hostString token then (s, none)
    else
      let ann := decodeAnnounceMsg value
      match ann.peer with
      | none => (s, if ann.refresh.isSome then some (s.emptyReply req) else none)
      | some peer =>
        match ann.signature with
        | none => (s, none)
        | some signature =>
          if verifyAnnounce env.blake2b env.verify (nsAnnounce env.blake2b) target s.node.table.id
              token (capRelays ann peer) signature peer.publicKey then
            ({ s with
                store := s.store.put target
                  { fromAddr := req.fromAddr, value, createdAt := now, ttl := s.annTtlMs } },
              some (s.emptyReply req))
          else (s, none)
  | _, _, _ => (s, none)

/-- An announcement is withdrawn. -/
def handleUnannounce (env : HandlerEnv) (s : RpcHandlers) (req : Incoming) :
    RpcHandlers × Option Response :=
  match req.target, req.token, req.value with
  | some target, some token, some value =>
    if !s.tokens.validate env req.fromAddr.hostString token then (s, none)
    else
      let ann := decodeAnnounceMsg value
      match ann.peer, ann.signature with
      | some peer, some signature =>
        if verifyAnnounce env.blake2b env.verify (nsUnannounce env.blake2b) target s.node.table.id
            token ann signature peer.publicKey then
          ({ s with store := (s.store.remove target req.fromAddr).1 }, some (s.emptyReply req))
        else (s, none)
      | _, _ => (s, none)
  | _, _, _ => (s, none)

/-! ## Mutable values -/

/-- A reply with an error. -/
def errorReply (req : Incoming) (error : UInt32) : Response where
  tid := req.tid
  fromAddr := req.fromAddr
  error := some error

/-- The message of a request to store a mutable value: it belongs to the target, its value is not
empty and not too long, and its signature is valid. -/
def MutablePutRequest.valid (env : HandlerEnv) (put : MutablePutRequest) (target : NodeId) : Bool :=
  env.blake2b put.publicKey.toList = target && !put.value.isEmpty &&
    put.value.length ≤ maxStoredValue &&
    verifyMutable env.blake2b env.verify put.signature put.seq put.value put.publicKey

/-- What is stored of a mutable value. -/
def storedOf (put : MutablePutRequest) : List UInt8 :=
  encodeMutableGetResp { seq := put.seq, value := put.value, signature := put.signature }

/-- What speaks against a mutable value that is to replace a stored one. -/
def seqError (existing : MutableGetResponse) (put : MutablePutRequest) : Option UInt32 :=
  if existing.seq = put.seq ∧ existing.value ≠ put.value then some errSeqReused
  else if put.seq < existing.seq then some errSeqTooLow
  else none

/-- A mutable value is compared with the stored one, if there is one, and stored. -/
def putMutable (s : RpcHandlers) (now : UInt64) (req : Incoming) (target : NodeId)
    (put : MutablePutRequest) : RpcHandlers × Option Response :=
  let key := toHexKey target
  let (mutables, existing) := s.mutables.get key
  match existing.bind fun bytes => seqError (decodeMutableGetResp bytes) put with
  | some error => ({ s with mutables }, some (errorReply req error))
  | none =>
    ({ s with mutables := mutables.put key (storedOf put) now },
      some { tid := req.tid, fromAddr := req.fromAddr })

def handleMutablePut (env : HandlerEnv) (s : RpcHandlers) (now : UInt64) (req : Incoming) :
    RpcHandlers × Option Response :=
  match req.target, req.token, req.value with
  | some target, some token, some value =>
    if !s.tokens.validate env req.fromAddr.hostString token then (s, none)
    else if !MutablePutRequest.valid env (decodeMutablePut value) target then (s, none)
    else s.putMutable now req target (decodeMutablePut value)
  | _, _, _ => (s, none)

/-- The number that a request for a mutable value names; none is zero. -/
def requestedSeq (value : List UInt8) : UInt64 :=
  if value.isEmpty then 0 else (uintDecode (.forDecode value)).1

/-- The stored value, if its number is large enough. -/
def handleMutableGet (env : HandlerEnv) (s : RpcHandlers) (req : Incoming) :
    RpcHandlers × Option Response :=
  match req.target, req.value with
  | some target, some value =>
    let resp := s.makeQueryResponse env req
    let (mutables, stored) := s.mutables.get (toHexKey target)
    let s := { s with mutables }
    match stored with
    | none => (s, some resp)
    | some bytes =>
      if (decodeMutableGetResp bytes).seq ≥ requestedSeq value then
        (s, some { resp with value := some bytes })
      else (s, some resp)
  | _, _ => (s, none)

/-! ## Immutable values -/

def handleImmutablePut (env : HandlerEnv) (s : RpcHandlers) (now : UInt64) (req : Incoming) :
    RpcHandlers × Option Response :=
  match req.target, req.token, req.value with
  | some target, some token, some value =>
    if value.isEmpty then (s, none)
    else if value.length > maxStoredValue then (s, none)
    else if !s.tokens.validate env req.fromAddr.hostString token then (s, none)
    else if env.blake2b value ≠ target then (s, none)
    else
      ({ s with immutables := s.immutables.put (toHexKey target) value now },
        some { tid := req.tid, fromAddr := req.fromAddr })
  | _, _, _ => (s, none)

def handleImmutableGet (env : HandlerEnv) (s : RpcHandlers) (req : Incoming) :
    RpcHandlers × Option Response :=
  match req.target with
  | none => (s, none)
  | some target =>
    let resp := s.makeQueryResponse env req
    let (immutables, stored) := s.immutables.get (toHexKey target)
    ({ s with immutables }, some { resp with value := stored })

/-! ## Dispatch -/

/-- The commands of the base protocol. -/
def handleInternal (env : HandlerEnv) (s : RpcHandlers) (now : UInt64) (req : Incoming) :
    RpcHandlers × Option Response :=
  if req.command = cmdPing then s.handlePing env req
  else if req.command = cmdPingNat then s.handlePingNat req
  else if req.command = cmdFindNode then s.handleFindNode env now req
  else if req.command = cmdDownHint then s.handleDownHint env now req
  else if req.command = cmdDelayedPing then s.handleDelayedPing env req
  else (s, none)

/-- The commands of the store. -/
def handleStorage (env : HandlerEnv) (s : RpcHandlers) (now : UInt64) (req : Incoming) :
    RpcHandlers × Option Response :=
  if req.command = cmdFindPeer then s.handleFindPeer env req
  else if req.command = cmdLookup then s.handleLookup env req
  else if req.command = cmdAnnounce then s.handleAnnounce env now req
  else if req.command = cmdUnannounce then s.handleUnannounce env req
  else if req.command = cmdMutablePut then s.handleMutablePut env now req
  else if req.command = cmdMutableGet then s.handleMutableGet env req
  else if req.command = cmdImmutablePut then s.handleImmutablePut env now req
  else if req.command = cmdImmutableGet then s.handleImmutableGet env req
  else (s, none)

/-- A request is handled. The commands of connections go to the router; those of the store are
dropped while the node is ephemeral. -/
def handle (env : HandlerEnv) (s : RpcHandlers) (now : UInt64) (req : Incoming) :
    RpcHandlers × Option Response :=
  if req.internal then s.handleInternal env now req
  else if req.command = cmdPeerHandshake ∨ req.command = cmdPeerHolepunch then (s, none)
  else if s.node.ephemeral then (s, none)
  else s.handleStorage env now req

/-- The timer of the garbage collection expires. -/
def onGcTick (s : RpcHandlers) (now : UInt64) : RpcHandlers :=
  { s with
    mutables := s.mutables.gc now s.storageTtlMs
    immutables := s.immutables.gc now s.storageTtlMs
    store := s.store.gc now }

/-! ## The handlers as a machine -/

/-- What may happen: a request arrives, with the id its sender claims; a delayed ping is due; the
garbage is collected; the secrets are exchanged; a server starts or stops to listen; anything else
happens to the node. -/
inductive Input where
  | request (now : UInt64) (id : Option NodeId) (req : Incoming)
  | delayedPing (k : ℕ)
  | gcTick (now : UInt64)
  | rotate
  | listen (router : Option (NodeId → Option (List UInt8)))
  | node (i : RpcNode.Input)

/-- The node learns of the sender before its request is handled. -/
def heard (env : HandlerEnv) (s : RpcHandlers) (id : Option NodeId) (req : Incoming) :
    RpcHandlers :=
  { s with node := s.node.onRecv env.toEnv req.fromServer req.fromAddr (.request id) }

/-- A request arrives. A node that is closing ignores it. -/
def onRequest (env : HandlerEnv) (s : RpcHandlers) (now : UInt64) (id : Option NodeId)
    (req : Incoming) : RpcHandlers × Option Response :=
  if s.node.socket.closing then (s.heard env id req, none)
  else (s.heard env id req).handle env now req

/-- The handlers after an input. -/
def step (env : HandlerEnv) (s : RpcHandlers) : Input → RpcHandlers
  | .request now id req => (s.onRequest env now id req).1
  | .delayedPing k => (s.onDelayedPingFire k).1
  | .gcTick now => s.onGcTick now
  | .rotate => { s with tokens := s.tokens.rotate env }
  | .listen router => { s with router }
  | .node i => { s with node := s.node.step env.toEnv i }

/-- How the caches are set up. -/
structure StorageCacheConfig where
  maxSize : ℕ := 65536
  ttlMs : UInt64 := 48 * 60 * 60 * 1000
  annTtlMs : UInt64 := 20 * 60 * 1000

/-- Fresh handlers of a fresh node. Each cache gets half of the entries, and at least one. -/
def init (localId : NodeId) (firstTid : UInt16) (tokens : TokenStore)
    (config : StorageCacheConfig) : RpcHandlers where
  toHintedNode := HintedNode.init localId firstTid
  tokens := tokens
  storageTtlMs := config.ttlMs
  annTtlMs := config.annTtlMs
  mutables := LruCache.empty (max 1 (config.maxSize / 2))
  immutables := LruCache.empty (max 1 (config.maxSize / 2))

/-! ## What the handlers do to the store -/

variable {env : HandlerEnv} {s : RpcHandlers}

/-- What is stored is as it was. -/
structure SameStorage (s s' : RpcHandlers) : Prop where
  store : s'.store = s.store
  mutables : s'.mutables = s.mutables
  immutables : s'.immutables = s.immutables

lemma SameStorage.refl (s : RpcHandlers) : SameStorage s s := ⟨rfl, rfl, rfl⟩

lemma handlePingNat_fst (s : RpcHandlers) (req : Incoming) : (s.handlePingNat req).1 = s := by
  unfold handlePingNat
  split
  · dsimp only
    split <;> rfl
  · rfl

lemma handleFindNode_sameStorage (env : HandlerEnv) (s : RpcHandlers) (now : UInt64)
    (req : Incoming) : SameStorage s (s.handleFindNode env now req).1 := by
  unfold handleFindNode
  split
  · exact .refl s
  · exact ⟨rfl, rfl, rfl⟩

lemma handleDelayedPing_sameStorage (env : HandlerEnv) (s : RpcHandlers) (req : Incoming) :
    SameStorage s (s.handleDelayedPing env req).1 := by
  unfold handleDelayedPing
  split
  · dsimp only
    split_ifs
    · exact .refl s
    · exact .refl s
    · exact ⟨rfl, rfl, rfl⟩
  · exact .refl s

lemma handleInternal_sameStorage (env : HandlerEnv) (s : RpcHandlers) (now : UInt64)
    (req : Incoming) : SameStorage s (s.handleInternal env now req).1 := by
  unfold handleInternal
  split_ifs
  · exact .refl s
  · rw [handlePingNat_fst]
    exact .refl s
  · exact handleFindNode_sameStorage env s now req
  · exact ⟨rfl, rfl, rfl⟩
  · exact handleDelayedPing_sameStorage env s req
  · exact .refl s

lemma handleFindPeer_fst (env : HandlerEnv) (s : RpcHandlers) (req : Incoming) :
    (s.handleFindPeer env req).1 = s := by
  unfold handleFindPeer
  split
  · rfl
  · dsimp only
    split
    · rfl
    · split <;> rfl

lemma handleLookup_fst (env : HandlerEnv) (s : RpcHandlers) (req : Incoming) :
    (s.handleLookup env req).1 = s := by
  unfold handleLookup
  split
  · rfl
  · dsimp only
    split <;> rfl

/-- An announcement is accepted: the token is valid, the message has a peer and a signature, and the
signature is valid. -/
def AcceptsAnnounce (env : HandlerEnv) (s : RpcHandlers) (req : Incoming) (target : NodeId)
    (value : List UInt8) (peer : PeerRecord) : Prop :=
  req.target = some target ∧ req.value = some value ∧ ∃ token signature,
    req.token = some token ∧ s.tokens.validate env req.fromAddr.hostString token = true ∧
    (decodeAnnounceMsg value).peer = some peer ∧
    (decodeAnnounceMsg value).signature = some signature ∧
    verifyAnnounce env.blake2b env.verify (nsAnnounce env.blake2b) target s.node.table.id token
      (capRelays (decodeAnnounceMsg value) peer) signature peer.publicKey = true

/-- **An announcement** changes nothing, or is accepted and its message is stored. -/
theorem handleAnnounce_cases (env : HandlerEnv) (s : RpcHandlers) (now : UInt64) (req : Incoming) :
    (s.handleAnnounce env now req).1 = s ∨ ∃ target value peer,
      AcceptsAnnounce env s req target value peer ∧
      (s.handleAnnounce env now req).1 = { s with
        store := s.store.put target
          { fromAddr := req.fromAddr, value, createdAt := now, ttl := s.annTtlMs } } := by
  unfold handleAnnounce
  split
  · next target token value htarget htoken hvalue =>
    split
    · exact .inl rfl
    · next hvalid =>
      dsimp only
      split
      · exact .inl rfl
      · next peer hpeer =>
        split
        · exact .inl rfl
        · next signature hsignature =>
          split
          · next hverify =>
            exact .inr ⟨target, value, peer, ⟨htarget, hvalue, token, signature, htoken,
              by simpa using hvalid, hpeer, hsignature, hverify⟩, rfl⟩
          · exact .inl rfl
  · exact .inl rfl

lemma handleAnnounce_of_accepts {req : Incoming} {target : NodeId} {value : List UInt8}
    {peer : PeerRecord} (h : AcceptsAnnounce env s req target value peer) (now : UInt64) :
    (s.handleAnnounce env now req).1 = { s with
      store := s.store.put target
        { fromAddr := req.fromAddr, value, createdAt := now, ttl := s.annTtlMs } } := by
  obtain ⟨htarget, hvalue, token, signature, htoken, hvalid, hpeer, hsignature, hverify⟩ := h
  simp [handleAnnounce, htarget, hvalue, htoken, hvalid, hpeer, hsignature, hverify]

/-- A withdrawal is accepted: the token is valid, the message has a peer and a signature, and the
signature is valid. -/
def AcceptsUnannounce (env : HandlerEnv) (s : RpcHandlers) (req : Incoming) (target : NodeId) :
    Prop :=
  req.target = some target ∧ ∃ token value peer signature,
    req.token = some token ∧ req.value = some value ∧
    s.tokens.validate env req.fromAddr.hostString token = true ∧
    (decodeAnnounceMsg value).peer = some peer ∧
    (decodeAnnounceMsg value).signature = some signature ∧
    verifyAnnounce env.blake2b env.verify (nsUnannounce env.blake2b) target s.node.table.id token
      (decodeAnnounceMsg value) signature peer.publicKey = true

/-- **A withdrawal** changes nothing, or is accepted and removes the records that its sender sent
for the target. -/
theorem handleUnannounce_cases (env : HandlerEnv) (s : RpcHandlers) (req : Incoming) :
    (s.handleUnannounce env req).1 = s ∨ ∃ target, AcceptsUnannounce env s req target ∧
      (s.handleUnannounce env req).1 =
        { s with store := (s.store.remove target req.fromAddr).1 } := by
  unfold handleUnannounce
  split
  · next target token value htarget htoken hvalue =>
    split
    · exact .inl rfl
    · next hvalid =>
      dsimp only
      split
      · next peer signature hpeer hsignature =>
        split
        · next hverify =>
          exact .inr ⟨target, ⟨htarget, token, value, peer, signature, htoken, hvalue,
            by simpa using hvalid, hpeer, hsignature, hverify⟩, rfl⟩
        · exact .inl rfl
      · exact .inl rfl
  · exact .inl rfl

lemma handleUnannounce_of_accepts {req : Incoming} {target : NodeId}
    (h : AcceptsUnannounce env s req target) :
    s.handleUnannounce env req =
      ({ s with store := (s.store.remove target req.fromAddr).1 }, some (s.emptyReply req)) := by
  obtain ⟨htarget, token, value, peer, signature, htoken, hvalue, hvalid, hpeer, hsignature,
    hverify⟩ := h
  simp [handleUnannounce, htarget, hvalue, htoken, hvalid, hpeer, hsignature, hverify]

/-- A request to store a mutable value has a valid token and a valid message. -/
def AcceptsMutablePut (env : HandlerEnv) (s : RpcHandlers) (req : Incoming) (target : NodeId)
    (put : MutablePutRequest) : Prop :=
  req.target = some target ∧ ∃ token value, req.token = some token ∧ req.value = some value ∧
    s.tokens.validate env req.fromAddr.hostString token = true ∧ put = decodeMutablePut value ∧
    MutablePutRequest.valid env put target = true

/-- Nothing speaks against a mutable value: none is stored, or one that it may replace. -/
def MayReplace (s : RpcHandlers) (target : NodeId) (put : MutablePutRequest) : Prop :=
  ∀ e, s.mutables.find (toHexKey target) = some e →
    seqError (decodeMutableGetResp e.value) put = none

/-- **A request to store a mutable value** is refused and leaves what is stored, or is accepted and
its value is stored. -/
theorem handleMutablePut_cases (env : HandlerEnv) (s : RpcHandlers) (now : UInt64)
    (req : Incoming) :
    ((s.handleMutablePut env now req).1 = s ∨ ∃ target,
      (s.handleMutablePut env now req).1 =
        { s with mutables := (s.mutables.get (toHexKey target)).1 }) ∨
    ∃ target put, AcceptsMutablePut env s req target put ∧ s.MayReplace target put ∧
      (s.handleMutablePut env now req).1 = { s with
        mutables := (s.mutables.get (toHexKey target)).1.put (toHexKey target) (storedOf put)
          now } := by
  unfold handleMutablePut
  split
  · next target token value htarget htoken hvalue =>
    split
    · exact .inl (.inl rfl)
    · next hvalid =>
      split
      · exact .inl (.inl rfl)
      · next hput =>
        unfold putMutable
        dsimp only
        rw [LruCache.get_eq]
        split
        · exact .inl (.inr ⟨target, rfl⟩)
        · next hnone =>
          refine .inr ⟨target, decodeMutablePut value, ⟨htarget, token, value, htoken, hvalue,
            by simpa using hvalid, rfl, by simpa using hput⟩, fun e he => ?_, rfl⟩
          simpa [he] using hnone
  · exact .inl (.inl rfl)

lemma handleMutableGet_cases (env : HandlerEnv) (s : RpcHandlers) (req : Incoming) :
    (s.handleMutableGet env req).1 = s ∨ ∃ target,
      (s.handleMutableGet env req).1 =
        { s with mutables := (s.mutables.get (toHexKey target)).1 } := by
  unfold handleMutableGet
  split
  · next target value _ _ =>
    refine .inr ⟨target, ?_⟩
    dsimp only
    split
    · rfl
    · split <;> rfl
  · exact .inl rfl

/-- A request to store an immutable value is accepted: its token is valid, its value is not empty
and not too long, and belongs to the target. -/
def AcceptsImmutablePut (env : HandlerEnv) (s : RpcHandlers) (req : Incoming) (target : NodeId)
    (value : List UInt8) : Prop :=
  req.target = some target ∧ req.value = some value ∧ (∃ token, req.token = some token ∧
    s.tokens.validate env req.fromAddr.hostString token = true) ∧ value ≠ [] ∧
    value.length ≤ maxStoredValue ∧ env.blake2b value = target

/-- **A request to store an immutable value** changes nothing, or is accepted and its value is
stored. -/
theorem handleImmutablePut_cases (env : HandlerEnv) (s : RpcHandlers) (now : UInt64)
    (req : Incoming) :
    (s.handleImmutablePut env now req).1 = s ∨ ∃ target value,
      AcceptsImmutablePut env s req target value ∧
      (s.handleImmutablePut env now req).1 =
        { s with immutables := s.immutables.put (toHexKey target) value now } := by
  unfold handleImmutablePut
  split
  · next target token value htarget htoken hvalue =>
    split
    · exact .inl rfl
    · next hempty =>
      split
      · exact .inl rfl
      · next hlong =>
        split
        · exact .inl rfl
        · next hvalid =>
          split
          · exact .inl rfl
          · next hdigest =>
            exact .inr ⟨target, value, ⟨htarget, hvalue, ⟨token, htoken, by simpa using hvalid⟩,
              by simpa using hempty, not_lt.1 hlong, not_not.1 hdigest⟩, rfl⟩
  · exact .inl rfl

lemma handleImmutableGet_cases (env : HandlerEnv) (s : RpcHandlers) (req : Incoming) :
    (s.handleImmutableGet env req).1 = s ∨ ∃ target,
      (s.handleImmutableGet env req).1 =
        { s with immutables := (s.immutables.get (toHexKey target)).1 } := by
  unfold handleImmutableGet
  split
  · exact .inl rfl
  · next target _ => exact .inr ⟨target, rfl⟩

/-- A command of the store reaches its handler. -/
def Reaches (s : RpcHandlers) (req : Incoming) (command : UInt32) : Prop :=
  req.internal = false ∧ s.node.ephemeral = false ∧ req.command = command

/-- Nothing but the store has changed. -/
structure StoresOnly (s s' : RpcHandlers) : Prop where
  node : s'.node = s.node
  tokens : s'.tokens = s.tokens
  findNodeRate : s'.findNodeRate = s.findNodeRate
  downHintRate : s'.downHintRate = s.downHintRate

lemma StoresOnly.refl (s : RpcHandlers) : StoresOnly s s := ⟨rfl, rfl, rfl, rfl⟩

lemma handleStorage_storesOnly (env : HandlerEnv) (s : RpcHandlers) (now : UInt64)
    (req : Incoming) : StoresOnly s (s.handleStorage env now req).1 := by
  unfold handleStorage
  split
  · rw [handleFindPeer_fst]
    exact .refl s
  split
  · rw [handleLookup_fst]
    exact .refl s
  split
  · rcases handleAnnounce_cases env s now req with h | ⟨target, value, peer, -, h⟩ <;> rw [h]
    exacts [.refl s, ⟨rfl, rfl, rfl, rfl⟩]
  split
  · rcases handleUnannounce_cases env s req with h | ⟨target, -, h⟩ <;> rw [h]
    exacts [.refl s, ⟨rfl, rfl, rfl, rfl⟩]
  split
  · rcases handleMutablePut_cases env s now req with
      (h | ⟨target, h⟩) | ⟨target, put, -, -, h⟩ <;> rw [h]
    exacts [.refl s, ⟨rfl, rfl, rfl, rfl⟩, ⟨rfl, rfl, rfl, rfl⟩]
  split
  · rcases handleMutableGet_cases env s req with h | ⟨target, h⟩ <;> rw [h]
    exacts [.refl s, ⟨rfl, rfl, rfl, rfl⟩]
  split
  · rcases handleImmutablePut_cases env s now req with h | ⟨target, value, -, h⟩ <;> rw [h]
    exacts [.refl s, ⟨rfl, rfl, rfl, rfl⟩]
  split
  · rcases handleImmutableGet_cases env s req with h | ⟨target, h⟩ <;> rw [h]
    exacts [.refl s, ⟨rfl, rfl, rfl, rfl⟩]
  exact .refl s

/-- What becomes of a request: it leaves what is stored, or one of the six commands that touch what
is stored handles it. -/
inductive Dispatched (env : HandlerEnv) (s : RpcHandlers) (now : UInt64) (req : Incoming) :
    RpcHandlers × Option Response → Prop
  | elsewhere {result : RpcHandlers × Option Response} (h : SameStorage s result.1) :
      Dispatched env s now req result
  | announce (h : s.Reaches req cmdAnnounce) :
      Dispatched env s now req (s.handleAnnounce env now req)
  | unannounce (h : s.Reaches req cmdUnannounce) :
      Dispatched env s now req (s.handleUnannounce env req)
  | mutablePut (h : s.Reaches req cmdMutablePut) :
      Dispatched env s now req (s.handleMutablePut env now req)
  | mutableGet (h : s.Reaches req cmdMutableGet) :
      Dispatched env s now req (s.handleMutableGet env req)
  | immutablePut (h : s.Reaches req cmdImmutablePut) :
      Dispatched env s now req (s.handleImmutablePut env now req)
  | immutableGet (h : s.Reaches req cmdImmutableGet) :
      Dispatched env s now req (s.handleImmutableGet env req)

lemma handleStorage_dispatched (env : HandlerEnv) (now : UInt64) {req : Incoming}
    (hinternal : req.internal = false) (hephemeral : s.node.ephemeral = false) :
    Dispatched env s now req (s.handleStorage env now req) := by
  have hreaches : ∀ {command}, req.command = command → s.Reaches req command :=
    fun h => ⟨hinternal, hephemeral, h⟩
  unfold handleStorage
  split
  · refine .elsewhere ?_
    rw [handleFindPeer_fst]
    exact .refl s
  split
  · refine .elsewhere ?_
    rw [handleLookup_fst]
    exact .refl s
  split
  next h => exact .announce (hreaches h)
  split
  next h => exact .unannounce (hreaches h)
  split
  next h => exact .mutablePut (hreaches h)
  split
  next h => exact .mutableGet (hreaches h)
  split
  next h => exact .immutablePut (hreaches h)
  split
  next h => exact .immutableGet (hreaches h)
  exact .elsewhere (.refl s)

/-- **What becomes of a request.** -/
theorem handle_dispatched (env : HandlerEnv) (s : RpcHandlers) (now : UInt64) (req : Incoming) :
    Dispatched env s now req (s.handle env now req) := by
  unfold handle
  split_ifs with hinternal hconnection hephemeral
  · exact .elsewhere (handleInternal_sameStorage env s now req)
  · exact .elsewhere (.refl s)
  · exact .elsewhere (.refl s)
  · exact handleStorage_dispatched env now (by simpa using hinternal) (by simpa using hephemeral)

lemma handle_of_reaches (now : UInt64) {req : Incoming} {command : UInt32}
    (h : s.Reaches req command) (hhandshake : command ≠ cmdPeerHandshake)
    (hholepunch : command ≠ cmdPeerHolepunch) :
    s.handle env now req = s.handleStorage env now req := by
  obtain ⟨hinternal, hephemeral, rfl⟩ := h
  rw [handle, if_neg (by simp [hinternal]), if_neg (not_or.2 ⟨hhandshake, hholepunch⟩),
    if_neg (by simp [hephemeral])]

lemma handle_announce (now : UInt64) {req : Incoming} (h : s.Reaches req cmdAnnounce) :
    s.handle env now req = s.handleAnnounce env now req := by
  rw [handle_of_reaches now h (by decide) (by decide), handleStorage, h.2.2, if_neg (by decide),
    if_neg (by decide), if_pos rfl]

lemma handle_unannounce (now : UInt64) {req : Incoming} (h : s.Reaches req cmdUnannounce) :
    s.handle env now req = s.handleUnannounce env req := by
  rw [handle_of_reaches now h (by decide) (by decide), handleStorage, h.2.2, if_neg (by decide),
    if_neg (by decide), if_neg (by decide), if_pos rfl]

lemma handle_findPeer (now : UInt64) {req : Incoming} (h : s.Reaches req cmdFindPeer) :
    s.handle env now req = s.handleFindPeer env req := by
  rw [handle_of_reaches now h (by decide) (by decide), handleStorage, h.2.2, if_pos rfl]

lemma handle_lookup (now : UInt64) {req : Incoming} (h : s.Reaches req cmdLookup) :
    s.handle env now req = s.handleLookup env req := by
  rw [handle_of_reaches now h (by decide) (by decide), handleStorage, h.2.2, if_neg (by decide),
    if_pos rfl]

lemma step_store_of_accepts {now : UInt64} {id : Option NodeId} {req : Incoming} {target : NodeId}
    {value : List UInt8} {peer : PeerRecord} (hopen : s.node.socket.closing = false)
    (hreaches : (s.heard env id req).Reaches req cmdAnnounce)
    (h : AcceptsAnnounce env (s.heard env id req) req target value peer) :
    (s.step env (.request now id req)).store = s.store.put target
      { fromAddr := req.fromAddr, value, createdAt := now, ttl := s.annTtlMs } := by
  rw [step, onRequest, if_neg (by simp [hopen]), handle_announce now hreaches,
    handleAnnounce_of_accepts h]
  rfl

/-- What a step may do to the announcements, the mutable and the immutable values. -/
inductive StorageStep (env : HandlerEnv) (s : RpcHandlers) :
    Input → AnnounceStore → LruCache (List Char) (List UInt8) →
      LruCache (List Char) (List UInt8) → Prop
  | same (i : Input) : StorageStep env s i s.store s.mutables s.immutables
  | announce {now : UInt64} {id : Option NodeId} {req : Incoming} {target : NodeId}
      {value : List UInt8} {peer : PeerRecord} (hopen : s.node.socket.closing = false)
      (hreaches : (s.heard env id req).Reaches req cmdAnnounce)
      (h : AcceptsAnnounce env (s.heard env id req) req target value peer) :
      StorageStep env s (.request now id req)
        (s.store.put target
          { fromAddr := req.fromAddr, value, createdAt := now, ttl := s.annTtlMs })
        s.mutables s.immutables
  | unannounce {now : UInt64} {id : Option NodeId} {req : Incoming} {target : NodeId}
      (h : req.target = some target) :
      StorageStep env s (.request now id req) (s.store.remove target req.fromAddr).1
        s.mutables s.immutables
  | mutableGet (i : Input) (target : NodeId) :
      StorageStep env s i s.store (s.mutables.get (toHexKey target)).1 s.immutables
  | mutablePut {now : UInt64} {id : Option NodeId} {req : Incoming} {target : NodeId}
      {put : MutablePutRequest} (h : AcceptsMutablePut env (s.heard env id req) req target put)
      (hreplace : s.MayReplace target put) :
      StorageStep env s (.request now id req) s.store
        ((s.mutables.get (toHexKey target)).1.put (toHexKey target) (storedOf put) now)
        s.immutables
  | immutableGet (i : Input) (target : NodeId) :
      StorageStep env s i s.store s.mutables (s.immutables.get (toHexKey target)).1
  | immutablePut {now : UInt64} {id : Option NodeId} {req : Incoming} {target : NodeId}
      {value : List UInt8} (h : AcceptsImmutablePut env (s.heard env id req) req target value) :
      StorageStep env s (.request now id req) s.store s.mutables
        (s.immutables.put (toHexKey target) value now)
  | gc (now : UInt64) :
      StorageStep env s (.gcTick now) (s.store.gc now) (s.mutables.gc now s.storageTtlMs)
        (s.immutables.gc now s.storageTtlMs)

lemma SameStorage.storageStep {s' : RpcHandlers} (h : SameStorage s s') (i : Input) :
    StorageStep env s i s'.store s'.mutables s'.immutables := by
  rw [h.store, h.mutables, h.immutables]
  exact .same i

/-- **What a step does to what is stored.** -/
theorem step_storage (env : HandlerEnv) (s : RpcHandlers) (i : Input) :
    StorageStep env s i (s.step env i).store (s.step env i).mutables (s.step env i).immutables := by
  cases i with
  | request now id req =>
    simp only [step, onRequest]
    split
    · exact .same _
    · next hopen =>
      have hdispatched := handle_dispatched env (s.heard env id req) now req
      generalize (s.heard env id req).handle env now req = result at hdispatched ⊢
      cases hdispatched with
      | elsewhere hsame =>
        have hheard : SameStorage s result.1 := ⟨hsame.store, hsame.mutables, hsame.immutables⟩
        exact hheard.storageStep _
      | announce hreaches =>
        rcases handleAnnounce_cases env (s.heard env id req) now req with
          h | ⟨target, value, peer, haccepts, h⟩ <;> rw [h]
        · exact .same _
        · exact .announce (by simpa using hopen) hreaches haccepts
      | unannounce =>
        rcases handleUnannounce_cases env (s.heard env id req) req with
          h | ⟨target, haccepts, h⟩ <;> rw [h]
        · exact .same _
        · exact .unannounce haccepts.1
      | mutablePut =>
        rcases handleMutablePut_cases env (s.heard env id req) now req with
          (h | ⟨target, h⟩) | ⟨target, put, haccepts, hreplace, h⟩ <;> rw [h]
        · exact .same _
        · exact .mutableGet _ target
        · exact .mutablePut haccepts hreplace
      | mutableGet =>
        rcases handleMutableGet_cases env (s.heard env id req) req with h | ⟨target, h⟩ <;> rw [h]
        · exact .same _
        · exact .mutableGet _ target
      | immutablePut =>
        rcases handleImmutablePut_cases env (s.heard env id req) now req with
          h | ⟨target, value, haccepts, h⟩ <;> rw [h]
        · exact .same _
        · exact .immutablePut haccepts
      | immutableGet =>
        rcases handleImmutableGet_cases env (s.heard env id req) req with
          h | ⟨target, h⟩ <;> rw [h]
        · exact .same _
        · exact .immutableGet _ target
  | delayedPing k =>
    simp only [step, onDelayedPingFire]
    split <;> exact .same _
  | gcTick now => exact .gc now
  | rotate => exact .same _
  | listen router => exact .same _
  | node i => exact .same _

end RpcHandlers

end HyperDHT.Handlers
