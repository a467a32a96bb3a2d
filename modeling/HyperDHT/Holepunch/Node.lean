import HyperDHT.Holepunch.Server
import HyperDHT.Rpc.Node

/-!
# The holepunches of a node

A node as all its holepunches see it: its RPC layer with the sampler, the servers that listen at it, the
router that hands them the messages of holepunches (`Router::handle_peer_holepunch` of `router.cpp`), its
own holepunches as a client, and the counters that they are meant to share.

## Main definitions

* `PunchNode` — the node.
* `PunchNode.handedTo`, `handlePeerHolepunch`, `routerAnswer` — the router.
* `PunchNode.step` — the node as a machine.

## Main results

* `PunchNode.onRequest_of_none`, `PunchNode.onRequest_of_reaches` — what a request leads to.

## Design

The sessions of a server come and go as its inputs say; how a server opens and ends them is the matter of
`Server.step`. There is one clock, and what a client is given carries its time. The field `answers` collects
what the router sends. A request is given with the address that it is sent to, as its sender wrote it.
-/

set_option autoImplicit false

namespace HyperDHT

open Compact Routing Rpc Handlers Holepunch

/-- What the router sends: a response to the client, or a request to the relay. -/
inductive PunchAnswer where
  | reply (resp : Response)
  | relay (req : Request)
  deriving DecidableEq

/-- A holepunch as a client. -/
structure Connecting where
  env : Holepunch.Env
  state : PunchState

/-- The node. -/
structure PunchNode where
  rpc : RpcNode
  stats : PunchStats := {}
  deferRandomPunch : Bool := false
  suspended : Bool := false
  now : ℕ := 0
  /-- The servers by the targets that they listen at. -/
  forwards : AList fun _ : NodeId => ℕ := ∅
  servers : List PunchServer := []
  clients : List Connecting := []
  answers : List PunchAnswer := []

namespace PunchNode

/-! ## The router -/

/-- A message that is handed to a server: the server, the message and the address of the client. -/
structure Handed where
  j : ℕ
  server : PunchServer
  value : List UInt8
  clientAddr : Ipv4Address

/-- The server that a request is handed to. The address of the client is that in the message or, if there
is none, the one that the request comes from. -/
def handedTo (s : PunchNode) (req : Incoming) : Option Handed :=
  match req.target, req.value with
  | some target, some value =>
    match s.forwards.lookup target with
    | none => none
    | some j => s.servers[j]?.map fun server =>
        ⟨j, server, value, (decodeHolepunchMsg value).peerAddress.getD req.fromAddr⟩
  | _, _ => none

/-- The answer to a request, made from the reply of the server: a response to a client, or a request to
the relay, which has the address of the client. -/
def routerAnswer (req : Incoming) (handed : Handed) (reply : List UInt8) : PunchAnswer :=
  if (decodeHolepunchMsg handed.value).mode = modeFromClient then
    .reply {
      tid := req.tid
      fromAddr := req.fromAddr
      value := some (encodeHolepunchMsg { decodeHolepunchMsg reply with
        mode := modeReply, peerAddress := none }) }
  else
    .relay {
      tid := req.tid
      toAddr := req.fromAddr
      command := req.command
      target := req.target
      value := some (encodeHolepunchMsg { decodeHolepunchMsg reply with
        mode := modeFromServer, peerAddress := some handed.clientAddr }) }

/-- What the server makes of a message that it was handed. -/
def served (s : PunchNode) (handed : Handed) (random : ℕ) : PunchServer.Handled :=
  handed.server.onPeerHolepunch s.rpc.natSampler (some s.stats) { now := s.now, random := random }
    handed.value handed.clientAddr

/-- A message of a holepunch comes. -/
def handlePeerHolepunch (s : PunchNode) (req : Incoming) (random : ℕ) : PunchNode :=
  match s.handedTo req with
  | none => s
  | some handed =>
    let result := s.served handed random
    { s with
      rpc := { s.rpc with natSampler := result.sampler }
      servers := s.servers.set handed.j result.server
      answers := if result.reply.value.isEmpty then s.answers
        else s.answers ++ [routerAnswer req handed result.reply.value] }

/-- The RPC layer has seen a request. -/
def seen (env : Rpc.Env) (s : PunchNode) (id : Option NodeId) (req : Incoming) : PunchNode :=
  { s with rpc := s.rpc.onRecv env req.fromServer req.fromAddr (.request id) }

/-- The request is a message of a holepunch. -/
def isPeerHolepunch (req : Incoming) : Bool := !req.internal && req.command == cmdPeerHolepunch

/-- A request comes; of those that are not handled by the RPC layer alone, only the messages of holepunches
matter here. -/
def onRequest (env : Rpc.Env) (s : PunchNode) (id : Option NodeId) (req : Incoming) (random : ℕ) :
    PunchNode :=
  if s.rpc.socket.closing then s.seen env id req
  else if !isPeerHolepunch req then s.seen env id req
  else (s.seen env id req).handlePeerHolepunch req random

/-! ## The servers -/

/-- What may happen to a server: its announcer has other relays, a callback is set, sessions are opened and
end, it is suspended or closed, or the timer of a puncher expires. -/
inductive ServerInput where
  | setRelays (relays : List RelayInfo)
  | setHolepunchCb (cb : Option (UInt32 → UInt32 → List Ipv4Address → List Ipv4Address → Bool))
  | openSession (hpId : UInt32) (secure : Option SecurePayload)
  | endSession (hpId : UInt32)
  | suspend
  | close
  | punchTimer (hpId : UInt32) (random : ℕ)

/-- The timer of the puncher of a session expires. -/
def onPunchTimer (s : PunchServer) (hpId : UInt32) (tick : Tick) : PunchServer :=
  match s.sessions.lookup hpId with
  | none => s
  | some conn =>
    match conn.puncher with
    | none => s
    | some puncher =>
      if puncher.timer.isNone then s
      else { s with sessions :=
        s.sessions.insert hpId { conn with puncher := some (puncher.onPunchTimer tick).1 } }

/-- The server after an input. -/
def serverStep (tick : ℕ → Tick) (s : PunchServer) : ServerInput → PunchServer
  | .setRelays relays => if s.closed then s else { s with relays := relays }
  | .setHolepunchCb cb => { s with holepunchCb := cb }
  | .openSession hpId secure =>
    if s.closed then s else { s with sessions := s.sessions.insert hpId { secure := secure } }
  | .endSession hpId => { s with sessions := s.sessions.erase hpId }
  | .suspend => { s with sessions := ∅ }
  | .close => { s with closed := true, sessions := ∅, relays := [], probeListener := false }
  | .punchTimer hpId random => onPunchTimer s hpId (tick random)

/-! ## The machine -/

/-- What a client is given, at the time of the node. -/
def atTime (now : ℕ) : Holepunch.Input → Holepunch.Input
  | .response k toAddr source value _ => .response k toAddr source value now
  | .timeout k _ => .timeout k now
  | .probe source _ => .probe source now
  | .sleeper tick => .sleeper { tick with now := now }
  | .waitSampler _ => .waitSampler now
  | .punchTimer tick => .punchTimer { tick with now := now }

/-- What may happen: time passes, something happens to the RPC layer, a request comes, a server listens or
something happens to it, a holepunch is started or something happens to it, or the node is suspended or
resumed. -/
inductive Input where
  | clock (ms : ℕ)
  | rpc (i : RpcNode.Input)
  | request (toAddr : Ipv4Address) (id : Option NodeId) (req : Incoming) (random : ℕ)
  | listen (target : NodeId)
  | server (j : ℕ) (i : ServerInput)
  | connect (env : Holepunch.Env)
  | client (k : ℕ) (i : Holepunch.Input)
  | suspend
  | resume

/-- What happens to a server; one that closes leaves the router. -/
def onServer (s : PunchNode) (j : ℕ) (i : ServerInput) : PunchNode :=
  match s.servers[j]? with
  | none => s
  | some server =>
    let stepped := serverStep (fun random => { now := s.now, random := random }) server i
    { s with
      servers := s.servers.set j stepped
      forwards := if stepped.closed && !server.closed then s.forwards.erase server.target
        else s.forwards }

/-- All servers are suspended. -/
def suspend (s : PunchNode) : PunchNode :=
  if s.suspended then s
  else
    { s with
      suspended := true
      servers := s.servers.map fun server => { server with sessions := ∅ } }

/-- The node is resumed; if it is to defer random punches, one counts as just ended. -/
def resume (s : PunchNode) : PunchNode :=
  if !s.suspended then s
  else
    { s with
      suspended := false
      stats := if s.deferRandomPunch then { s.stats with lastRandomPunch := s.now } else s.stats }

/-- The node after an input. -/
def step (env : Rpc.Env) (s : PunchNode) : Input → PunchNode
  | .clock ms => { s with now := s.now + ms }
  | .rpc i => { s with rpc := s.rpc.step env i }
  | .request _ id req random => s.onRequest env id req random
  | .listen target => { s with
      servers := s.servers ++ [{ target := target }]
      forwards := s.forwards.insert target s.servers.length }
  | .server j i => s.onServer j i
  | .connect env => { s with clients := s.clients ++ [⟨env, Holepunch.start env⟩] }
  | .client k i => { s with clients := s.clients.modify k fun c =>
      { c with state := Holepunch.step c.env c.state (atTime s.now i) } }
  | .suspend => s.suspend
  | .resume => s.resume

/-- A fresh node. A bootstrap node tells its sampler its own address. -/
def init (localId : NodeId) (firstTid : UInt16) (ownAddr : Option Ipv4Address) (limit : ℤ)
    (interval now : ℕ) (deferRandomPunch : Bool) : PunchNode where
  rpc := { RpcNode.init localId firstTid with
    natSampler := match ownAddr with
      | none => {}
      | some addr => (NatSampler.State.add {} addr addr).1 }
  stats := {
    randomPunchLimit := limit
    randomPunchInterval := interval
    lastRandomPunch := if deferRandomPunch then now else 0 }
  deferRandomPunch := deferRandomPunch
  now := now

/-! ## What a request leads to -/

/-- The server that answers a request, if there is one. -/
def reaches (s : PunchNode) (req : Incoming) : Option Handed :=
  if s.rpc.socket.closing || !isPeerHolepunch req then none
  else (s.handedTo req).filter fun handed => decide (handed.server.Serves handed.value)

variable {env : Rpc.Env} {s : PunchNode} {req : Incoming} {handed : Handed} {id : Option NodeId}
  {random : ℕ}

lemma handedTo_spec (h : s.handedTo req = some handed) :
    s.servers[handed.j]? = some handed.server ∧ req.value = some handed.value ∧
      handed.clientAddr = (decodeHolepunchMsg handed.value).peerAddress.getD req.fromAddr := by
  unfold handedTo at h
  split at h
  next target value _ hvalue =>
    split at h
    · simp at h
    next j _ =>
      obtain ⟨server, hserver, rfl⟩ := Option.map_eq_some_iff.1 h
      exact ⟨hserver, hvalue, rfl⟩
  · simp at h

lemma reaches_spec (h : s.reaches req = some handed) :
    s.rpc.socket.closing = false ∧ isPeerHolepunch req = true ∧ s.handedTo req = some handed ∧
      handed.server.Serves handed.value := by
  unfold reaches at h
  split at h
  · simp at h
  next hopen =>
    obtain ⟨hhanded, hserves⟩ := Option.filter_eq_some_iff.1 h
    simp only [Bool.or_eq_true, Bool.not_eq_true', not_or, Bool.not_eq_true, Bool.not_eq_false]
      at hopen
    exact ⟨hopen.1, hopen.2, hhanded, of_decide_eq_true hserves⟩

/-- A request that no server answers is seen by the RPC layer alone. -/
theorem onRequest_of_none (h : s.reaches req = none) :
    s.onRequest env id req random = s.seen env id req := by
  unfold reaches at h
  unfold onRequest
  split
  · rfl
  next hopen =>
    split
    · rfl
    next hmsg =>
      rw [if_neg (by simp_all)] at h
      unfold handlePeerHolepunch
      rw [show (s.seen env id req).handedTo req = s.handedTo req from rfl]
      cases hhanded : s.handedTo req with
      | none => rfl
      | some handed =>
        rw [hhanded] at h
        have hnot : ¬ handed.server.Serves handed.value := by simpa using h
        have hserver := (handedTo_spec hhanded).1
        dsimp only
        unfold served
        rw [PunchServer.onPeerHolepunch_of_not_serves hnot]
        have hset : s.servers.set handed.j handed.server = s.servers := by
          obtain ⟨hlt, hget⟩ := List.getElem?_eq_some_iff.1 hserver
          rw [← hget, List.set_getElem_self]
        simp [seen, hset]

/-- **What a request leads to** that a server answers. -/
theorem onRequest_of_reaches (h : s.reaches req = some handed) :
    s.onRequest env id req random = { s.seen env id req with
      rpc := { (s.seen env id req).rpc with
        natSampler := ((s.seen env id req).served handed random).sampler }
      servers := s.servers.set handed.j ((s.seen env id req).served handed random).server
      answers := if ((s.seen env id req).served handed random).reply.value.isEmpty then s.answers
        else s.answers ++
          [routerAnswer req handed ((s.seen env id req).served handed random).reply.value] } := by
  obtain ⟨hopen, hmsg, hhanded, -⟩ := reaches_spec h
  unfold onRequest
  rw [if_neg (by simp [hopen]), if_neg (by simp [hmsg])]
  unfold handlePeerHolepunch
  rw [show (s.seen env id req).handedTo req = s.handedTo req from rfl, hhanded]
  rfl

end PunchNode

end HyperDHT
