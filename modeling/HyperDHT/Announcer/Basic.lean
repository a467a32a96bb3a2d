import HyperDHT.Ops.Basic
import HyperDHT.Query.Plain

/-!
# The announcer

The announcer of a server (`announcer.cpp`): it looks for the nodes closest to its target, announces
itself to those that reply with a token, keeps up to three of them as relays, pings them, and starts
over every five minutes.

## Main definitions

* `Announcer` — the announcer, with the queries that it started and the requests that wait for an
  answer.
* `Announcer.start`, `stopImpl`, `refresh`, `notifyOnline`, `update`, `commit`, `buildRelays`,
  `pingRelays`, `unannounceNode` — the code.
* `Announcer.step` — the announcer as a machine.

## Design

The queries are walks, numbered in the order in which they were started; each goes on while its
visits wait for an answer, whether or not the announcer still points to it. What a walk records of its
callbacks in a step is what the announcer is called back for. The two timers exist while the announcer
runs, so they are not part of the state. Keys are parameters, as is the signature that the announcer's
own key makes.
-/

set_option autoImplicit false

namespace HyperDHT

open Compact Handlers Routing Rpc Ops

/-- A node that accepted the announcement. The address `peerAddr` is how it sees us. -/
structure RelayNode where
  addr : Ipv4Address
  peerAddr : Ipv4Address
  nodeId : NodeId
  token : List.Vector UInt8 32
  deriving DecidableEq

/-- A relay, as peers are told of it. -/
structure RelayInfo where
  relayAddress : Ipv4Address
  peerAddress : Ipv4Address
  deriving DecidableEq

/-- The pings of one round: how many relays answered, how many have not been heard of, and how many
there are. -/
structure PingRound where
  activeCount : ℕ := 0
  pending : ℤ
  total : ℕ
  /-- The requests that are neither answered nor timed out. -/
  waiting : ℕ
  deriving DecidableEq

/-- What an announcer was constructed with, and the digest and the signature it uses. -/
structure Announcer.Config where
  blake2b : List UInt8 → NodeId
  /-- The signature with the announcer's own key. -/
  sign : List UInt8 → List.Vector UInt8 64
  publicKey : List.Vector UInt8 32
  target : NodeId

/-- What a query reads from the socket: its table and its filter. -/
structure Announcer.Net where
  table : Table
  filterAccept : NodeId → Ipv4Address → Bool := fun _ _ => true

/-- The announcer. -/
structure Announcer where
  record : List UInt8
  relays : List RelayInfo := []
  activeRelays : List RelayNode := []
  running : Bool := false
  updating : Bool := false
  hasReannounced : Bool := false
  /-- The query that `current_query_` points to. -/
  currentQuery : Option ℕ := none
  /-- The sentinel that the callbacks read. -/
  alive : Bool := true
  /-- The queries that were started. -/
  queries : List Walk := []
  /-- The announcements that wait for an answer, each with the reply it was sent for. -/
  announcing : List QueryReply := []
  pings : List PingRound := []
  /-- The requests that were handed to the socket. -/
  sent : List Request := []

def reannounceMs : ℕ := 5 * 60 * 1000
def relayPingMs : ℕ := 5 * 1000
def minActive : ℕ := 3
def maxActiveRelays : ℕ := 3

namespace Announcer

/-! ## The queries -/

/-- The environment of a query. The callbacks of the announcer do not call `destroy()`. -/
def Net.env (net : Net) : Query.Env where
  table := net.table
  filterAccept := net.filterAccept

def defaultBootstrap : List Ipv4Address :=
  [⟨⟨[88, 99, 3, 86], rfl⟩, 49737⟩, ⟨⟨[142, 93, 90, 113], rfl⟩, 49737⟩,
    ⟨⟨[138, 68, 147, 8], rfl⟩, 49737⟩]

/-- What is done to a query before it is handed over: it is configured and started. -/
def setUp (net : Net) : List HyperDHT.Input :=
  (if net.table.size = 0 then defaultBootstrap.map (.addBootstrap net.env) else []) ++
    [.start net.env]

/-- A query before it is started. -/
def freshQuery (c : Config) : Walk :=
  let op := Operation.findPeer c.publicKey.toList
  .init (op.target c.blake2b) op.command op.value (op.options c.blake2b true true)

/-- The query that `find_peer` starts. -/
def findPeer (c : Config) (net : Net) : Walk :=
  Runs.run (Walk.step c.blake2b) (freshQuery c) (setUp net)

/-! ## Requests -/

/-- The message of an announcement. -/
def announcement (c : Config) (relays : List RelayInfo) : AnnounceMessage where
  peer := some { publicKey := c.publicKey, relayAddresses := relays.map (·.relayAddress) }

/-- The signature of an announcement or of its withdrawal. -/
def signAnnounce (c : Config) (ns nodeId : NodeId) (token : List.Vector UInt8 32)
    (ann : AnnounceMessage) : List.Vector UInt8 64 :=
  c.sign (annSignable c.blake2b ns c.target nodeId token ann)

/-- The announcement to the node that sent a reply with the token. -/
def commitRequest (c : Config) (relays : List RelayInfo) (node : QueryReply)
    (token : List.Vector UInt8 32) : Request :=
  let ann := announcement c relays
  let signature := signAnnounce c (nsAnnounce c.blake2b) node.fromId token ann
  { toAddr := node.fromAddr
    command := cmdAnnounce
    target := some c.target
    token := some token
    value := some (encodeAnnounceMsg { ann with signature := some signature }) }

/-- The withdrawal of the announcement to a relay, with the token that it was announced with. -/
def unannounceRequest (c : Config) (relay : RelayNode) : Request :=
  let ann := announcement c []
  let signature := signAnnounce c (nsUnannounce c.blake2b) relay.nodeId relay.token ann
  { toAddr := relay.addr
    command := cmdUnannounce
    target := some c.target
    token := some relay.token
    value := some (encodeAnnounceMsg { ann with signature := some signature }) }

def pingRequest (relay : RelayNode) : Request where
  toAddr := relay.addr
  command := cmdPing
  internal := true

/-- Announce to the node that sent a reply, if it came with a token. -/
def commit (c : Config) (s : Announcer) (node : QueryReply) : Announcer :=
  match node.token with
  | none => s
  | some token =>
    { s with
      announcing := s.announcing ++ [node]
      sent := s.sent ++ [commitRequest c s.relays node token] }

def unannounceNode (c : Config) (s : Announcer) (relay : RelayNode) : Announcer :=
  { s with sent := s.sent ++ [unannounceRequest c relay] }

/-- Ping every relay. -/
def pingRelays (s : Announcer) : Announcer :=
  if s.activeRelays.isEmpty then s
  else
    { s with
      pings := s.pings ++ [{
        pending := s.activeRelays.length
        total := s.activeRelays.length
        waiting := s.activeRelays.length }]
      sent := s.sent ++ s.activeRelays.map pingRequest }

/-! ## Cycles -/

/-- Take the relays over into the record, and announce once more with them, which `again` does. -/
def buildRelays (c : Config) (again : Announcer → Announcer) (s : Announcer) : Announcer :=
  let relays := s.activeRelays.map fun relay => RelayInfo.mk relay.addr relay.peerAddr
  let s := { s with
    relays := relays
    record := encodePeerRecord {
      publicKey := c.publicKey, relayAddresses := relays.map (·.relayAddress) } }
  if !s.relays.isEmpty && s.running && !s.hasReannounced then
    again { s with hasReannounced := true }
  else s

/-- The callback for a reply. -/
def onReply (c : Config) (s : Announcer) (reply : QueryReply) : Announcer :=
  if s.alive then s.commit c reply else s

/-- The callback for the end of a query. -/
def onDone (c : Config) (again : Announcer → Announcer) (s : Announcer) : Announcer :=
  if s.alive then
    let s := { s with updating := false, currentQuery := none }
    if s.running then buildRelays c again s else s
  else s

/-- The recursion of `update` is followed this deep. -/
def updateFuel : ℕ := 2

/-- Start a cycle, unless there is one. A query that finds nobody to ask ends before `find_peer`
returns, and its callback may start another cycle. -/
def updateAt (c : Config) (net : Net) : (fuel : ℕ) → Announcer → Announcer
  | 0, s => s
  | fuel + 1, s =>
    if s.updating || !s.running then s
    else
      let number := s.queries.length
      let query := findPeer c net
      let s := { s with updating := true, queries := s.queries ++ [query] }
      let s := if query.query.pendingDoneFired then onDone c (updateAt c net fuel) s else s
      { s with currentQuery := some number }

def update (c : Config) (net : Net) (s : Announcer) : Announcer := updateAt c net updateFuel s

/-! ## Calls of the owner -/

def start (c : Config) (net : Net) (s : Announcer) : Announcer :=
  if s.running then s else update c net { s with running := true }

/-- The end of the announcer, which withdraws its announcements or leaves them to expire. -/
def stopImpl (c : Config) (sendUnannounce : Bool) (s : Announcer) : Announcer :=
  if !s.running then s
  else
    let s := { s with running := false, alive := false, currentQuery := none, updating := false }
    let s := if sendUnannounce then s.activeRelays.foldl (unannounceNode c) s else s
    { s with activeRelays := [], relays := [] }

def refresh (c : Config) (net : Net) (s : Announcer) : Announcer :=
  if !s.running then s else update c net s

/-- The network is back: forget the relays and the query, and start a cycle. -/
def notifyOnline (c : Config) (net : Net) (s : Announcer) : Announcer :=
  if !s.running then s
  else
    update c net { s with
      hasReannounced := false
      activeRelays := []
      relays := []
      currentQuery := none
      updating := false }

/-! ## Callbacks -/

/-- What a query did is what the announcer is called back for. -/
def callback (c : Config) (net : Net) (s : Announcer) : QueryEvent → Announcer
  | .replyEnter reply => s.onReply c reply
  | .onDone _ => s.onDone c (update c net)
  | _ => s

/-- Something happens to the visits of a query. -/
def walk (c : Config) (net : Net) (s : Announcer) (number : ℕ) (i : HyperDHT.Input) : Announcer :=
  match s.queries[number]? with
  | none => s
  | some w =>
    let w' := w.step c.blake2b i
    (w.newEvents w').foldl (callback c net) { s with queries := s.queries.set number w' }

/-- Two relays have the same address. -/
def sameAddr (relay existing : RelayNode) : Bool :=
  existing.addr.hostString = relay.addr.hostString ∧ existing.addr.port = relay.addr.port

/-- A relay takes the place of the one with its address, or joins the others while there is room. -/
def putRelay (relays : List RelayNode) (relay : RelayNode) : List RelayNode :=
  if relays.any (sameAddr relay) then relays.set (relays.findIdx (sameAddr relay)) relay
  else if relays.length < maxActiveRelays then relays ++ [relay]
  else relays

/-- The relay that the answer to an announcement makes of a node. -/
def relayOf (node : QueryReply) (resp : Response) : RelayNode where
  addr := node.fromAddr
  peerAddr := resp.fromAddr
  nodeId := node.fromId
  token := node.token.getD (List.Vector.replicate 32 0)

/-- The callback for the answer to an announcement. -/
def onAnnounced (s : Announcer) (node : QueryReply) (resp : Response) : Announcer :=
  if s.alive then { s with activeRelays := putRelay s.activeRelays (relayOf node resp) } else s

/-- The callbacks for a ping that was answered, or timed out. -/
def onPing (c : Config) (net : Net) (s : Announcer) (number : ℕ) (round : PingRound)
    (answered : Bool) : Announcer :=
  let round := { round with waiting := round.waiting - 1 }
  if s.alive then
    let round := { round with
      activeCount := round.activeCount + answered.toNat, pending := round.pending - 1 }
    let s := { s with pings := s.pings.set number round }
    if round.pending = 0 ∧ round.activeCount < min round.total minActive then refresh c net s else s
  else { s with pings := s.pings.set number round }

/-! ## The machine -/

/-- What may happen: a call of the owner; a timer expires; a visit of a query is answered or times
out; so does an announcement, or a ping. -/
inductive Input where
  | start (net : Net)
  | stop
  | stopWithoutUnannounce
  | refresh (net : Net)
  | notifyOnline (net : Net)
  | bgTimer (net : Net)
  | pingTimer
  | response (net : Net) (number k : ℕ) (resp : Response)
  | timeout (net : Net) (number k : ℕ)
  | announced (k : ℕ) (resp : Response)
  | announceTimeout (k : ℕ)
  | ping (net : Net) (number : ℕ) (answered : Bool)

/-- The announcer after an input. -/
def step (c : Config) (s : Announcer) : Input → Announcer
  | .start net => s.start c net
  | .stop => s.stopImpl c true
  | .stopWithoutUnannounce => s.stopImpl c false
  | .refresh net => s.refresh c net
  | .notifyOnline net => s.notifyOnline c net
  | .bgTimer net => if !s.running then s else s.update c net
  | .pingTimer => if !s.running then s else s.pingRelays
  | .response net number k resp => s.walk c net number (.response net.env k resp)
  | .timeout net number k => s.walk c net number (.timeout net.env k)
  | .announced k resp =>
    match s.announcing[k]? with
    | none => s
    | some node => { s with announcing := s.announcing.eraseIdx k }.onAnnounced node resp
  | .announceTimeout k => { s with announcing := s.announcing.eraseIdx k }
  | .ping net number answered =>
    match s.pings[number]? with
    | none => s
    | some round => if round.waiting = 0 then s else s.onPing c net number round answered

/-- A fresh announcer: its record names no relays. -/
def init (c : Config) : Announcer where
  record := encodePeerRecord { publicKey := c.publicKey }

end Announcer

end HyperDHT
