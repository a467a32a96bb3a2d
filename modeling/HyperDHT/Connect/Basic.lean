import HyperDHT.Connect.Payload
import HyperDHT.NatSampler.Basic

/-!
# Connecting to a peer

How a node connects to a peer (`connect.cpp`). It looks for nodes that know the peer and sends a
handshake through them, at most two at a time; the first reply wins. From there several paths lead to
the peer, and those that apply run side by side: a relay for the connection, a ping to an address in
the same network, a holepunch, or waiting for a packet of the peer.

## Main definitions

* `ConnState` — the state of a connect: its handshakes, the reply that won and its paths.
* `ConnState.fireHandshake`, `tryNextRelay`, `checkExhaustion`, `onFindPeerReply`, `onFindPeerDone`, `onHandshakeResult`
  — the code up to the reply that wins.
* `ConnState.onHandshakeSuccess`, `ConnState.startRelayPath` — the code that follows it.
* `Connect.start`, `Connect.step` — a connect as a machine.
* `matchAddress` — the address that is closest to one of our own (`holepunch.cpp`).

## Design

A request through the socket of the node has its callback called later, unless the socket refuses it;
`Env.accepts` says which of the requests for a handshake are taken, in the order in which they are made.
The holepunch, the connect to a relay and the ping are seen from here by their callbacks only. The
fields `requests`, `handshakes`, `successes` and `completions` record what the connect has done. The counters of the relay statistics, which nothing
here reads, and the handles that keep a socket of the pool alive are left out. A query that finds nodes
keeps itself alive until it is done, so that forgetting it does not end it.
-/

set_option autoImplicit false

namespace HyperDHT

open Compact

/-! ## Addresses of the same network -/

/-- The octet of a host at a position below four. -/
def octet (a : Ipv4Address) (i : Fin 4) : UInt8 := a.host.get i

/-- How many octets, at most three, an address has in common with one of ours. -/
def commonOctets (ours remote : Ipv4Address) : ℕ :=
  if octet ours 0 ≠ octet remote 0 then 0
  else if octet ours 1 ≠ octet remote 1 then 1
  else if octet ours 2 ≠ octet remote 2 then 2
  else 3

/-- The loop over the pairs: the first address with three common octets is taken at once, of the others
the first one with the most. -/
def matchLoop : List (Ipv4Address × Ipv4Address) → ℕ → Option Ipv4Address → Option Ipv4Address
  | [], _, best => best
  | (ours, remote) :: pairs, segment, best =>
    let common := commonOctets ours remote
    if common = 3 then some remote
    else if segment < common then matchLoop pairs common (some remote)
    else matchLoop pairs segment best

/-- The remote address that is closest to one of ours. -/
def matchAddress (myAddresses remoteAddresses : List Ipv4Address) : Option Ipv4Address :=
  matchLoop (myAddresses.flatMap fun ours => remoteAddresses.map fun remote => (ours, remote)) 0 none

/-! ## Handshakes -/

/-- The payload of a first message. -/
def handshakePayload (udxId firewall : UInt32) (addresses4 : List Ipv4Address)
    (relayThrough : Option RelayThroughInfo) : NoisePayload where
  firewall := firewall
  addresses4 := addresses4
  udx := some { id := udxId }
  hasSecretStream := true
  relayThrough := relayThrough

/-- What became of a handshake. -/
structure HandshakeResult where
  success : Bool := false
  keys : NoiseKeys :=
    ⟨List.Vector.replicate 32 0, List.Vector.replicate 32 0, List.Vector.replicate 64 0⟩
  remotePublicKey : List.Vector UInt8 32 := List.Vector.replicate 32 0
  remotePayload : NoisePayload := {}
  serverAddress : Option Ipv4Address := none
  deriving DecidableEq

/-- The result of a reply whose payload was decrypted. -/
def HandshakeResult.ofReply (remotePublicKey : List.Vector UInt8 32) (keys : NoiseKeys)
    (decrypted : List UInt8) (peerAddress : Option Ipv4Address) : HandshakeResult :=
  let payload := decodeNoisePayload decrypted
  { success := payload.error == errorNone
    keys := keys
    remotePublicKey := remotePublicKey
    remotePayload := payload
    serverAddress := peerAddress }

namespace Connect

/-! ## The state -/

inductive ConnectError where
  | none
  | destroyed
  | peerNotFound
  | peerConnectionFailed
  | noAddresses
  | holepunchFailed
  | holepunchTimeout
  | relayFailed
  deriving DecidableEq

/-- What a connect ends with. -/
structure ConnectResult where
  success : Bool := false
  keys : NoiseKeys :=
    ⟨List.Vector.replicate 32 0, List.Vector.replicate 32 0, List.Vector.replicate 64 0⟩
  remotePublicKey : List.Vector UInt8 32 := List.Vector.replicate 32 0
  peerAddress : Ipv4Address := .zero
  remoteUdxId : UInt32 := 0
  localUdxId : UInt32 := 0
  rawStream : Bool := false
  /-- Where a relay has connected the stream to. -/
  via : Option RelayVia := none
  udxSocket : Option ℕ := none
  deriving DecidableEq

/-- A call of the callback of the connect, with the relays and the route that are kept for the next
one. -/
structure Completion where
  error : ConnectError
  result : ConnectResult
  cachedRelays : List Ipv4Address
  route : Option (ℕ × Ipv4Address)
  deriving DecidableEq

/-- A request for a handshake whose callback is still to come. -/
structure Handshake where
  relayAddr : Ipv4Address
  viaRoute : Bool
  payload : NoisePayload
  deriving DecidableEq

/-- How far the way through a relay is: the relay is connected to, pairs the sides, or did not. -/
inductive RelayPhase where
  | connecting
  | pairing
  | over
  deriving DecidableEq

/-- The way through a relay. -/
structure RelayState where
  isInitiator : Bool
  relayKey : List.Vector UInt8 32
  token : List.Vector UInt8 32
  phase : RelayPhase := .connecting
  /-- The timer of the pairing runs. -/
  timeout : Bool := true
  /-- The socket and the address of the stream to the relay. -/
  stream : Option (ℕ × Ipv4Address) := none
  deriving DecidableEq

/-- What a holepunch is started with. -/
structure HolepunchCall where
  relay : Ipv4Address
  peer : Ipv4Address
  id : UInt32
  firewall : NatSampler.Firewall
  addresses : List Ipv4Address
  fastOpen : Bool
  deriving DecidableEq

/-- What a holepunch ends with. -/
structure HolepunchResult where
  success : Bool := false
  address : Ipv4Address := .zero
  socket : Option ℕ := none
  deriving DecidableEq

/-- The state of a connect. -/
structure ConnState where
  /-- The node has not been destroyed. -/
  alive : Bool := true
  completed : Bool := false
  found : Bool := false
  /-- The query for nodes that know the peer runs. -/
  finding : Bool := false
  queryDone : Bool := false
  handshakesInFlight : ℕ := 0
  handshakesStarted : ℕ := 0
  pendingRelays : List Ipv4Address := []
  relays : List Ipv4Address := []
  relayAddr : Ipv4Address := .zero
  hsResult : HandshakeResult := {}
  /-- A packet of the peer that came before its reply. -/
  cachedFw : Option (ℕ × Ipv4Address) := none
  rawStream : Bool := true
  relayToken : List.Vector UInt8 32 := List.Vector.replicate 32 0
  relay : Option RelayState := none
  lanPing : Option Ipv4Address := none
  holepunch : Option HolepunchCall := none
  passiveTimer : Bool := false
  requests : ℕ := 0
  handshakes : List Handshake := []
  successes : List (Ipv4Address × HandshakeResult) := []
  completions : List Completion := []
  deriving DecidableEq

/-- What a connect is given: the peer, the options, the id of the stream and the token for a relay,
which are random, the route and the relays that an earlier connect has left, and which requests for a
handshake are taken. -/
structure Env where
  remotePublicKey : List.Vector UInt8 32 := List.Vector.replicate 32 0
  udxId : UInt32 := 0
  fastOpen : Bool := true
  localConnection : Bool := true
  relayThrough : Option (List.Vector UInt8 32) := none
  relayToken : List.Vector UInt8 32 := List.Vector.replicate 32 0
  route : Option Ipv4Address := none
  cachedRelays : List Ipv4Address := []
  accepts : ℕ → Bool := fun _ => true

lemma nil_size_lt : ([] : List Ipv4Address).length < 2 ^ 63 := by decide

/-- What a connect finds in its node: the addresses under which it is known, whether it is behind a
firewall, its port, its local addresses, those of them that were validated, and whether a connect to a
relay or a ping is refused. -/
structure Surroundings where
  sampler : NatSampler.State := {}
  firewalled : Bool := true
  port : UInt16 := 0
  validatedLocalAddresses : List Ipv4Address := []
  localAddresses : List Ipv4Address := []
  relayRefused : Bool := false
  pingRefused : Bool := false
  /-- A vector has no more elements than the memory has bytes. -/
  size_lt : validatedLocalAddresses.length < 2 ^ 63 := by exact nil_size_lt

namespace ConnState

/-! ## The end of a connect -/

/-- The callback is called, unless it was before. -/
def complete (s : ConnState) (error : ConnectError) (result : ConnectResult) : ConnState :=
  if s.completed then s
  else
    let completion : Completion := {
      error := error
      result := result
      cachedRelays := if error = .none then s.relays else []
      route := if error = .none then result.udxSocket.map fun socket => (socket, result.peerAddress)
        else none }
    { s with completed := true, completions := s.completions ++ [completion] }

/-- The connect fails. -/
def fail (s : ConnState) (error : ConnectError) : ConnState := s.complete error {}

/-- The connect succeeds, and hands out its stream. -/
def succeed (env : Env) (s : ConnState) (hs : HandshakeResult) (peerAddress : Ipv4Address)
    (socket : Option ℕ) (via : Option RelayVia) : ConnState :=
  let result : ConnectResult := {
    success := true
    keys := hs.keys
    remotePublicKey := hs.remotePublicKey
    peerAddress := peerAddress
    remoteUdxId := (hs.remotePayload.udx.map (·.id)).getD 0
    localUdxId := env.udxId
    rawStream := s.rawStream
    via := via
    udxSocket := socket }
  { s with rawStream := false }.complete .none result

/-! ## Up to the reply that wins -/

/-- A request for a handshake. -/
def peerHandshake (env : Env) (s : ConnState) (h : Handshake) : ConnState :=
  { s with
    requests := s.requests + 1
    handshakes := if env.accepts s.requests then s.handshakes ++ [h] else s.handshakes }

/-- The firewall and the addresses that the peer is told. -/
def ourAddresses (env : Env) (here : Surroundings) : UInt32 × List Ipv4Address :=
  let sampler := here.sampler
  let isOpen := !sampler.host.isEmpty && sampler.port != 0 && !here.firewalled &&
    sampler.port == here.port
  (if isOpen then firewallOpen else firewallUnknown,
    (if isOpen then [Ipv4Address.fromString sampler.host sampler.port] else []) ++
      if env.localConnection then here.validatedLocalAddresses else [])

/-- A handshake through a relay. -/
def fireHandshake (env : Env) (here : Surroundings) (s : ConnState) (relayAddr : Ipv4Address) :
    ConnState :=
  if s.completed || !s.alive then s
  else
    let ours := ourAddresses env here
    let relayThrough := env.relayThrough.map fun key => { publicKey := key, token := s.relayToken }
    peerHandshake env
      { s with
        handshakesInFlight := s.handshakesInFlight + 1
        handshakesStarted := s.handshakesStarted + 1 }
      { relayAddr := relayAddr
        viaRoute := false
        payload := handshakePayload env.udxId ours.1 ours.2 relayThrough }

/-- A handshake through a relay, now or when another one is over. -/
def fireOrQueue (env : Env) (here : Surroundings) (s : ConnState) (relayAddr : Ipv4Address) :
    ConnState :=
  if s.handshakesInFlight < 2 then fireHandshake env here s relayAddr
  else { s with pendingRelays := s.pendingRelays ++ [relayAddr] }

def checkExhaustion (s : ConnState) : ConnState :=
  if s.completed then s
  else if s.handshakesInFlight > 0 then s
  else if !s.pendingRelays.isEmpty then s
  else if !s.queryDone then s
  else if s.hsResult.success then s
  else s.fail .peerConnectionFailed

/-- The loop over the relays that wait. -/
def drainRelays (env : Env) (here : Surroundings) : List Ipv4Address → ConnState → ConnState
  | [], s => { s with pendingRelays := [] }
  | addr :: rest, s =>
    if s.handshakesInFlight < 2 then
      drainRelays env here rest (fireHandshake env here { s with pendingRelays := rest } addr)
    else { s with pendingRelays := addr :: rest }

def tryNextRelay (env : Env) (here : Surroundings) (s : ConnState) : ConnState :=
  if s.completed then s
  else if s.hsResult.success then s
  else (drainRelays env here s.pendingRelays s).checkExhaustion

def startFindPeer (s : ConnState) : ConnState :=
  if s.completed || !s.alive then s else { s with finding := true }

/-- A node answers the query. -/
def onFindPeerReply (env : Env) (here : Surroundings) (s : ConnState) (source : Ipv4Address)
    (value : Option (List UInt8)) : ConnState :=
  if !s.finding then s
  else if s.completed then s
  else if s.hsResult.success then s
  else if (value.getD []).isEmpty then s
  else fireOrQueue env here { s with found := true, relays := s.relays ++ [source] } source

def onFindPeerDone (s : ConnState) : ConnState :=
  if !s.finding then s
  else
    let s := { s with finding := false, queryDone := true }
    if s.completed then s
    else if !s.found && s.handshakesStarted == 0 then s.fail .peerNotFound
    else s.checkExhaustion

/-! ## The paths to the peer -/

/-- The way through a relay is begun. -/
def startRelayPath (here : Surroundings) (s : ConnState) (isInitiator : Bool)
    (relayKey token : List.Vector UInt8 32) : ConnState :=
  { s with relay := some {
      isInitiator := isInitiator
      relayKey := relayKey
      token := token
      phase := if here.relayRefused then .over else .connecting } }

/-- A relay is taken if one of the sides has named one; that of the peer goes before ours. -/
def chooseRelay (env : Env) (here : Surroundings) (s : ConnState) (hs : HandshakeResult) : ConnState :=
  match hs.remotePayload.relayThrough, env.relayThrough with
  | some theirs, _ =>
    startRelayPath here { s with relayToken := theirs.token } false theirs.publicKey theirs.token
  | none, some key => startRelayPath here s true key s.relayToken
  | none, none => s

/-- The address of a peer that is not behind a firewall. -/
def tryDirectConnect (hs : HandshakeResult) : Option Ipv4Address :=
  if !hs.success then none
  else if hs.remotePayload.firewall = firewallOpen then hs.remotePayload.addresses4.head?
  else none

/-- The relay for the holepunch, and the address of the peer: that of the handshake if the peer names
it, and the address that is seen now if it is. -/
def holepunchTarget (s : ConnState) (hs : HandshakeResult) (first : RelayInfo)
    (relays : List RelayInfo) : Ipv4Address × Ipv4Address :=
  let relay := (relays.find? fun r =>
    r.relayAddress.hostString = s.relayAddr.hostString ∧ r.relayAddress.port = s.relayAddr.port).getD first
  (relay.relayAddress, hs.serverAddress.getD relay.peerAddress)

/-- An address of the peer that is in our network: under the same host, or with common octets. -/
def lanAddress (env : Env) (here : Surroundings) (s : ConnState) (hs : HandshakeResult) :
    Option Ipv4Address :=
  match hs.remotePayload.addresses4 with
  | [] => none
  | first :: _ =>
    let relayed := first ≠ s.relayAddr
    let sameNat := env.localConnection ∧ relayed ∧ here.sampler.host ≠ [] ∧
      here.sampler.host = first.hostString
    let matched := matchAddress here.localAddresses hs.remotePayload.addresses4
    let sameSubnet := env.localConnection ∧ relayed ∧ ¬ sameNat ∧ matched.isSome
    if sameNat ∨ sameSubnet then some (matched.getD first) else none

/-- The paths to a peer that is behind a firewall. -/
def startPaths (env : Env) (here : Surroundings) (s : ConnState) (hs : HandshakeResult)
    (info : HolepunchInfo) (first : RelayInfo) : ConnState :=
  if here.sampler.firewall = .open then { s with passiveTimer := true }
  else
    let target := s.holepunchTarget hs first info.relays
    { s with
      lanPing := if here.pingRefused then none else s.lanAddress env here hs
      holepunch := some {
        relay := target.1
        peer := target.2
        id := info.id
        firewall := here.sampler.firewall
        addresses := here.sampler.addresses
        fastOpen := env.fastOpen } }

/-- The ways to the peer that its payload offers. -/
def choosePath (env : Env) (here : Surroundings) (s : ConnState) (hs : HandshakeResult) : ConnState :=
  match tryDirectConnect hs with
  | some addr => s.succeed env hs addr none none
  | none =>
    match hs.remotePayload.holepunch with
    | some ⟨id, first :: rest⟩ => s.startPaths env here hs ⟨id, first :: rest⟩ first
    | _ =>
      match hs.remotePayload.addresses4 with
      | addr :: _ => s.succeed env hs addr none none
      | [] => s.fail .noAddresses

/-- A packet of the peer that came before the reply is enough; otherwise the paths are begun. -/
def onHandshakeSuccess (env : Env) (here : Surroundings) (s : ConnState) (hs : HandshakeResult) :
    ConnState :=
  let s := { s with successes := s.successes ++ [(s.relayAddr, hs)] }
  match s.cachedFw with
  | some (socket, addr) =>
    if s.completed then (s.chooseRelay env here hs).choosePath env here hs
    else s.succeed env hs addr (some socket) none
  | none => (s.chooseRelay env here hs).choosePath env here hs

/-! ## The results of handshakes -/

/-- The callback of a handshake through a relay. -/
def onHandshakeResult (env : Env) (here : Surroundings) (s : ConnState) (relayAddr : Ipv4Address)
    (hs : HandshakeResult) : ConnState :=
  let s := { s with handshakesInFlight := s.handshakesInFlight - 1 }
  if s.completed then s
  else if s.hsResult.success then s.tryNextRelay env here
  else if !s.alive || !hs.success then s.tryNextRelay env here
  else
    { s with relayAddr := relayAddr, hsResult := hs, pendingRelays := [] }.onHandshakeSuccess env here hs

/-- The callback of a handshake over the route of an earlier connect. -/
def onRouteResult (env : Env) (here : Surroundings) (s : ConnState) (routeAddr : Ipv4Address)
    (hs : HandshakeResult) : ConnState :=
  if s.completed || !s.alive then s
  else if hs.success then
    { s with relayAddr := routeAddr, hsResult := hs }.onHandshakeSuccess env here hs
  else s.startFindPeer

/-- The callback of the `k`-th handshake that has not called back. -/
def onHandshake (env : Env) (here : Surroundings) (s : ConnState) (k : ℕ) (hs : HandshakeResult) :
    ConnState :=
  match s.handshakes[k]? with
  | none => s
  | some h =>
    let s := { s with handshakes := s.handshakes.eraseIdx k }
    if h.viaRoute then s.onRouteResult env here h.relayAddr hs
    else s.onHandshakeResult env here h.relayAddr hs

/-! ## The events of the paths -/

/-- A packet comes to the stream; one of the relay is left to the relay. -/
def onPacket (env : Env) (s : ConnState) (socket : ℕ) (source : Ipv4Address) : ConnState :=
  if !s.alive then s
  else if s.completed then s
  else if (s.relay.bind (·.stream)) = some (socket, source) then s
  else if !s.hsResult.success then { s with cachedFw := some (socket, source) }
  else s.succeed env s.hsResult source (some socket) none

/-- The callback of the connect to the relay. -/
def onRelayConnect (s : ConnState) (error : ConnectError) (result : ConnectResult) (channel : Bool) :
    ConnState :=
  match s.relay with
  | none => s
  | some r =>
    if r.phase ≠ .connecting then s
    else if s.completed || !s.alive then s
    else if error ≠ .none || !result.success then { s with relay := some { r with phase := .over } }
    else
      let r := { r with
        stream := if result.rawStream then result.udxSocket.map fun socket => (socket, result.peerAddress)
          else none }
      { s with relay := some { r with phase := if channel then .pairing else .over } }

/-- The relay has paired the sides. Only a stream that is connected can tell. -/
def onRelayPair (env : Env) (s : ConnState) (remoteId : UInt32) : ConnState :=
  match s.relay with
  | none => s
  | some r =>
    if r.phase ≠ .pairing then s
    else
      match r.stream with
      | none => s
      | some (socket, addr) =>
        if s.completed || !s.alive then s
        else
          { s with relay := some { r with phase := .over, timeout := false } }.succeed env s.hsResult addr
            (some socket) (some ⟨remoteId, addr, socket⟩)

def onRelayPairFailed (s : ConnState) : ConnState :=
  match s.relay with
  | none => s
  | some r =>
    if r.phase ≠ .pairing then s
    else if s.completed then s
    else { s with relay := some { r with phase := .over } }

/-- The timer of the pairing expires, which is only counted. -/
def onRelayTimeout (s : ConnState) : ConnState :=
  { s with relay := s.relay.map fun r => { r with timeout := false } }

def onPassiveTimeout (s : ConnState) : ConnState :=
  if !s.passiveTimer then s
  else
    let s := { s with passiveTimer := false }
    if s.completed then s else s.fail .holepunchTimeout

/-- The callback of the ping. -/
def onLanPing (env : Env) (s : ConnState) (ok : Bool) : ConnState :=
  match s.lanPing with
  | none => s
  | some addr =>
    let s := { s with lanPing := none }
    if s.completed then s
    else if !ok then s
    else s.succeed env s.hsResult addr none none

/-- The callback of the holepunch. -/
def onHolepunch (env : Env) (s : ConnState) (hp : HolepunchResult) : ConnState :=
  match s.holepunch with
  | none => s
  | some _ =>
    let s := { s with holepunch := none }
    if s.completed then s
    else if !s.alive || !hp.success then s.fail .holepunchFailed
    else s.succeed env s.hsResult hp.address hp.socket none

/-- The node is destroyed. -/
def destroy (s : ConnState) : ConnState := { s with alive := false }

end ConnState

/-! ## The machine -/

/-- The start of a connect: over the route that is known, or through the relays that are known while
others are looked for. -/
def start (env : Env) (here : Surroundings) : ConnState :=
  let s : ConnState := { relayToken := env.relayToken }
  match env.route with
  | some addr =>
    { s with found := true }.peerHandshake env
      { relayAddr := addr
        viaRoute := true
        payload := handshakePayload env.udxId firewallUnknown [] none }
  | none =>
    (env.cachedRelays.foldl (ConnState.fireOrQueue env here)
      { s with found := !env.cachedRelays.isEmpty }).startFindPeer

/-- What may happen. -/
inductive Input where
  | findPeerReply (here : Surroundings) (source : Ipv4Address) (value : Option (List UInt8))
  | findPeerDone
  | handshake (here : Surroundings) (k : ℕ) (hs : HandshakeResult)
  | packet (socket : ℕ) (source : Ipv4Address)
  | relayConnect (error : ConnectError) (result : ConnectResult) (channel : Bool)
  | relayPair (remoteId : UInt32)
  | relayPairFailed
  | relayTimeout
  | passiveTimeout
  | lanPing (ok : Bool)
  | holepunch (hp : HolepunchResult)
  | destroy

/-- The connect after an input. -/
def step (env : Env) (s : ConnState) : Input → ConnState
  | .findPeerReply here source value => s.onFindPeerReply env here source value
  | .findPeerDone => s.onFindPeerDone
  | .handshake here k hs => s.onHandshake env here k hs
  | .packet socket source => s.onPacket env socket source
  | .relayConnect error result channel => s.onRelayConnect error result channel
  | .relayPair remoteId => s.onRelayPair env remoteId
  | .relayPairFailed => s.onRelayPairFailed
  | .relayTimeout => s.onRelayTimeout
  | .passiveTimeout => s.onPassiveTimeout
  | .lanPing ok => s.onLanPing env ok
  | .holepunch hp => s.onHolepunch env hp
  | .destroy => s.destroy

end Connect

end HyperDHT
