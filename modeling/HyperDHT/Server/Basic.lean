import HyperDHT.Announcer.Basic
import HyperDHT.Handlers.Basic
import Mathlib.Data.List.AList

/-!
# The server

The server of a node (`server.cpp`), which answers handshakes. The first message of a client leads to a
session with a raw stream; the session ends when the client gets through to it, by the stream or by a
holepunch, when it times out, or when its stream closes. A session with a relay may also be accepted
through the relay. A message that comes again, over another relay, is answered from its session.

## Main definitions

* `Server` — the server, with its sessions, the decisions of the firewall and the relays that it waits
  for, and the streams that it made.
* `Server.decodeHandshake`, `finalizeHandshake` — the two phases of a handshake
  (`server_connection.cpp`).
* `Server.onPeerHandshake`, `onHandshakeResult`, `onPeerHolepunch`, `onSocket`, `clearSession`,
  `onRawStreamFirewall`, `onRawStreamClose` — the code.
* `Server.step` — the server as a machine.

## Design

A raw stream is a number, the position at which it was made; the stream of a session is destroyed with
the session, unless it was handed out. A handshake draws its ephemeral key and the id of its stream at
random; both are inputs, as is what the server finds in its surroundings at that time. Of the Noise
handshake the ephemeral key stands at the front of the second message, the rest of it is a parameter;
so is the way a client holepunches, of which the server only sees the outcome here. The first message
is kept with all that it leads to; the program keeps it only as the key of the session.
-/

set_option autoImplicit false

namespace HyperDHT

open Compact Handlers Rpc

/-! ## Messages -/

def firewallUnknown : UInt32 := 0
def firewallOpen : UInt32 := 1
def firewallConsistent : UInt32 := 2
def firewallRandom : UInt32 := 3

def errorNone : UInt32 := 0
def errorAborted : UInt32 := 1
def errorVersionMismatch : UInt32 := 2

/-- The stream of a side of a connection. -/
structure UdxInfo where
  version : UInt32 := 1
  reusableSocket : Bool := false
  id : UInt32 := 0
  seq : UInt32 := 0
  deriving DecidableEq

/-- The session of a holepunch, and the relays over which it goes. -/
structure HolepunchInfo where
  id : UInt32 := 0
  relays : List RelayInfo := []
  deriving DecidableEq

/-- A relay for the connection itself, and the token under which the sides are paired. -/
structure RelayThroughInfo where
  version : UInt32 := 1
  publicKey : List.Vector UInt8 32
  token : List.Vector UInt8 32
  deriving DecidableEq

/-- What a message of the handshake carries. -/
structure NoisePayload where
  version : UInt32 := 1
  error : UInt32 := errorNone
  firewall : UInt32 := firewallUnknown
  holepunch : Option HolepunchInfo := none
  addresses4 : List Ipv4Address := []
  addresses6 : List Ipv6Address := []
  udx : Option UdxInfo := none
  hasSecretStream : Bool := false
  relayThrough : Option RelayThroughInfo := none
  relayAddresses : List Ipv4Address := []
  deriving DecidableEq

/-- The keys at the end of a handshake. -/
structure NoiseKeys where
  txKey : List.Vector UInt8 32
  rxKey : List.Vector UInt8 32
  handshakeHash : List.Vector UInt8 64
  deriving DecidableEq

/-- A handshake whose first message was read. -/
structure PendingHandshake where
  noise : List UInt8
  remotePublicKey : List.Vector UInt8 32
  remotePayload : NoisePayload
  deriving DecidableEq

/-! ## Sessions -/

/-- A session: what is known of the client, and the reply that was sent to it. -/
structure ServerConnection where
  noise : List UInt8
  keys : NoiseKeys
  remotePublicKey : List.Vector UInt8 32
  remotePayload : NoisePayload
  replyNoise : List UInt8
  localUdxId : UInt32
  rawStream : Option ℕ := none
  ourFirewall : UInt32
  ourAddresses : List Ipv4Address
  hasError : Bool
  errorCode : UInt32
  /-- A holepunch was started. -/
  puncher : Bool := false
  deriving DecidableEq

/-- What the callback for a connection is given. -/
structure ConnectionInfo where
  keys : NoiseKeys
  remotePublicKey : List.Vector UInt8 32
  peerAddress : Ipv4Address
  remoteUdxId : UInt32 := 0
  localUdxId : UInt32
  isInitiator : Bool := false
  rawStream : Option ℕ
  udxSocket : Option ℕ
  deriving DecidableEq

/-- What a relay has paired a side with: the stream of the other side, over the relay. -/
structure RelayVia where
  remoteId : UInt32
  address : Ipv4Address
  socket : ℕ
  deriving DecidableEq

/-- A raw stream. The server hears of it while it has its context. -/
structure RawStream where
  noise : List UInt8
  localId : UInt32
  /-- Where a relay has connected it to. -/
  remote : Option RelayVia := none
  ctx : Bool := true
  destroyed : Bool := false
  closed : Bool := false
  deriving DecidableEq

/-- A connection to a relay that a session waits for, first to be made and then to be paired. -/
structure RelayAttempt where
  noise : List UInt8
  hpId : UInt32
  rawStream : ℕ
  keys : NoiseKeys
  remotePublicKey : List.Vector UInt8 32
  localUdxId : UInt32
  remoteUdxId : UInt32
  relayKey : List.Vector UInt8 32
  relayToken : List.Vector UInt8 32
  isInitiator : Bool
  pairing : Bool := false
  deriving DecidableEq

/-- The firewall of a server: it decides at once, or later. -/
inductive Firewall where
  | none
  | sync
  | async
  deriving DecidableEq

/-- A decision that the firewall has not made yet, and what it is needed for. -/
structure Deciding where
  pending : PendingHandshake
  hpId : UInt32
  hasRemoteAddr : Bool
  relayThrough : Option RelayThroughInfo
  ourAddresses : List Ipv4Address
  relayInfos : List RelayInfo
  deriving DecidableEq

/-- The server. -/
structure Server where
  listening : Bool := false
  closed : Bool := false
  suspended : Bool := false
  /-- There is a callback for connections. -/
  onConnection : Bool := false
  firewall : Firewall := .none
  nextHpId : UInt32 := 0
  connections : AList fun _ : UInt32 => ServerConnection := ∅
  /-- The session of a first message. -/
  handshakeDedup : AList fun _ : List Char => UInt32 := ∅
  /-- The session of a raw stream. -/
  pendingPunchStreams : AList fun _ : UInt32 => UInt32 := ∅
  sessionTimers : AList fun _ : UInt32 => UInt64 := ∅
  deciding : List Deciding := []
  relayAttempts : List RelayAttempt := []
  streams : List RawStream := []
  /-- The replies that were sent, each with the message that it answers. -/
  replies : List (List UInt8 × List UInt8) := []
  /-- The calls of the callback, each with the message that led to it. -/
  accepted : List (List UInt8 × ConnectionInfo) := []

def maxPendingHandshakes : ℕ := 256
def maxHandshakeDedup : ℕ := 512

/-- The digits of a byte string. -/
def toHex (bytes : List UInt8) : List Char :=
  bytes.flatMap fun b => [hexChar (b.toNat / 16), hexChar (b.toNat % 16)]

namespace Server

/-- What a server was constructed with: what the Noise handshake makes of a first message, and of the
payload of a second one, and the options. -/
structure Env where
  /-- The key and the payload of the client, if the message can be read. -/
  recv : List UInt8 → Option (List.Vector UInt8 32 × NoisePayload)
  /-- The second message after the ephemeral key, and the keys, unless the handshake fails. -/
  send : List UInt8 → List.Vector UInt8 32 → NoisePayload → Option (List UInt8 × NoiseKeys)
  shareLocalAddress : Bool := true
  reusableSocket : Bool := false
  relayThrough : Option (List.Vector UInt8 32) := none
  handshakeClearWait : UInt64 := 10000

/-- What a handshake finds when its first message comes: the addresses of the node, whether it is
behind a firewall, its port, the local addresses, the relays of the announcer, a fresh token for a
relay and what the firewall says. -/
structure Surroundings where
  natAddresses : List Ipv4Address := []
  firewalled : Bool := true
  port : UInt16 := 0
  localAddresses : List Ipv4Address := []
  relays : List RelayInfo := []
  relayToken : List.Vector UInt8 32 := List.Vector.replicate 32 0
  rejects : List.Vector UInt8 32 → NoisePayload → Ipv4Address → Bool := fun _ _ _ => false

/-- What a handshake draws when it is finished, and whether the node refuses at once to connect to a
relay. -/
structure Draw where
  ephemeral : List.Vector UInt8 32
  udxId : UInt32
  relayRefused : Bool := false

/-! ## Handshakes -/

def decodeHandshake (env : Env) (noise : List UInt8) : Option PendingHandshake :=
  (env.recv noise).map fun client => ⟨noise, client.1, client.2⟩

/-- Why a client is refused. -/
def handshakeError (payload : NoisePayload) (rejected : Bool) : UInt32 :=
  if rejected then errorAborted
  else if payload.version ≠ 1 then errorVersionMismatch
  else if payload.udx.isNone then errorAborted
  else errorNone

/-- The payload of the second message. -/
def responsePayload (env : Env) (d : Deciding) (draw : Draw) (error : UInt32) : NoisePayload :=
  let response : NoisePayload := {
    error := error
    firewall :=
      if d.hasRemoteAddr then firewallOpen
      else if d.ourAddresses.isEmpty then firewallUnknown
      else firewallConsistent
    addresses4 := d.ourAddresses
    hasSecretStream := true }
  if error ≠ errorNone then response
  else
    { response with
      udx := some { reusableSocket := env.reusableSocket, id := draw.udxId }
      holepunch := if d.hasRemoteAddr then none else some { id := d.hpId, relays := d.relayInfos }
      relayAddresses := d.relayInfos.map (·.relayAddress)
      relayThrough := d.relayThrough }

/-- The session at the end of a handshake, or the refusal of the client. -/
def finalizeHandshake (env : Env) (d : Deciding) (draw : Draw) (rejected : Bool) :
    Option ServerConnection :=
  let error := handshakeError d.pending.remotePayload rejected
  let response := responsePayload env d draw error
  (env.send d.pending.noise draw.ephemeral response).map fun sent => {
    noise := d.pending.noise
    keys := sent.2
    remotePublicKey := d.pending.remotePublicKey
    remotePayload := d.pending.remotePayload
    replyNoise := draw.ephemeral.toList ++ sent.1
    localUdxId := draw.udxId
    ourFirewall := response.firewall
    ourAddresses := d.ourAddresses
    hasError := error != errorNone
    errorCode := error }

/-! ## Streams and sessions -/

def modifyStream (s : Server) (p : ℕ) (f : RawStream → RawStream) : Server :=
  { s with streams := s.streams.modify p f }

/-- The end of a session that still has its stream. -/
def destroyConnection (s : Server) (conn : ServerConnection) : Server :=
  match conn.rawStream with
  | none => s
  | some p => s.modifyStream p fun st => { st with ctx := false, destroyed := true }

/-- The first message that leads to the session is forgotten. -/
def eraseDedup (dedup : AList fun _ : List Char => UInt32) (hpId : UInt32) :
    AList fun _ : List Char => UInt32 :=
  match dedup.entries.find? fun e => e.2 = hpId with
  | none => dedup
  | some e => dedup.erase e.1

/-- The stream of the session is no longer waited for. -/
def erasePunch (s : Server) (conn : ServerConnection) : AList fun _ : UInt32 => UInt32 :=
  match conn.rawStream.bind fun p => s.streams[p]? with
  | none => s.pendingPunchStreams
  | some st => s.pendingPunchStreams.erase st.localId

/-- The session leaves the tables, but for that of the streams. -/
def takeSession (s : Server) (hpId : UInt32) : Server :=
  { s with
    handshakeDedup := eraseDedup s.handshakeDedup hpId
    sessionTimers := s.sessionTimers.erase hpId
    connections := s.connections.erase hpId }

def clearSession (s : Server) (hpId : UInt32) : Server :=
  match s.connections.lookup hpId with
  | none => s
  | some conn =>
    { s.takeSession hpId with pendingPunchStreams := s.erasePunch conn }.destroyConnection conn

/-- The client of a session got through: its stream is handed out. -/
def onSocket (s : Server) (conn : ServerConnection) (peerAddr : Ipv4Address)
    (udxSock : Option ℕ) : Server :=
  if !s.onConnection then s.destroyConnection conn
  else
    let info : ConnectionInfo := {
      keys := conn.keys
      remotePublicKey := conn.remotePublicKey
      peerAddress := peerAddr
      remoteUdxId := (conn.remotePayload.udx.map (·.id)).getD 0
      localUdxId := conn.localUdxId
      rawStream := conn.rawStream
      udxSocket := udxSock }
    let s := match conn.rawStream with
      | none => s
      | some p => s.modifyStream p fun st => { st with ctx := false }
    { s with accepted := s.accepted ++ [(conn.noise, info)] }

/-- Connect to the relay of the session, if it has one; ours goes before that of the client. -/
def startRelay (s : Server) (hpId : UInt32) (conn : ServerConnection) (raw : ℕ)
    (ours : Option RelayThroughInfo) (refused : Bool) : Server :=
  match ours.or conn.remotePayload.relayThrough with
  | none => s
  | some relay =>
    if refused then s.clearSession hpId
    else
      let attempt : RelayAttempt := {
        noise := conn.noise
        hpId := hpId
        rawStream := raw
        keys := conn.keys
        remotePublicKey := conn.remotePublicKey
        localUdxId := conn.localUdxId
        remoteUdxId := (conn.remotePayload.udx.map (·.id)).getD 0
        relayKey := relay.publicKey
        relayToken := relay.token
        isInitiator := ours.isSome }
      { s with relayAttempts := s.relayAttempts ++ [attempt] }

/-- The session is entered into the tables; one that was there under its id ends. -/
def storeSession (env : Env) (s : Server) (hpId : UInt32) (conn : ServerConnection) : Server :=
  let s := match s.connections.lookup hpId with
    | none => s
    | some old => s.destroyConnection old
  { s with
    connections := s.connections.insert hpId conn
    handshakeDedup := s.handshakeDedup.insert (toHex conn.noise) hpId
    pendingPunchStreams := s.pendingPunchStreams.insert conn.localUdxId hpId
    sessionTimers := s.sessionTimers.insert hpId env.handshakeClearWait }

/-- The session gets its raw stream, and connects to its relay; a client that is not behind a firewall
is connected to, the others are waited for. -/
def openSession (env : Env) (s : Server) (d : Deciding) (refused : Bool) (conn : ServerConnection) :
    Server :=
  let raw := s.streams.length
  let conn := { conn with rawStream := some raw }
  let stream : RawStream := { noise := conn.noise, localId := conn.localUdxId }
  let s := { s with streams := s.streams ++ [stream] }
  let s := s.startRelay d.hpId conn raw d.relayThrough refused
  match conn.remotePayload.addresses4 with
  | peerAddr :: _ =>
    if conn.remotePayload.firewall = firewallOpen then s.onSocket conn peerAddr none
    else s.storeSession env d.hpId conn
  | [] => s.storeSession env d.hpId conn

/-- What follows a handshake: the reply, and the session unless the client is refused. -/
def onHandshakeResult (env : Env) (s : Server) (d : Deciding) (refused : Bool)
    (result : Option ServerConnection) : Server :=
  if s.closed || s.suspended then s
  else if s.connections.entries.length ≥ maxPendingHandshakes then s
  else
    match result with
    | none => s
    | some conn =>
      let s := { s with replies := s.replies ++ [(conn.noise, conn.replyNoise)] }
      if conn.hasError then s else s.openSession env d refused conn

/-- The firewall has decided. -/
def complete (env : Env) (s : Server) (d : Deciding) (draw : Draw) (rejected : Bool) : Server :=
  s.onHandshakeResult env d draw.relayRefused (finalizeHandshake env d draw rejected)

/-! ## First messages -/

/-- The addresses that a client is told. -/
def Surroundings.ourAddresses (env : Env) (here : Surroundings) : List Ipv4Address :=
  (if here.firewalled then here.natAddresses
    else here.natAddresses.map fun addr => Ipv4Address.fromString addr.hostString here.port) ++
  if env.shareLocalAddress then here.localAddresses else []

/-- The table of first messages is emptied when it is large. -/
def capDedup (s : Server) : Server :=
  if s.handshakeDedup.entries.length > maxHandshakeDedup ∧
      s.handshakeDedup.entries.length > s.connections.entries.length * 2 then
    { s with handshakeDedup := ∅ }
  else s

/-- The session that is found for a first message. -/
def cached (s : Server) (noise : List UInt8) : Option ServerConnection :=
  (s.capDedup.handshakeDedup.lookup (toHex noise)).bind fun hpId => s.connections.lookup hpId

/-- What the handshake of a first message starts with. -/
def Surroundings.deciding (env : Env) (here : Surroundings) (pending : PendingHandshake)
    (hpId : UInt32) : Deciding where
  pending := pending
  hpId := hpId
  hasRemoteAddr := !here.firewalled
  relayThrough := env.relayThrough.map fun key => { publicKey := key, token := here.relayToken }
  ourAddresses := here.ourAddresses env
  relayInfos := here.relays

/-- A first message is answered from its session, or starts a handshake. -/
def onPeerHandshake (env : Env) (s : Server) (here : Surroundings) (draw : Draw) (noise : List UInt8)
    (peerAddress : Ipv4Address) : Server :=
  if s.closed || s.suspended then s
  else
    match s.cached noise with
    | some conn => { s.capDedup with replies := s.replies ++ [(noise, conn.replyNoise)] }
    | none =>
      let hpId := s.nextHpId
      let s := { s.capDedup with
        handshakeDedup := s.capDedup.handshakeDedup.erase (toHex noise)
        nextHpId := hpId + 1 }
      match decodeHandshake env noise with
      | none => s
      | some pending =>
        let d := here.deciding env pending hpId
        match s.firewall with
        | .none => s.complete env d draw false
        | .sync =>
          s.complete env d draw
            (here.rejects pending.remotePublicKey pending.remotePayload peerAddress)
        | .async => { s with deciding := s.deciding ++ [d] }

/-- The firewall decides later. -/
def onDecision (env : Env) (s : Server) (k : ℕ) (draw : Draw) (reject : Bool) : Server :=
  match s.deciding[k]? with
  | none => s
  | some d =>
    let s := { s with deciding := s.deciding.eraseIdx k }
    if s.closed || s.suspended then s else s.complete env d draw reject

/-! ## How a session ends -/

/-- A message of a holepunch: it starts to punch, or the session ends by a veto. -/
def onPeerHolepunch (s : Server) (hpId : UInt32) (shouldPunch allowed : Bool) : Server :=
  if s.closed then s
  else
    match s.connections.lookup hpId with
    | none => s
    | some conn =>
      if !shouldPunch then s
      else if !allowed then s.clearSession hpId
      else { s with connections := s.connections.insert hpId { conn with puncher := true } }

/-- The callback of a holepunch that got through. -/
def onPuncherConnect (s : Server) (hpId : UInt32) (address : Ipv4Address) (socket : ℕ) : Server :=
  if s.closed then s
  else
    match s.connections.lookup hpId with
    | none => s
    | some conn =>
      if !conn.puncher then s
      else
        { s.takeSession hpId with pendingPunchStreams := s.erasePunch conn }.onSocket conn address
          (some socket)

/-- The first packet of a client on a raw stream. -/
def onRawStreamFirewall (s : Server) (localId : UInt32) (address : Ipv4Address) (socket : ℕ) :
    Server :=
  if s.closed then s
  else
    match s.pendingPunchStreams.lookup localId with
    | none => s
    | some hpId =>
      let s := { s with pendingPunchStreams := s.pendingPunchStreams.erase localId }
      match s.connections.lookup hpId with
      | none => s
      | some conn => (s.takeSession hpId).onSocket conn address (some socket)

/-- A raw stream closes before a client got through. -/
def onRawStreamClose (s : Server) (localId : UInt32) : Server :=
  match s.pendingPunchStreams.lookup localId with
  | none => s
  | some hpId =>
    let s := { s with pendingPunchStreams := s.pendingPunchStreams.erase localId }
    let s := match s.connections.lookup hpId with
      | none => s
      | some conn =>
        { s with connections := s.connections.insert hpId { conn with rawStream := none } }
    s.clearSession hpId

/-- All sessions end. -/
def clearAll (s : Server) : Server :=
  let s := s.connections.entries.foldl (fun s e => s.destroyConnection e.2) s
  { s with
    sessionTimers := ∅
    connections := ∅
    handshakeDedup := ∅
    pendingPunchStreams := ∅ }

/-! ## Relays -/

/-- What becomes of the connection to a relay. -/
inductive RelayOutcome where
  | failed
  | noChannel
  | connected
  deriving DecidableEq

def onRelayConnect (s : Server) (k : ℕ) (outcome : RelayOutcome) : Server :=
  match s.relayAttempts[k]? with
  | none => s
  | some attempt =>
    if attempt.pairing then s
    else
      let rest := { s with relayAttempts := s.relayAttempts.eraseIdx k }
      if s.closed then rest
      else
        match outcome with
        | .failed => rest.clearSession attempt.hpId
        | .noChannel => rest
        | .connected =>
          { s with relayAttempts := s.relayAttempts.set k { attempt with pairing := true } }

/-- The relay has paired the sides. Where its own stream is gone, nothing follows. -/
def onRelayPair (s : Server) (k : ℕ) (via : Option RelayVia) : Server :=
  match s.relayAttempts[k]? with
  | none => s
  | some attempt =>
    if !attempt.pairing then s
    else
      let s := { s with relayAttempts := s.relayAttempts.eraseIdx k }
      match via with
      | none => s
      | some via =>
        if s.closed then s
        else
          let s := s.modifyStream attempt.rawStream fun st => { st with remote := some via }
          let s := s.clearSession attempt.hpId
          if !s.onConnection then s
          else
            let info : ConnectionInfo := {
              keys := attempt.keys
              remotePublicKey := attempt.remotePublicKey
              peerAddress := via.address
              remoteUdxId := attempt.remoteUdxId
              localUdxId := attempt.localUdxId
              rawStream := some attempt.rawStream
              udxSocket := some via.socket }
            { s with accepted := s.accepted ++ [(attempt.noise, info)] }

def onRelayPairFailed (s : Server) (k : ℕ) : Server :=
  match s.relayAttempts[k]? with
  | none => s
  | some attempt =>
    if !attempt.pairing then s
    else
      let s := { s with relayAttempts := s.relayAttempts.eraseIdx k }
      if s.closed then s else s.clearSession attempt.hpId

/-! ## Calls of the owner -/

def listen (s : Server) (onConnection : Bool) : Server :=
  if s.listening then s else { s with listening := true, onConnection := onConnection }

def close (s : Server) : Server :=
  if s.closed then s else { s.clearAll with closed := true, listening := false }

def suspend (s : Server) : Server :=
  if s.suspended then s else { s.clearAll with suspended := true }

def resume (s : Server) : Server := { s with suspended := false }

/-! ## The machine -/

/-- What may happen: a call of the owner; a first message or a message of a holepunch comes, or the
firewall has decided on one; a holepunch or a packet gets through, a stream closes, a session times
out; a relay is connected to, pairs the sides, or does not. -/
inductive Input where
  | listen (onConnection : Bool)
  | setFirewall (firewall : Firewall)
  | suspend
  | resume
  | close
  | handshake (here : Surroundings) (draw : Draw) (noise : List UInt8) (peerAddress : Ipv4Address)
  | decision (k : ℕ) (draw : Draw) (reject : Bool)
  | holepunch (hpId : UInt32) (shouldPunch allowed : Bool)
  | puncherConnect (hpId : UInt32) (address : Ipv4Address) (socket : ℕ)
  | packet (p : ℕ) (address : Ipv4Address) (socket : ℕ)
  | streamClose (p : ℕ)
  | sessionTimeout (hpId : UInt32)
  | relayConnect (k : ℕ) (outcome : RelayOutcome)
  | relayPair (k : ℕ) (via : Option RelayVia)
  | relayPairFailed (k : ℕ)

/-- The server after an input. -/
def step (env : Env) (s : Server) : Input → Server
  | .listen onConnection => s.listen onConnection
  | .setFirewall firewall => { s with firewall := firewall }
  | .suspend => s.suspend
  | .resume => s.resume
  | .close => s.close
  | .handshake here draw noise peerAddress => s.onPeerHandshake env here draw noise peerAddress
  | .decision k draw reject => s.onDecision env k draw reject
  | .holepunch hpId shouldPunch allowed => s.onPeerHolepunch hpId shouldPunch allowed
  | .puncherConnect hpId address socket => s.onPuncherConnect hpId address socket
  | .packet p address socket =>
    match s.streams[p]? with
    | none => s
    | some st => if !st.ctx then s else s.onRawStreamFirewall st.localId address socket
  | .streamClose p =>
    match s.streams[p]? with
    | none => s
    | some st =>
      let s := s.modifyStream p fun st => { st with ctx := false, closed := true }
      if !st.ctx || s.closed then s else s.onRawStreamClose st.localId
  | .sessionTimeout hpId =>
    if (s.sessionTimers.lookup hpId).isNone || s.closed then s else s.clearSession hpId
  | .relayConnect k outcome => s.onRelayConnect k outcome
  | .relayPair k via => s.onRelayPair k via
  | .relayPairFailed k => s.onRelayPairFailed k

end Server

end HyperDHT
