import HyperDHT.Holepunch.Puncher
import HyperDHT.NatSampler.Basic

/-!
# Holepunching as a client

How a client punches a hole to its peer (`holepunch_connect` of `holepunch.cpp`). In a first round of
messages over a relay the sides tell each other their firewalls and addresses; when the client has learned
its own firewall from pings, it asks the peer in a second round to punch, and begins to punch itself.

## Main definitions

* `Holepunch.PunchState` — the state of a holepunch: its puncher, its socket with the requests over it, and
  its timers.
* `PunchState.runRound1`, `onRound1`, `proceed`, `sendRound2`, `onRound2` — the rounds.
* `PunchState.complete` — the end of a holepunch.
* `Holepunch.start`, `Holepunch.step` — a holepunch as a machine.

## Design

A request over the socket is known by what it was made for; a response is given together with the request
that it answers, if it answers one. The fields `sent` and `done` record the payloads that were sent and the
calls of the callback. A pause of a sleeper that is active is never replaced, since each of the sleepers
is used by one step of the rounds at a time, so that a pause is simply set.
-/

set_option autoImplicit false

namespace HyperDHT

open Compact

/-- The number of a firewall class in messages. -/
def NatSampler.Firewall.code : NatSampler.Firewall → UInt32
  | .unknown => firewallUnknown
  | .open => firewallOpen
  | .consistent => firewallConsistent
  | .random => firewallRandom

namespace Holepunch

/-! ## The state -/

/-- What a request over the socket of a holepunch is made for. -/
inductive PoolCall where
  | ping
  | round1
  | round2
  deriving DecidableEq

/-- A request that waits for its response. -/
structure PoolRequest where
  call : PoolCall
  dest : Ipv4Address
  attemptsLeft : ℕ
  deriving DecidableEq

/-- What the first round has brought: the payload of the peer, its addresses, of which there is at least
one, and our own address as the relay sees it. -/
structure Round1 where
  server : HolepunchPayload
  first : Ipv4Address
  others : List Ipv4Address
  ourAddr : Ipv4Address
  deriving DecidableEq

/-- What is done after a pause. -/
inductive Sleep where
  | retry
  | round2 (r : Round1)
  deriving DecidableEq

/-- The state of a holepunch. -/
structure PunchState where
  puncher : Holepuncher
  sampler : NatSampler.State := {}
  requests : List PoolRequest := []
  pendingPings : ℕ := 0
  poolClosed : Bool := false
  /-- Probes that come to the socket are heard. -/
  listening : Bool := true
  poolSamplingDone : Bool := false
  retriedRound1 : Bool := false
  completed : Bool := false
  sleeper : Option Sleep := none
  /-- The wait for the firewall to be known, and when it began. -/
  waitSampler : Option (Round1 × ℕ) := none
  sent : List HolepunchPayload := []
  done : List PunchResult := []

/-- What a holepunch is started with; `closest` are nodes of the routing table. -/
structure Env where
  secure : SecurePayload
  relayAddr : Ipv4Address
  peerAddr : Ipv4Address
  localFirewall : UInt32 := firewallUnknown
  localAddresses : List Ipv4Address := []
  fastOpen : Bool := true
  closest : List Ipv4Address := []
  poolSocket : ℕ := 0

def maxRequestAttempts : ℕ := 3
def minSamples : ℕ := 4
def maxTargets : ℕ := 7

/-- The nodes that everybody knows. -/
def bootstrapHosts : List (List Char) :=
  ["88.99.3.86".toList, "142.93.90.113".toList, "138.68.147.8".toList]

/-- The nodes that are pinged to learn our firewall: the relay, nodes of the routing table and, if there
are not enough, those that everybody knows. -/
def poolTargets (env : Env) : List Ipv4Address :=
  let skip := if env.closest.length ≥ 8 then 5 else 0
  ((env.relayAddr :: env.closest.drop skip) ++
    bootstrapHosts.map fun host => Ipv4Address.fromString host 49737).take maxTargets

/-- A firewall that the peer does not know is taken to be consistent. -/
def effectiveFirewall (firewall : UInt32) : UInt32 :=
  if firewall = firewallUnknown then firewallConsistent else firewall

namespace PunchState

/-! ## The end -/

/-- The holepunch is over, unless it was before: the puncher is destroyed, the timers are stopped and, if
it has failed, the socket is closed. -/
def complete (s : PunchState) (now : ℕ) (result : PunchResult) : PunchState :=
  if s.completed then s
  else
    { s with
      completed := true
      puncher := (s.puncher.destroy now).1
      sleeper := none
      waitSampler := none
      requests := if result.success then s.requests else []
      poolClosed := !result.success
      listening := s.listening && !result.success
      done := s.done ++ [result] }

/-- The holepunch fails. -/
def fail (s : PunchState) (now : ℕ) : PunchState := s.complete now {}

/-! ## The rounds -/

def request (s : PunchState) (call : PoolCall) (dest : Ipv4Address) : PunchState :=
  { s with requests := s.requests ++ [{
      call := call, dest := dest, attemptsLeft := maxRequestAttempts - 1 }] }

/-- The first round: our firewall and addresses, as far as they are known. -/
def runRound1 (env : Env) (s : PunchState) : PunchState :=
  if s.completed then s
  else
    let addrs := if s.sampler.addresses.isEmpty then env.localAddresses else s.sampler.addresses
    let firewall := s.sampler.firewall.code
    let probe : HolepunchPayload := {
      error := errorNone
      firewall := firewall
      round := 0
      addresses := addrs
      remoteAddress := some env.peerAddr }
    { s with
      puncher := { s.puncher with localFirewall := firewall }
      sent := s.sent ++ [probe] }.request .round1 env.relayAddr

/-- The second round: the peer is asked to punch, and we begin to. -/
def sendRound2 (env : Env) (s : PunchState) (r : Round1) (tick : Tick) : PunchState :=
  if s.completed then s
  else
    let sampler := s.sampler.freeze
    let punch : HolepunchPayload := {
      error := errorNone
      firewall := sampler.firewall.code
      round := 1
      punching := true
      addresses := [r.ourAddr]
      token := some (env.secure.token r.first.hostString)
      remoteToken := r.server.token }
    { s with
      sampler := sampler
      sent := s.sent ++ [punch]
      puncher := ((s.puncher.openSession r.first).punch tick).1 }.request .round2 env.relayAddr

/-- The puncher is told what is known of both sides. -/
def informed (s : PunchState) (r : Round1) : Holepuncher :=
  { s.puncher with
    localFirewall := s.sampler.firewall.code
    remoteFirewall := effectiveFirewall r.server.firewall }.updateRemote (r.first :: r.others)
      r.first.hostString

/-- What follows the first round when our firewall is known: the holepunch fails if there is no hope, the
round is repeated once if it was not conclusive, and otherwise the second round is prepared. -/
def proceed (s : PunchState) (r : Round1) (now : ℕ) : PunchState :=
  if s.completed then s
  else
    let firewall := s.sampler.firewall.code
    let remote := effectiveFirewall r.server.firewall
    if remote ≥ firewallRandom ∧ firewall ≥ firewallRandom then
      { s with puncher := { s.puncher with localFirewall := firewall } }.fail now
    else
      let puncher := s.informed r
      let analyzed := puncher.analyze false
      let analyzed := if analyzed.2 then analyzed else analyzed.1.analyze true
      let s := { s with puncher := analyzed.1 }
      if !analyzed.2 then s.fail now
      else if (r.server.firewall = firewallUnknown ∨ r.server.token = none) ∧
          s.retriedRound1 = false then
        { s with retriedRound1 := true, sleeper := some .retry }
      else
        { s with
          puncher := if remote < firewallRandom then s.puncher.sendProbe r.first else s.puncher
          sleeper := some (.round2 r) }

/-- Enough is known of our firewall. -/
def sampledEnough (s : PunchState) : Bool := s.poolSamplingDone || s.sampler.sampled ≥ minSamples

/-- The response to the first round. -/
def onRound1 (env : Env) (s : PunchState) (value : Option (List UInt8)) (toAddr : Ipv4Address)
    (now : ℕ) : PunchState :=
  if s.completed then s
  else
    let msg := decodeHolepunchMsg (value.getD [])
    if (value.getD []).isEmpty || msg.payload.isEmpty then s.fail now
    else
      match env.secure.decrypt msg.payload with
      | none => s.fail now
      | some decrypted =>
        let server := decodeHolepunchPayload decrypted
        if server.error ≠ errorNone then s.fail now
        else
          match server.addresses ++ msg.peerAddress.toList with
          | [] => s.fail now
          | first :: others =>
            if server.firewall = firewallOpen then
              s.complete now { success := true, firewall := firewallOpen, address := first }
            else
              let r : Round1 := ⟨server, first, others, toAddr⟩
              if s.sampledEnough then s.proceed r now else { s with waitSampler := some (r, now) }

/-- The response to the second round. -/
def onRound2 (env : Env) (s : PunchState) (value : Option (List UInt8)) (now : ℕ) : PunchState :=
  if s.completed then s
  else
    let msg := decodeHolepunchMsg (value.getD [])
    if (value.getD []).isEmpty || msg.payload.isEmpty then s
    else
      match env.secure.decrypt msg.payload with
      | none => s
      | some decrypted =>
        let server := decodeHolepunchPayload decrypted
        if server.error ≠ errorNone then s.fail now
        else
          match server.addresses with
          | [] => s
          | first :: others =>
            { s with puncher := s.puncher.updateRemote (first :: others) first.hostString }

/-! ## The socket -/

/-- A ping was answered, or was not in time. -/
def finishPing (s : PunchState) : PunchState :=
  if s.poolSamplingDone then s
  else
    { s with
      pendingPings := s.pendingPings - 1
      poolSamplingDone := s.pendingPings ≤ 1 }

/-- A response comes: it tells our address, and may answer the `k`-th request. -/
def onResponse (env : Env) (s : PunchState) (k : ℕ) (toAddr source : Ipv4Address)
    (value : Option (List UInt8)) (now : ℕ) : PunchState :=
  if s.poolClosed then s
  else
    let s := { s with sampler := (s.sampler.add toAddr source).1 }
    match s.requests[k]? with
    | none => s
    | some req =>
      let s := { s with requests := s.requests.eraseIdx k }
      match req.call with
      | .ping => s.finishPing
      | .round1 => s.onRound1 env value toAddr now
      | .round2 => s.onRound2 env value now

/-- The `k`-th request is not answered in time: it is sent again, or given up. -/
def onTimeout (s : PunchState) (k now : ℕ) : PunchState :=
  if s.poolClosed then s
  else
    match s.requests[k]? with
    | none => s
    | some req =>
      if req.attemptsLeft > 0 then
        { s with requests := s.requests.set k { req with attemptsLeft := req.attemptsLeft - 1 } }
      else
        let s := { s with requests := s.requests.eraseIdx k }
        match req.call with
        | .ping => s.finishPing
        | .round1 => s.fail now
        | .round2 => s

/-- A probe comes to the socket. -/
def onProbe (env : Env) (s : PunchState) (source : Ipv4Address) (now : ℕ) : PunchState :=
  if s.poolClosed || !s.listening then s
  else
    let heard := s.puncher.onMessage now source (some env.poolSocket) none
    let s := { s with puncher := heard.1 }
    match heard.2 with
    | none => s
    | some result => s.complete now result

/-! ## The timers -/

def onSleeper (env : Env) (s : PunchState) (tick : Tick) : PunchState :=
  match s.sleeper with
  | none => s
  | some sleep =>
    let s := { s with sleeper := none }
    match sleep with
    | .retry => s.runRound1 env
    | .round2 r => s.sendRound2 env r tick

def onWaitSampler (s : PunchState) (now : ℕ) : PunchState :=
  match s.waitSampler with
  | none => s
  | some (r, since) =>
    if s.completed then { s with waitSampler := none }
    else if s.sampledEnough || now - since ≥ 2000 then { s with waitSampler := none }.proceed r now
    else s

def onPunchTimer (s : PunchState) (tick : Tick) : PunchState :=
  match s.puncher.timer with
  | none => s
  | some _ =>
    let ticked := s.puncher.onPunchTimer tick
    let s := { s with puncher := ticked.1 }
    if ticked.2 then s.fail tick.now else s

end PunchState

/-! ## The machine -/

/-- The puncher of a client. -/
def clientPuncher (localFirewall : UInt32) : Holepuncher where
  isInitiator := true
  localFirewall := localFirewall
  sendFn := true
  sendTtlFn := true
  onConnect := true
  onAbort := true

/-- The pings by which we learn our firewall. -/
def discoverPoolAddresses (env : Env) (s : PunchState) : PunchState :=
  let targets := poolTargets env
  { targets.foldl (fun s target => s.request .ping target) s with pendingPings := targets.length }

/-- The start of a holepunch; a probe may be sent to the peer at once. -/
def start (env : Env) : PunchState :=
  let puncher := clientPuncher env.localFirewall
  let opened := if env.fastOpen && env.peerAddr.port != 0 then
    { puncher with probes := [{ addr := env.peerAddr, ttl := some holepunchTtl }] } else puncher
  (discoverPoolAddresses env { puncher := opened }).runRound1 env

/-- What may happen. -/
inductive Input where
  | response (k : ℕ) (toAddr source : Ipv4Address) (value : Option (List UInt8)) (now : ℕ)
  | timeout (k now : ℕ)
  | probe (source : Ipv4Address) (now : ℕ)
  | sleeper (tick : Tick)
  | waitSampler (now : ℕ)
  | punchTimer (tick : Tick)

/-- The holepunch after an input. -/
def step (env : Env) (s : PunchState) : Input → PunchState
  | .response k toAddr source value now => s.onResponse env k toAddr source value now
  | .timeout k now => s.onTimeout k now
  | .probe source now => s.onProbe env source now
  | .sleeper tick => s.onSleeper env tick
  | .waitSampler now => s.onWaitSampler now
  | .punchTimer tick => s.onPunchTimer tick

end Holepunch

end HyperDHT
