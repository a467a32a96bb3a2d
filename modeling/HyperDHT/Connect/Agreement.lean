import HyperDHT.Announcer.Relays
import HyperDHT.Connect.Steps
import HyperDHT.Server.Steps

/-!
# The sides should agree on a relay

Either side of a handshake may name a relay for the connection, and a token under which the relay pairs
the sides. Each decides from its own options and the payload of the other, so that both set out for the
same relay, one of them as the initiator. Over a route, however, a client does not name its relay, but
sets out for it; and it does not set out for one that the server names when a packet of the server came
first, when another reply has won, or when the reply is too long to be read.

## Main definitions

* `RelayStart` — the relay that a side sets out for, the token and the role.
* `Server.relayBegun`, `Connect.relayBegun` — what a server and a client set out for in a step.
* `Connect.Exchange` — a handshake of a client that is answered by a server.
* `Connect.Matched` — the condition under which the sides agree.

## Main results

* `Server.relayAttempts_of_answers` — the attempts of a server are those of `Server.relayBegun`.
* `Connect.Exchange.read` — the server reads what the client has written.
* `Connect.agree_iff` — the sides agree exactly under the condition.
-/

set_option autoImplicit false

namespace HyperDHT

open Compact Runs

/-- What a side sets out with: a relay, the token for it and the role. -/
structure RelayStart where
  publicKey : List.Vector UInt8 32
  token : List.Vector UInt8 32
  isInitiator : Bool
  deriving DecidableEq

/-- What the other side is to set out with. -/
def RelayStart.other (r : RelayStart) : RelayStart := { r with isInitiator := !r.isInitiator }

/-! ## The server -/

namespace Server

variable {env : Env} {s : Server} {d : Deciding} {draw : Draw} {conn : ServerConnection}

/-- The relay of a server goes before that of its client. -/
def relayChoice (ours client : Option RelayThroughInfo) : Option RelayStart :=
  match ours, client with
  | some relay, _ => some ⟨relay.publicKey, relay.token, true⟩
  | none, some relay => some ⟨relay.publicKey, relay.token, false⟩
  | none, none => none

/-- What an attempt was begun with. -/
def startOf (attempt : RelayAttempt) : RelayStart :=
  ⟨attempt.relayKey, attempt.relayToken, attempt.isInitiator⟩

/-- The relay that a server sets out for in a step: that of the handshake it answers, unless it refuses
the client. -/
def relayBegun (env : Env) (s : Server) (i : Input) : Option RelayStart :=
  (answers env s i).bind fun a =>
    if a.2.2.hasError then none else relayChoice a.1.relayThrough a.2.2.remotePayload.relayThrough

lemma startRelay_eq_choice (hpId : UInt32) (conn : ServerConnection) (raw : ℕ)
    (ours : Option RelayThroughInfo) (refused : Bool) :
    match relayChoice ours conn.remotePayload.relayThrough with
    | none => s.startRelay hpId conn raw ours refused = s
    | some start =>
      if refused then s.startRelay hpId conn raw ours refused = s.clearSession hpId
      else ∃ attempt, startOf attempt = start ∧
        s.startRelay hpId conn raw ours refused =
          { s with relayAttempts := s.relayAttempts ++ [attempt] } := by
  unfold startRelay
  cases ours with
  | some relay => cases refused <;> simp [relayChoice, startOf]
  | none =>
    cases conn.remotePayload.relayThrough with
    | none => rfl
    | some relay => cases refused <;> simp [relayChoice, startOf]

lemma relayAttempts_onSocket (conn : ServerConnection) (peerAddr : Ipv4Address) (sock : Option ℕ) :
    (s.onSocket conn peerAddr sock).relayAttempts = s.relayAttempts := by
  unfold onSocket
  split
  · exact destroyConnection_relayAttempts s conn
  · cases conn.rawStream <;> rfl

lemma relayAttempts_storeSession (hpId : UInt32) (conn : ServerConnection) :
    (s.storeSession env hpId conn).relayAttempts = s.relayAttempts := by
  unfold storeSession
  cases s.connections.lookup hpId with
  | none => rfl
  | some old => exact destroyConnection_relayAttempts s old

lemma relayAttempts_clearSession (hpId : UInt32) :
    (s.clearSession hpId).relayAttempts = s.relayAttempts := by
  unfold clearSession
  cases s.connections.lookup hpId with
  | none => rfl
  | some conn => exact destroyConnection_relayAttempts _ conn

/-- **The attempts of a server** are those that it sets out with, unless the node refuses to connect. -/
theorem relayAttempts_of_answers {i : Input} (h : answers env s i = some (d, draw, conn)) :
    (step env s i).relayAttempts.map startOf = s.relayAttempts.map startOf ++
      if draw.relayRefused then [] else (relayBegun env s i).toList := by
  have hlooked := (prepared_of_answers h).2.2
  have hsame : (prepared s i).relayAttempts = s.relayAttempts := by rw [hlooked.eq]
  have hbegun : relayBegun env s i = if conn.hasError then none else
      relayChoice d.relayThrough conn.remotePayload.relayThrough := by
    simp [relayBegun, h]
  rw [step_of_answers h, hbegun]
  by_cases herror : conn.hasError = true
  · simp [herror, hsame]
  · rw [if_neg herror, if_neg herror]
    set s₁ : Server := { prepared s i with
      replies := s.replies ++ [(conn.noise, conn.replyNoise)]
      streams := (prepared s i).streams ++ [{ noise := conn.noise, localId := conn.localUdxId }] }
      with hs₁
    have hopened : ({ prepared s i with
        replies := s.replies ++ [(conn.noise, conn.replyNoise)] }.openSession env d draw.relayRefused
          conn).relayAttempts =
        (s₁.startRelay d.hpId { conn with rawStream := some (prepared s i).streams.length }
          (prepared s i).streams.length d.relayThrough draw.relayRefused).relayAttempts := by
      unfold openSession
      dsimp only
      split
      · split
        · exact relayAttempts_onSocket _ _ _
        · exact relayAttempts_storeSession _ _
      · exact relayAttempts_storeSession _ _
    have hchoice := @startRelay_eq_choice s₁ d.hpId
      { conn with rawStream := some (prepared s i).streams.length } (prepared s i).streams.length
      d.relayThrough draw.relayRefused
    have hstill : s₁.relayAttempts = s.relayAttempts := hsame
    rw [hopened]
    cases hstart : relayChoice d.relayThrough conn.remotePayload.relayThrough with
    | none =>
      simp only [hstart] at hchoice
      rw [hchoice, hstill]
      simp
    | some start =>
      simp only [hstart] at hchoice
      cases hrefused : draw.relayRefused with
      | true =>
        simp only [hrefused, if_true] at hchoice ⊢
        rw [hchoice, relayAttempts_clearSession, hstill, List.append_nil]
      | false =>
        simp only [hrefused, Bool.false_eq_true, if_false] at hchoice ⊢
        obtain ⟨attempt, rfl, heq⟩ := hchoice
        rw [heq]
        simp [hstill]

lemma conn_of_answers {i : Input} (h : answers env s i = some (d, draw, conn)) :
    conn.remotePayload = d.pending.remotePayload ∧
      conn.hasError = (conn.errorCode != errorNone) ∧
      ∃ rejected, conn.errorCode = handshakeError d.pending.remotePayload rejected := by
  unfold answers at h
  split at h
  · cases h
  · obtain ⟨⟨d', draw', rejected⟩, -, hmap⟩ := Option.bind_eq_some_iff.1 h
    obtain ⟨conn', hconn, heq⟩ := Option.map_eq_some_iff.1 hmap
    simp only [Prod.mk.injEq] at heq
    obtain ⟨rfl, rfl, rfl⟩ := heq
    obtain ⟨sent, -, rfl⟩ := Option.map_eq_some_iff.1 hconn
    exact ⟨rfl, rfl, rejected, rfl⟩

end Server

/-! ## The client -/

namespace Connect

variable {env : Env} {here : Surroundings} {s : ConnState}

/-- The relay that a client sets out for in a step. -/
def relayBegun (env : Env) (s : ConnState) (i : Input) : Option RelayStart :=
  if s.relay.isSome then none
  else (step env s i).relay.map fun r => ⟨r.relayKey, r.token, r.isInitiator⟩

/-- A reply that comes now is taken: it is the first, the connect is not completed, and no packet of the
peer came before. -/
def Takes (s : ConnState) : Prop :=
  s.completed = false ∧ s.alive = true ∧ s.hsResult.success = false ∧ s.cachedFw = none

instance (s : ConnState) : Decidable (Takes s) :=
  inferInstanceAs (Decidable (_ ∧ _ ∧ _ ∧ _))

lemma relay_complete (error : ConnectError) (result : ConnectResult) :
    (s.complete error result).relay = s.relay := by
  unfold ConnState.complete
  split <;> rfl

lemma relay_succeed (hs : HandshakeResult) (addr : Ipv4Address) (socket : Option ℕ)
    (via : Option RelayVia) : (s.succeed env hs addr socket via).relay = s.relay :=
  @relay_complete { s with rawStream := false } .none _

lemma relay_choosePath (hs : HandshakeResult) : (s.choosePath env here hs).relay = s.relay := by
  unfold ConnState.choosePath
  split
  · exact relay_succeed hs _ none none
  · split
    · unfold ConnState.startPaths
      split <;> rfl
    · split
      · exact relay_succeed hs _ none none
      · exact relay_complete _ _

lemma relay_chooseRelay (h : s.Fresh env) (hs : HandshakeResult) :
    (s.chooseRelay env here hs).relay.map (fun r => RelayStart.mk r.relayKey r.token r.isInitiator) =
      (Server.relayChoice hs.remotePayload.relayThrough (namedRelay env false)).map RelayStart.other := by
  unfold ConnState.chooseRelay
  split
  · next theirs _ htheirs => simp [htheirs, Server.relayChoice, ConnState.startRelayPath, RelayStart.other]
  · next key htheirs hours =>
    simp [htheirs, hours, Server.relayChoice, ConnState.startRelayPath, RelayStart.other, namedRelay,
      h.relayToken]
  · next htheirs hours => simp [htheirs, hours, Server.relayChoice, namedRelay, h.relay]

lemma relay_onHandshakeSuccess (h : s.Fresh env) (hcached : s.cachedFw = none) (hs : HandshakeResult) :
    (s.onHandshakeSuccess env here hs).relay.map
        (fun r => RelayStart.mk r.relayKey r.token r.isInitiator) =
      (Server.relayChoice hs.remotePayload.relayThrough (namedRelay env false)).map RelayStart.other := by
  have hfresh : { s with successes := s.successes ++ [(s.relayAddr, hs)] }.Fresh env := h
  unfold ConnState.onHandshakeSuccess
  dsimp only
  split
  · next hpacket => exact absurd (hcached.symm.trans hpacket) (by simp)
  · rw [relay_choosePath]
    exact relay_chooseRelay hfresh hs

lemma relay_onHandshakeSuccess_of_packet (hopen : s.completed = false) (hcached : s.cachedFw ≠ none)
    (hs : HandshakeResult) : (s.onHandshakeSuccess env here hs).relay = s.relay := by
  obtain ⟨⟨socket, addr⟩, hpacket⟩ := Option.ne_none_iff_exists'.1 hcached
  simp only [ConnState.onHandshakeSuccess, hpacket, hopen, Bool.false_eq_true, if_false]
  exact relay_succeed hs addr (some socket) none

/-- **What a client sets out with** on a reply that succeeds: nothing unless the reply is taken. -/
theorem relayBegun_handshake (h : s.Inv env) {k : ℕ} {x : Handshake} (hk : s.handshakes[k]? = some x)
    {hs : HandshakeResult} (hsuccess : hs.success = true) :
    relayBegun env s (.handshake here k hs) =
      if Takes s then
        (Server.relayChoice hs.remotePayload.relayThrough (namedRelay env false)).map RelayStart.other
      else none := by
  have hsame (hkept : (s.onHandshake env here k hs).relay = s.relay) :
      relayBegun env s (.handshake here k hs) = none := by
    simp only [relayBegun, step, hkept]
    cases s.relay <;> rfl
  have htaken {t : ConnState} (hstep : s.onHandshake env here k hs = t.onHandshakeSuccess env here hs)
      (hlost : s.hsResult.success = false) (hfresh : t.Fresh env) (hcached : t.cachedFw = none) :
      relayBegun env s (.handshake here k hs) =
        (Server.relayChoice hs.remotePayload.relayThrough (namedRelay env false)).map
          RelayStart.other := by
    simp only [relayBegun, (h.fresh hlost).relay, step, hstep, Option.isSome_none, Bool.false_eq_true,
      if_false]
    exact relay_onHandshakeSuccess hfresh hcached hs
  cases hroute : x.viaRoute with
  | false =>
    have hresult := @ConnState.onHandshake_of_relay env here s k x hk hroute hs
    by_cases hcompleted : s.completed = true
    · rw [if_pos hcompleted] at hresult
      rw [if_neg fun htakes => absurd (htakes.1.symm.trans hcompleted) Bool.false_ne_true]
      exact hsame (by rw [hresult]; rfl)
    · rw [if_neg hcompleted] at hresult
      by_cases hwon : s.hsResult.success = true
      · rw [if_pos hwon] at hresult
        rw [if_neg fun htakes => absurd (htakes.2.2.1.symm.trans hwon) Bool.false_ne_true]
        exact hsame (by rw [hresult]; rfl)
      · rw [if_neg hwon, hsuccess] at hresult
        cases halive : s.alive with
        | false =>
          simp only [halive, Bool.not_false, Bool.true_or, if_true] at hresult
          rw [if_neg fun htakes => absurd (halive.symm.trans htakes.2.1) Bool.false_ne_true]
          exact hsame (by rw [hresult, ConnState.tryNextRelay_kept.2.2]; rfl)
        | true =>
          simp only [halive, Bool.not_true, Bool.or_self, Bool.false_eq_true, if_false] at hresult
          by_cases hcached : s.cachedFw = none
          · rw [if_pos ⟨eq_false_of_ne_true hcompleted, halive, eq_false_of_ne_true hwon, hcached⟩]
            exact htaken hresult (eq_false_of_ne_true hwon)
              (by exact h.fresh (eq_false_of_ne_true hwon)) hcached
          · rw [if_neg fun htakes => hcached htakes.2.2.2]
            refine hsame ?_
            rw [hresult, relay_onHandshakeSuccess_of_packet (by exact eq_false_of_ne_true hcompleted)
              (by exact hcached)]
            rfl
  | true =>
    have hlost : s.hsResult.success = false :=
      (h.search.route x (List.mem_of_getElem? hk) hroute).2.2.2
    have hresult := @ConnState.onHandshake_of_route env here s h k x hk hroute hs
    by_cases hover : (s.completed || !s.alive) = true
    · rw [if_pos hover] at hresult
      rw [if_neg fun htakes => by simp [htakes.1, htakes.2.1] at hover]
      exact hsame (by rw [hresult])
    · rw [if_neg hover, if_pos hsuccess] at hresult
      simp only [Bool.or_eq_true, Bool.not_eq_true', not_or, Bool.not_eq_false] at hover
      by_cases hcached : s.cachedFw = none
      · rw [if_pos ⟨eq_false_of_ne_true hover.1, hover.2, hlost, hcached⟩]
        exact htaken hresult hlost (by exact h.fresh hlost) hcached
      · rw [if_neg fun htakes => hcached htakes.2.2.2]
        refine hsame ?_
        rw [hresult, relay_onHandshakeSuccess_of_packet (by exact eq_false_of_ne_true hover.1)
          (by exact hcached)]

/-! ## A handshake between the two -/

/-- A handshake of a client that has not called back, and the step in which a server answers it. The
server has read the payload of the client; its relays are those of an announcer, of which there are at
most three. -/
structure Exchange (senv : Server.Env) (s : ConnState) where
  k : ℕ
  handshake : Handshake
  pending : s.handshakes[k]? = some handshake
  server : Server
  input : Server.Input
  deciding : Deciding
  draw : Server.Draw
  conn : ServerConnection
  answered : Server.answers senv server input = some (deciding, draw, conn)
  read : deciding.pending.remotePayload = decodeNoisePayload (encodeNoisePayload handshake.payload)
  relays : deciding.relayInfos.length ≤ maxActiveRelays
  /-- A vector has no more elements than the memory has bytes. -/
  size_lt : deciding.ourAddresses.length < 2 ^ 64

namespace Exchange

variable {senv : Server.Env} (x : Exchange senv s)

def reply : NoisePayload := Server.responsePayload senv x.deciding x.draw x.conn.errorCode

/-- What the client makes of the reply. -/
def result (remotePublicKey : List.Vector UInt8 32) (keys : NoiseKeys)
    (peerAddress : Option Ipv4Address) : HandshakeResult :=
  .ofReply remotePublicKey keys (encodeNoisePayload x.reply) peerAddress

lemma reply_version : x.reply.version = 1 ∧ x.reply.error = x.conn.errorCode := by
  unfold reply Server.responsePayload
  dsimp only
  split_ifs <;> exact ⟨rfl, rfl⟩

variable {x} {remotePublicKey : List.Vector UInt8 32} {keys : NoiseKeys}
  {peerAddress : Option Ipv4Address}

lemma errorCode_of_success (h : (x.result remotePublicKey keys peerAddress).success = true) :
    x.conn.errorCode = errorNone := by
  have herror : (decodeNoisePayload (encodeNoisePayload x.reply)).error = errorNone := by
    simpa [result, HandshakeResult.ofReply] using h
  rw [← x.reply_version.2, ← error_decodeNoisePayload x.reply_version.1, herror]

lemma udx_isSome_of_success (h : (x.result remotePublicKey keys peerAddress).success = true) :
    x.deciding.pending.remotePayload.udx ≠ none := by
  intro hnone
  obtain ⟨-, -, rejected, hcode⟩ := Server.conn_of_answers x.answered
  rw [errorCode_of_success h] at hcode
  revert hcode
  unfold Server.handshakeError
  split_ifs with hrejects hversion hudx
  · decide
  · decide
  · decide
  · simp [hnone] at hudx

/-- **The server reads what the client has written**, if the handshake succeeds: a payload of which the
stream was hidden would have been refused. -/
theorem read_of_success (hwritten : x.handshake.Written env)
    (h : (x.result remotePublicKey keys peerAddress).success = true) :
    x.deciding.pending.remotePayload = x.handshake.payload := by
  obtain ⟨firewall, addresses4, hsize, -, hpayload⟩ := hwritten
  have hudx := udx_isSome_of_success h
  rw [x.read, hpayload] at hudx ⊢
  refine decodeNoisePayload_encodeNoisePayload ⟨rfl, by simp [handshakePayload], ?_, by
    simp [handshakePayload], by simp [handshakePayload]⟩
  by_contra hlong
  exact hudx (decodeNoisePayload_of_long rfl (by simp [handshakePayload]) (not_le.1 hlong) hsize).1

/-- **The client reads the relay of the server** unless there are too many addresses before it. -/
theorem relayThrough_result (h : (x.result remotePublicKey keys peerAddress).success = true) :
    (x.result remotePublicKey keys peerAddress).remotePayload.relayThrough =
      if x.deciding.ourAddresses.length ≤ arrayMaxLength then x.deciding.relayThrough else none := by
  have hreply : x.reply = Server.responsePayload senv x.deciding x.draw errorNone := by
    rw [reply, errorCode_of_success h]
  have hrelays : ∀ hp, x.reply.holepunch = some hp → hp.relays.length ≤ 128 := by
    intro hp hhp
    simp only [hreply, Server.responsePayload, ne_eq, not_true_eq_false, if_false] at hhp
    split_ifs at hhp
    obtain rfl := Option.some.inj hhp
    exact x.relays.trans (by decide)
  have haddresses : x.reply.addresses4 = x.deciding.ourAddresses := by
    simp [hreply, Server.responsePayload]
  change (decodeNoisePayload (encodeNoisePayload x.reply)).relayThrough = _
  split
  · next hfits =>
    have hfew : x.deciding.relayInfos.length ≤ arrayMaxLength := x.relays.trans (by decide)
    rw [decodeNoisePayload_encodeNoisePayload ⟨x.reply_version.1, hrelays, haddresses ▸ hfits,
      by simp [hreply, Server.responsePayload], by simpa [hreply, Server.responsePayload] using hfew⟩]
    simp [hreply, Server.responsePayload]
  · next hlong =>
    exact (decodeNoisePayload_of_long x.reply_version.1 hrelays (haddresses ▸ not_le.1 hlong)
      (haddresses ▸ x.size_lt)).2

lemma relayBegun_server (hwritten : x.handshake.Written env)
    (h : (x.result remotePublicKey keys peerAddress).success = true) :
    Server.relayBegun senv x.server x.input =
      Server.relayChoice x.deciding.relayThrough (namedRelay env x.handshake.viaRoute) := by
  obtain ⟨hpayload, herror, -⟩ := Server.conn_of_answers x.answered
  have hnamed : x.handshake.payload.relayThrough = namedRelay env x.handshake.viaRoute := by
    obtain ⟨firewall, addresses4, -, -, hwrites⟩ := hwritten
    rw [hwrites]
    rfl
  have hnone : x.conn.hasError = false := by simp [herror, errorCode_of_success h]
  simp only [Server.relayBegun, x.answered, Option.bind_some, hnone, Bool.false_eq_true, if_false,
    hpayload, read_of_success hwritten h, hnamed]

end Exchange

/-! ## When the sides agree -/

/-- The sides agree on the relay: if the client sets out for one, the server does so in the other role,
and otherwise neither does. -/
def Agree (env : Env) (here : Surroundings) {senv : Server.Env} (s : ConnState)
    (x : Exchange senv s) (hs : HandshakeResult) : Prop :=
  Server.relayBegun senv x.server x.input =
    (relayBegun env s (.handshake here x.k hs)).map RelayStart.other

/-- The condition under which the sides agree. If the client takes the reply, it must be able to read
the relay of the server, and if the server names none, the client must have told its own, which it does
not over a route. Otherwise neither side may have named a relay to the other. -/
def Matched (env : Env) {senv : Server.Env} (s : ConnState) (x : Exchange senv s) : Prop :=
  if Takes s then
    (x.deciding.relayThrough = none ∨ x.deciding.ourAddresses.length ≤ arrayMaxLength) ∧
      (x.deciding.relayThrough ≠ none ∨ env.relayThrough = none ∨ x.handshake.viaRoute = false)
  else
    x.deciding.relayThrough = none ∧ (env.relayThrough = none ∨ x.handshake.viaRoute = true)

lemma namedRelay_eq_none_iff {viaRoute : Bool} :
    namedRelay env viaRoute = none ↔ env.relayThrough = none ∨ viaRoute = true := by
  cases viaRoute <;> simp [namedRelay]

lemma relayChoice_eq_none_iff {ours client : Option RelayThroughInfo} :
    Server.relayChoice ours client = none ↔ ours = none ∧ client = none := by
  cases ours <;> cases client <;> simp [Server.relayChoice]

lemma map_other_other (r : Option RelayStart) :
    (r.map RelayStart.other).map RelayStart.other = r := by
  cases r <;> simp [RelayStart.other]

lemma relayChoice_named_iff {ours : Option RelayThroughInfo} {viaRoute : Bool} :
    Server.relayChoice ours (namedRelay env viaRoute) =
        Server.relayChoice ours (namedRelay env false) ↔
      ours ≠ none ∨ env.relayThrough = none ∨ viaRoute = false := by
  cases ours with
  | some relay => simp [Server.relayChoice]
  | none =>
    cases viaRoute with
    | false => simp
    | true =>
      have hunnamed : namedRelay env true = none := rfl
      rw [hunnamed]
      cases hours : env.relayThrough <;> simp [namedRelay, hours, Server.relayChoice]

lemma relayChoice_unread {relay : RelayThroughInfo} {client client' : Option RelayThroughInfo} :
    Server.relayChoice (some relay) client ≠ Server.relayChoice none client' := by
  cases client' <;> simp [Server.relayChoice]

/-- **The sides agree on the relay** in a handshake that succeeds exactly under the condition, whatever
the options of the sides and the way of the handshake.

**Proof sketch.** Each side chooses between its own relay and what it reads of the other's, so they
agree if each has read what the other chose from. -/
theorem agree_iff {env : Env} {here : Surroundings} {is : List Input} {senv : Server.Env}
    (x : Exchange senv (run (step env) (start env here) is)) (there : Surroundings)
    {remotePublicKey : List.Vector UInt8 32} {keys : NoiseKeys} {peerAddress : Option Ipv4Address}
    (hsuccess : (x.result remotePublicKey keys peerAddress).success = true) :
    Agree env there _ x (x.result remotePublicKey keys peerAddress) ↔ Matched env _ x := by
  have hinv : (run (step env) (start env here) is).Inv env := inv_run here is
  have hwritten : x.handshake.Written env := hinv.search.written _ (List.mem_of_getElem? x.pending)
  unfold Agree Matched
  rw [Exchange.relayBegun_server hwritten hsuccess, relayBegun_handshake hinv x.pending hsuccess,
    Exchange.relayThrough_result hsuccess]
  split_ifs with htakes hfits
  · rw [map_other_other, relayChoice_named_iff]
    simp only [hfits, or_true, true_and]
  · rw [map_other_other]
    cases hours : x.deciding.relayThrough with
    | none => simpa using @relayChoice_named_iff env none x.handshake.viaRoute
    | some relay => simp [hfits, relayChoice_unread]
  · rw [Option.map_none, relayChoice_eq_none_iff, namedRelay_eq_none_iff]

/-! ## A relay that is not told -/

def routedEnv : Env where
  relayThrough := some (List.Vector.replicate 32 1)
  route := some (.ofOctets 10 0 0 1 49737)

def routedPayload : NoisePayload := handshakePayload 0 firewallUnknown [] none

def routedExchange : Exchange (Server.plainEnv routedPayload) (start routedEnv {}) where
  k := 0
  handshake := ⟨.ofOctets 10 0 0 1 49737, true, routedPayload⟩
  pending := rfl
  server := {}
  input := Server.message [1] 1
  deciding := ({} : Server.Surroundings).deciding (Server.plainEnv routedPayload)
    ⟨[1], List.Vector.replicate 32 0, routedPayload⟩ 0
  draw := Server.drawOf 1
  conn := _
  answered := rfl
  read := by decide +kernel
  relays := by decide
  size_lt := by decide

def routedResult : HandshakeResult :=
  routedExchange.result (List.Vector.replicate 32 0)
    ⟨List.Vector.replicate 32 0, List.Vector.replicate 32 0, List.Vector.replicate 64 0⟩ none

/-- The condition is exact for the handshake over the route. -/
theorem agree_iff_routedExchange :
    Agree routedEnv {} (start routedEnv {}) routedExchange routedResult ↔
      Matched routedEnv (start routedEnv {}) routedExchange :=
  @agree_iff routedEnv {} [] _ routedExchange {} _ _ _ (by decide +kernel)

/-- The client sets out for its relay, and the server for none. -/
theorem not_agree_routedExchange :
    routedResult.success = true ∧
      ¬ Agree routedEnv {} (start routedEnv {}) routedExchange routedResult := by
  unfold Agree
  decide +kernel

end Connect

end HyperDHT
