import Mathlib.Data.Finset.Basic
import HyperDHT.BlindRelay.Messages
import HyperDHT.Lib.AssocMap
import HyperDHT.Lib.Runs

/-!
# The relay

`BlindRelayServer` and `BlindRelaySession`. A session takes the Pair messages of one peer. Two requests with
the same token, one in each role, are matched: the relay makes a stream for each of them, has each stream relay
to the other, and confirms the pairing to both peers.

## Main definitions

* `BlindRelay.Link`, `BlindRelay.RelayPair` — a request that takes part in a pairing, and the pairing.
* `BlindRelay.RelaySession`, `BlindRelay.RelayServer` — the state.
* `RelayServer.onPair`, `onUnpair`, `close`, `destroy` — the methods.
* `BlindRelay.ServerInput`, `BlindRelay.serverStep` — the relay as a machine.

## Main results

* `RelayServer.complete_cases` — the three outcomes of a match.

## Design

Every id is that of a session that was accepted. Its channel lives until the session is closed, and is open
when a message arrives. A call on a channel that was freed is recorded among the calls and does nothing else.
Streams are never null, as a failed creation ends the match. `on_pair_event`, which nothing in the repository
sets, is left out. `accepted` and `calls` are records that the code does not read.
-/

set_option autoImplicit false

namespace HyperDHT.BlindRelay

/-! ## Data -/

/-- The identity of a session. -/
abbrev SessionId := ℕ

/-- A stream of the relay. -/
structure RelayStream where
  /-- The identity of the object. -/
  ptr : ℕ
  localId : UInt32
  deriving DecidableEq

/-- A request that takes part in a pairing. -/
structure Link where
  session : SessionId
  isInitiator : Bool
  /-- The stream of the peer. -/
  remoteId : UInt32
  /-- How many requests were accepted before it. -/
  request : ℕ
  deriving DecidableEq

/-- The requests for one token: the one of the initiator is `links true`. -/
structure RelayPair where
  token : Token
  links : Bool → Option Link := fun _ => none
  createdAt : ℕ

/-- A request in its role has arrived. -/
def RelayPair.has (pair : RelayPair) (isInitiator : Bool) : Bool := (pair.links isInitiator).isSome

def RelayPair.paired (pair : RelayPair) : Bool := pair.has false && pair.has true

/-- A request takes its place. -/
def RelayPair.fill (pair : RelayPair) (link : Link) : RelayPair :=
  { pair with links := Function.update pair.links link.isInitiator (some link) }

@[simp] lemma RelayPair.links_fill (pair : RelayPair) (link : Link) :
    (pair.fill link).links = Function.update pair.links link.isInitiator (some link) := rfl

/-- The time, in nanoseconds, after which a pairing that waits is evicted. -/
def pairingTtl : ℕ := 30000000000

/-- The number of pairings from which on no new one is made. -/
def maxPairings : ℕ := 1024

/-- The pairing has waited for too long. -/
def RelayPair.stale (pair : RelayPair) (now : ℕ) : Bool :=
  !pair.paired && pairingTtl < now - pair.createdAt

/-- A session. -/
structure RelaySession where
  closed : Bool := false
  destroyed : Bool := false
  /-- `close` was called while requests were waiting. -/
  pendingClose : Bool := false
  pairingTokens : Finset Token := ∅
  streams : AList fun _ : Token => RelayStream := ∅

/-- A matched request and the stream that was made for it. -/
structure RelayEnd where
  link : Link
  stream : RelayStream
  deriving DecidableEq

/-- The confirmation that the peer of a matched request gets. -/
def RelayEnd.confirmation (e : RelayEnd) (token : Token) : PairMessage where
  isInitiator := e.link.isInitiator
  token := token
  id := e.stream.localId

/-- The calls on channels and streams. -/
inductive RelayCall where
  /-- `udx_stream_relay_to`, in both directions; whether both succeeded. -/
  | relayTo (token : Token) (a b : RelayEnd) (ok : Bool)
  /-- `Channel::send` of a confirmation with the id of the stream. -/
  | send (session : SessionId) (message : PairMessage) (stream : RelayStream)
  /-- `Channel::close`. -/
  | close (session : SessionId)
  /-- The peer has closed the channel. -/
  | remoteClose (session : SessionId)
  | destroyStream (stream : RelayStream)
  deriving DecidableEq

/-- The relay. -/
structure RelayServer where
  sessions : SessionId → RelaySession := fun _ => {}
  pairings : AList fun _ : Token => RelayPair := ∅
  /-- The steady clock, in nanoseconds. -/
  now : ℕ := 0
  nextStream : ℕ := 0
  /-- The requests that ever took part in a pairing, with their tokens. -/
  accepted : List (Token × Link) := []
  calls : List RelayCall := []

/-- What `create_stream_fn` and `udx_stream_relay_to` return: the local id of each of the two streams, if it
can be made, and whether they can be wired. -/
structure Draw where
  first : Option UInt32
  second : Option UInt32
  relayed : Bool

/-- One of the requests is of the session. -/
def RelayPair.owns (pair : RelayPair) (σ : SessionId) : Bool :=
  (pair.links false).any (·.session = σ) || (pair.links true).any (·.session = σ)

/-- The match succeeds. -/
def Draw.ok (draw : Draw) : Bool := draw.first.isSome && draw.second.isSome && draw.relayed

namespace RelayServer

/-! ## The pairings -/

/-- Record a call. -/
def log (s : RelayServer) (call : RelayCall) : RelayServer := { s with calls := s.calls ++ [call] }

/-- Write to a session. -/
def modifySession (s : RelayServer) (σ : SessionId) (f : RelaySession → RelaySession) : RelayServer :=
  { s with sessions := Function.update s.sessions σ (f (s.sessions σ)) }

/-- There are too many pairings, and none for the token. -/
def full (s : RelayServer) (token : Token) : Bool :=
  maxPairings ≤ s.pairings.entries.length && (s.pairings.lookup token).isNone

/-- Erase the pairings that have waited for too long. -/
def evict (s : RelayServer) : RelayServer :=
  { s with pairings := AssocMap.keep (fun _ pair => !pair.stale s.now) s.pairings }

/-- The pairing for a token, or a new one. -/
def getOrCreatePair (s : RelayServer) (token : Token) : RelayPair :=
  (s.pairings.lookup token).getD { token := token, createdAt := s.now }

def removePair (s : RelayServer) (token : Token) : RelayServer :=
  { s with pairings := s.pairings.erase token }

/-! ## Sessions closing -/

/-- The `on_close` callback of a channel. -/
def onClose (s : RelayServer) (σ : SessionId) : RelayServer :=
  let session := s.sessions σ
  { s with
    pairings := AssocMap.keep (fun token _ => token ∉ session.pairingTokens) s.pairings
    calls := s.calls ++ session.streams.entries.map fun entry => .destroyStream entry.2
    sessions := Function.update s.sessions σ
      { session with closed := true, pairingTokens := ∅, streams := ∅ } }

/-- A call of `Channel::close` on the channel of a session. -/
def closeChannel (s : RelayServer) (σ : SessionId) : RelayServer :=
  if (s.sessions σ).closed then s.log (.close σ) else (s.log (.close σ)).onClose σ

/-- The peer closes the channel. -/
def remoteClose (s : RelayServer) (σ : SessionId) : RelayServer :=
  if (s.sessions σ).closed then s else (s.log (.remoteClose σ)).onClose σ

/-- `BlindRelaySession::close`. -/
def close (s : RelayServer) (σ : SessionId) : RelayServer :=
  if (s.sessions σ).closed then s
  else if (s.sessions σ).pairingTokens = ∅ then s.closeChannel σ
  else s.modifySession σ ({ · with pendingClose := true })

/-- `BlindRelaySession::destroy`. -/
def destroy (s : RelayServer) (σ : SessionId) : RelayServer :=
  if (s.sessions σ).destroyed then s
  else (s.modifySession σ ({ · with destroyed := true })).closeChannel σ

/-- Close the channel of a session that waits for its last request. -/
def endMaybe (s : RelayServer) (σ : SessionId) : RelayServer :=
  if (s.sessions σ).pendingClose ∧ (s.sessions σ).pairingTokens = ∅ then s.closeChannel σ else s

/-! ## Pairing -/

/-- The link of a Pair message. -/
def newLink (s : RelayServer) (σ : SessionId) (msg : PairMessage) : Link where
  session := σ
  isInitiator := msg.isInitiator
  remoteId := msg.id
  request := s.accepted.length

/-- A request takes its place in a pairing. -/
def enter (s : RelayServer) (pair : RelayPair) (link : Link) : RelayServer :=
  { s.modifySession link.session fun session =>
      { session with pairingTokens := insert pair.token session.pairingTokens } with
    pairings := s.pairings.insert pair.token (pair.fill link)
    accepted := s.accepted ++ [(pair.token, link)] }

/-- One round of the loop that keeps the streams in their sessions. -/
def track (s : RelayServer) (token : Token) (e : RelayEnd) : RelayServer :=
  (s.modifySession e.link.session fun session =>
    { session with
      pairingTokens := session.pairingTokens.erase token
      streams := session.streams.insert token e.stream }).endMaybe e.link.session

/-- The confirmation for one of the two peers. -/
def confirm (s : RelayServer) (token : Token) (e : RelayEnd) : RelayServer :=
  s.log (.send e.link.session (e.confirmation token) e.stream)

/-- The streams of a match are wired: they are kept, and then both peers get their confirmations. -/
def wire (s : RelayServer) (token : Token) (a b : RelayEnd) : RelayServer :=
  (((s.track token a).track token b).confirm token a).confirm token b

/-- Some streams are made. -/
def makeStreams (s : RelayServer) (n : ℕ) : RelayServer := { s with nextStream := s.nextStream + n }

/-- Both requests of a pairing have arrived: the pairing is taken out, and the streams are made. -/
def complete (s : RelayServer) (pair : RelayPair) (draw : Draw) : RelayServer :=
  match pair.links false, pair.links true with
  | some responder, some initiator =>
    let s := s.removePair pair.token
    match draw.first, draw.second with
    | none, _ => s
    | some _, none => s.makeStreams 1
    | some firstId, some secondId =>
      let a : RelayEnd := ⟨responder, ⟨s.nextStream, firstId⟩⟩
      let b : RelayEnd := ⟨initiator, ⟨s.nextStream + 1, secondId⟩⟩
      let s := (s.makeStreams 2).log (.relayTo pair.token a b draw.relayed)
      if draw.relayed then s.wire pair.token a b
      else (s.log (.destroyStream a.stream)).log (.destroyStream b.stream)
  | _, _ => s

/-- `BlindRelaySession::on_pair`. -/
def onPair (s : RelayServer) (σ : SessionId) (data : List UInt8) (draw : Draw) : RelayServer :=
  let msg := decodePair data
  if (s.sessions σ).closed || s.full msg.token then s
  else
    let s := s.evict
    let pair := s.getOrCreatePair msg.token
    if pair.has msg.isInitiator then s
    else
      let link := s.newLink σ msg
      let s := s.enter pair link
      if (pair.fill link).paired then s.complete (pair.fill link) draw else s

/-- A session takes its request back. -/
def takeBack (s : RelayServer) (σ : SessionId) (token : Token) : RelayServer :=
  (s.modifySession σ fun session =>
    { session with pairingTokens := session.pairingTokens.erase token }).removePair token

/-- A session takes its request back, if it is still waiting. -/
def unpairPending (s : RelayServer) (σ : SessionId) (token : Token) : RelayServer :=
  if token ∈ (s.sessions σ).pairingTokens then (s.takeBack σ token).endMaybe σ else s

/-- The stream of a session for a token is destroyed, if there is one. -/
def dropStream (s : RelayServer) (σ : SessionId) (token : Token) : RelayServer :=
  match (s.sessions σ).streams.lookup token with
  | none => s
  | some stream =>
    (s.log (.destroyStream stream)).modifySession σ fun session =>
      { session with streams := session.streams.erase token }

/-- `BlindRelaySession::on_unpair`; the channel of a closed session gets no message. -/
def onUnpair (s : RelayServer) (σ : SessionId) (data : List UInt8) : RelayServer :=
  let token := (decodeUnpair data).token
  if (s.sessions σ).closed then s else (s.unpairPending σ token).dropStream σ token

end RelayServer

/-! ## The machine -/

/-- What happens at the relay. -/
inductive ServerInput where
  | pair (session : SessionId) (data : List UInt8) (draw : Draw)
  | unpair (session : SessionId) (data : List UInt8)
  | close (session : SessionId)
  | destroy (session : SessionId)
  | remoteClose (session : SessionId)
  | tick (elapsed : ℕ)

/-- The relay takes a step. -/
def serverStep (s : RelayServer) : ServerInput → RelayServer
  | .pair σ data draw => s.onPair σ data draw
  | .unpair σ data => s.onUnpair σ data
  | .close σ => s.close σ
  | .destroy σ => s.destroy σ
  | .remoteClose σ => s.remoteClose σ
  | .tick elapsed => { s with now := s.now + elapsed }

/-! ## What the steps change -/

namespace RelayServer

variable (s : RelayServer) (σ τ : SessionId) (token : Token)

section Fields

variable (call : RelayCall) (f : RelaySession → RelaySession)

@[simp] lemma sessions_log : (s.log call).sessions = s.sessions := rfl
@[simp] lemma pairings_log : (s.log call).pairings = s.pairings := rfl
@[simp] lemma accepted_log : (s.log call).accepted = s.accepted := rfl
@[simp] lemma nextStream_log : (s.log call).nextStream = s.nextStream := rfl
@[simp] lemma calls_log : (s.log call).calls = s.calls ++ [call] := rfl

@[simp] lemma sessions_modifySession :
    (s.modifySession σ f).sessions = Function.update s.sessions σ (f (s.sessions σ)) := rfl
@[simp] lemma pairings_modifySession : (s.modifySession σ f).pairings = s.pairings := rfl
@[simp] lemma accepted_modifySession : (s.modifySession σ f).accepted = s.accepted := rfl
@[simp] lemma nextStream_modifySession : (s.modifySession σ f).nextStream = s.nextStream := rfl
@[simp] lemma calls_modifySession : (s.modifySession σ f).calls = s.calls := rfl

@[simp] lemma sessions_removePair : (s.removePair token).sessions = s.sessions := rfl
@[simp] lemma pairings_removePair : (s.removePair token).pairings = s.pairings.erase token := rfl
@[simp] lemma accepted_removePair : (s.removePair token).accepted = s.accepted := rfl
@[simp] lemma nextStream_removePair : (s.removePair token).nextStream = s.nextStream := rfl
@[simp] lemma calls_removePair : (s.removePair token).calls = s.calls := rfl

@[simp] lemma sessions_makeStreams (n : ℕ) : (s.makeStreams n).sessions = s.sessions := rfl
@[simp] lemma pairings_makeStreams (n : ℕ) : (s.makeStreams n).pairings = s.pairings := rfl
@[simp] lemma accepted_makeStreams (n : ℕ) : (s.makeStreams n).accepted = s.accepted := rfl
@[simp] lemma nextStream_makeStreams (n : ℕ) : (s.makeStreams n).nextStream = s.nextStream + n := rfl
@[simp] lemma calls_makeStreams (n : ℕ) : (s.makeStreams n).calls = s.calls := rfl

@[simp] lemma sessions_evict : s.evict.sessions = s.sessions := rfl
@[simp] lemma accepted_evict : s.evict.accepted = s.accepted := rfl
@[simp] lemma nextStream_evict : s.evict.nextStream = s.nextStream := rfl
@[simp] lemma calls_evict : s.evict.calls = s.calls := rfl

end Fields

/-- **A match**: the streams cannot be made, or not be wired, or they are wired. -/
theorem complete_cases {pair : RelayPair} {responder initiator : Link}
    (hresponder : pair.links false = some responder) (hinitiator : pair.links true = some initiator)
    (draw : Draw) :
    (draw.ok = false ∧ ∃ n, s.complete pair draw = (s.removePair pair.token).makeStreams n) ∨
    ∃ firstId secondId, ∃ a b : RelayEnd, a = ⟨responder, ⟨s.nextStream, firstId⟩⟩ ∧
      b = ⟨initiator, ⟨s.nextStream + 1, secondId⟩⟩ ∧
      ((draw.ok = false ∧ s.complete pair draw =
        ((((s.removePair pair.token).makeStreams 2).log (.relayTo pair.token a b false)).log
          (.destroyStream a.stream)).log (.destroyStream b.stream)) ∨
      (draw.ok = true ∧ s.complete pair draw =
        (((s.removePair pair.token).makeStreams 2).log (.relayTo pair.token a b true)).wire
          pair.token a b)) := by
  obtain ⟨first, second, relayed⟩ := draw
  rw [complete, hresponder, hinitiator]
  cases first with
  | none => exact Or.inl ⟨rfl, 0, rfl⟩
  | some firstId =>
    cases second with
    | none => exact Or.inl ⟨rfl, 1, rfl⟩
    | some secondId =>
      refine Or.inr ⟨firstId, secondId, _, _, rfl, rfl, ?_⟩
      cases relayed with
      | false => exact Or.inl ⟨rfl, rfl⟩
      | true => exact Or.inr ⟨rfl, rfl⟩

lemma lookup_evict {pair : RelayPair} :
    s.evict.pairings.lookup token = some pair ↔
      s.pairings.lookup token = some pair ∧ pair.stale s.now = false := by
  simp [evict]

@[simp] lemma sessions_onClose_self :
    (s.onClose σ).sessions σ =
      { s.sessions σ with closed := true, pairingTokens := ∅, streams := ∅ } := by
  simp [onClose]

lemma sessions_onClose_ne (h : τ ≠ σ) : (s.onClose σ).sessions τ = s.sessions τ := by
  simp [onClose, h]

lemma lookup_onClose {pair : RelayPair} :
    (s.onClose σ).pairings.lookup token = some pair ↔
      s.pairings.lookup token = some pair ∧ token ∉ (s.sessions σ).pairingTokens := by
  simp [onClose]

lemma sessions_closeChannel_ne (h : τ ≠ σ) : (s.closeChannel σ).sessions τ = s.sessions τ := by
  rw [closeChannel]
  split_ifs
  · rfl
  · rw [sessions_onClose_ne _ _ _ h, sessions_log]

lemma closed_closeChannel : ((s.closeChannel σ).sessions σ).closed = true := by
  rw [closeChannel]
  split_ifs with h
  · exact h
  · rw [sessions_onClose_self]

lemma sessions_endMaybe_ne (h : τ ≠ σ) : (s.endMaybe σ).sessions τ = s.sessions τ := by
  rw [endMaybe]
  split_ifs
  · exact s.sessions_closeChannel_ne σ τ h
  · rfl

/-- A session that ends has no tokens, so that ending changes those of no session. -/
@[simp] lemma pairingTokens_endMaybe :
    ((s.endMaybe σ).sessions τ).pairingTokens = (s.sessions τ).pairingTokens := by
  rcases eq_or_ne τ σ with rfl | hne
  · rw [endMaybe]
    split_ifs with hend
    · rw [closeChannel]
      split_ifs
      · rfl
      · rw [sessions_onClose_self]
        exact hend.2.symm
    · rfl
  · rw [s.sessions_endMaybe_ne σ τ hne]

/-- A session that ends takes no pairing with it. -/
@[simp] lemma lookup_endMaybe : (s.endMaybe σ).pairings.lookup token = s.pairings.lookup token := by
  rw [endMaybe]
  split_ifs with hend
  · rw [closeChannel]
    split_ifs
    · rfl
    · apply Option.ext
      intro pair
      rw [lookup_onClose]
      simp [hend.2]
  · rfl

lemma closed_endMaybe (hpending : ((s.endMaybe σ).sessions σ).pendingClose = true)
    (htokens : ((s.endMaybe σ).sessions σ).pairingTokens = ∅) :
    ((s.endMaybe σ).sessions σ).closed = true := by
  rw [pairingTokens_endMaybe] at htokens
  rw [endMaybe] at hpending ⊢
  split_ifs at hpending ⊢ with hend
  · exact s.closed_closeChannel σ
  · exact absurd ⟨hpending, htokens⟩ hend

end RelayServer

end HyperDHT.BlindRelay
