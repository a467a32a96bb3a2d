import HyperDHT.Holepunch.Finish
import HyperDHT.Holepunch.Sampling

/-!
# Which messages come over a relay

A server gives its token to a client whose message came over one of the relays of the server, and takes the
address of the client to be verified when it echoes the token in another such message. But the server knows
only the address of the client, and compares its relays with that: a message that names its client, as all do
that come over a relay, is never taken for one that does.

## Main definitions

* `PunchNode.Forwarded` — a request comes from one of the relays of the server that it reaches.
* `PunchNode.Recognises` — what a node should do with a message over a relay.
* `PunchNode.NamesSender` — the message names no client, or one that is a relay exactly if its sender is.

## Main results

* `PunchNode.answer_read` — what the client reads in the answer to a message.
* `PunchNode.recognises_iff` — a node recognises the messages over its relays exactly if they meet that
  condition.
* `PunchNode.not_recognises_forwardedRun` — a message over a relay whose client gets no token.
-/

set_option autoImplicit false

namespace HyperDHT

open Compact Routing Rpc Handlers Holepunch Runs

/-! ## What the sampler reports -/

namespace NatSampler

/-- The sampler reports few addresses. -/
def Short (s : State) : Prop := s.addresses.length ≤ 4

lemma length_collectAddresses (samples : List Sample) (addresses : List Ipv4Address)
    (h : addresses.length ≤ 4) : (State.collectAddresses samples addresses).length ≤ 4 := by
  induction samples generalizing addresses with
  | nil => exact h
  | cons s samples ih =>
    unfold State.collectAddresses
    split
    · exact h
    next hlt =>
      split
      · refine ih _ ?_
        rw [List.length_append, List.length_singleton]
        exact not_le.1 hlt
      · exact ih addresses h

lemma Short.updateAddresses (s : State) : Short s.updateAddresses := by
  unfold Short State.updateAddresses
  dsimp only
  split
  · rw [List.length_singleton]
    exact Nat.le_of_ble_eq_true rfl
  · exact length_collectAddresses _ [] (Nat.zero_le 4)
  · exact Nat.zero_le 4

lemma Short.add {s : State} (h : Short s) (addr source : Ipv4Address) : Short (s.add addr source).1 := by
  have hhost (t : State) : t.updateHost.addresses = t.addresses := by
    unfold State.updateHost
    split <;> rfl
  unfold State.add
  split
  · unfold Short
    dsimp only
    rw [hhost]
    unfold State.reclassify
    split
    · exact Short.updateAddresses _
    · exact h
  · exact h

lemma Short.freeze {s : State} (h : Short s) : Short s.freeze := h

end NatSampler

open NatSampler

lemma Rpc.RpcNode.short_learn {sampler : NatSampler.State} (h : Short sampler)
    (samples : List (Ipv4Address × Ipv4Address)) : Short (RpcNode.learn sampler samples) := by
  induction samples generalizing sampler with
  | nil => exact h
  | cons p samples ih => exact ih (h.add p.1 p.2)

lemma PunchServer.short_heard {sampler : NatSampler.State} (h : Short sampler) (addr : Ipv4Address) :
    Short (PunchServer.heard sampler addr) := by
  rw [PunchServer.heard_eq]
  split
  · exact (h.add addr addr).freeze
  · exact h.add addr addr

lemma NatSampler.Firewall.code_le (firewall : NatSampler.Firewall) : firewall.code ≤ 3 := by
  cases firewall <;> decide

/-! ## What the client reads -/

lemma length_encodeHolepunchPayload_le (p : HolepunchPayload) :
    (encodeHolepunchPayload p).length ≤ 115 + 6 * p.addresses.length := by
  have haddresses : (optionalArrayEncode ipv4Encode p.addresses).length ≤ 9 + 6 * p.addresses.length := by
    unfold optionalArrayEncode
    split
    · exact Nat.zero_le _
    · have hflat : (p.addresses.flatMap ipv4Encode).length = 6 * p.addresses.length := by
        induction p.addresses with
        | nil => rfl
        | cons addr addrs ih =>
          rw [List.flatMap_cons, List.length_append, ih, List.length_cons]
          simp [ipv4Encode, LittleEndian.toLe]
          omega
      have hcount := length_uintEncode_le (UInt64.ofNat p.addresses.length)
      rw [arrayEncode, List.length_append, hflat]
      omega
  have hremote : ((p.remoteAddress.map ipv4Encode).getD []).length ≤ 6 := by
    cases p.remoteAddress with
    | none => exact Nat.zero_le 6
    | some addr => simp [ipv4Encode, LittleEndian.toLe]
  have htoken (token : Option (List.Vector UInt8 32)) :
      ((token.map (·.toList)).getD []).length ≤ 32 := by
    cases token with
    | none => exact Nat.zero_le 32
    | some token => simp
  have hflags := length_uintEncode_le p.flags.toUInt64
  have herror := length_uintEncode_le p.error.toUInt64
  have hfirewall := length_uintEncode_le p.firewall.toUInt64
  have hround := length_uintEncode_le p.round.toUInt64
  have hown := htoken p.token
  have hother := htoken p.remoteToken
  simp only [encodeHolepunchPayload, List.length_append]
  omega

lemma length_encrypt_le (secure : SecurePayload) {p : HolepunchPayload}
    (h : p.addresses.length ≤ arrayMaxLength) :
    (secure.encrypt (encodeHolepunchPayload p)).length ≤ maxBufferDecode := by
  have hlength := length_encodeHolepunchPayload_le p
  rw [show arrayMaxLength = 4096 from rfl] at h
  rw [secure.length_encrypt, show maxBufferDecode = 65536 from rfl]
  omega

/-- The value of an answer. -/
def PunchAnswer.value : PunchAnswer → List UInt8
  | .reply resp => resp.value.getD []
  | .relay req => req.value.getD []

/-- The payload of an answer, as the client reads it. -/
def PunchAnswer.read (secure : SecurePayload) (answer : PunchAnswer) : Option HolepunchPayload :=
  (secure.decrypt (decodeHolepunchMsg answer.value).payload).map decodeHolepunchPayload

namespace PunchNode

variable {env : Rpc.Env} {s : PunchNode} {req : Incoming} {handed : Handed} {id : Option NodeId}
  {random : ℕ} {secure : SecurePayload}

/-- **The router leaves the payload alone**: what a server answers can be read in what is sent. -/
theorem read_routerAnswer {p : HolepunchPayload} {clientAddr : Ipv4Address} (hfirewall : p.firewall ≤ 3)
    (haddresses : p.addresses.length ≤ 4) :
    (routerAnswer req handed (encodeHolepunchMsg (responseMsg secure clientAddr p))).read secure =
      some p := by
  have hfew : p.addresses.length ≤ arrayMaxLength := haddresses.trans (show 4 ≤ 4096 by decide)
  have hshort := length_encrypt_le secure hfew
  have hread : decodeHolepunchMsg (encodeHolepunchMsg (responseMsg secure clientAddr p)) =
      responseMsg secure clientAddr p :=
    decodeHolepunchMsg_encodeHolepunchMsg (show (1 : UInt32) ≤ 0xFF by decide) hshort
  have hpayload : decodeHolepunchPayload (encodeHolepunchPayload p) = p :=
    decodeHolepunchPayload_encodeHolepunchPayload hfirewall hfew
  have hmsg (mode : UInt32) (hmode : mode ≤ 0xFF) (peerAddress : Option Ipv4Address) :
      (decodeHolepunchMsg (encodeHolepunchMsg { responseMsg secure clientAddr p with
        mode := mode, peerAddress := peerAddress })).payload =
          secure.encrypt (encodeHolepunchPayload p) := by
    rw [decodeHolepunchMsg_encodeHolepunchMsg hmode hshort]
    rfl
  unfold routerAnswer
  rw [hread]
  split
  · have hpart := hmsg modeReply (by decide) none
    simp only [PunchAnswer.read, PunchAnswer.value, Option.getD_some, hpart, secure.decrypt_encrypt,
      Option.map_some, hpayload]
  · have hpart := hmsg modeFromServer (by decide) (some handed.clientAddr)
    simp only [PunchAnswer.read, PunchAnswer.value, Option.getD_some, hpart, secure.decrypt_encrypt,
      Option.map_some, hpayload]

/-- What a server knows of a message that it is handed. -/
def knownOf (s : PunchNode) (handed : Handed) : Known :=
  handed.server.known (PunchServer.heard s.rpc.natSampler handed.clientAddr) (some s.stats) s.now
    handed.clientAddr

/-- **What the client reads in the answer** to a message that the server can read. -/
theorem answer_read (hshort : Short s.rpc.natSampler) (h : s.reaches req = some handed)
    {conn : Session} {client : HolepunchPayload}
    (hlookup : handed.server.sessions.lookup (decodeHolepunchMsg handed.value).id = some conn)
    (hread : conn.read handed.value = some (secure, client)) (herror : client.error = errorNone) :
    (∃ answer, (s.onRequest env id req random).answers = s.answers ++ [answer] ∧
        answer.read secure = some (Holepunch.responsePayload secure (s.knownOf handed)
          (conn.nextRound client) client)) ∧
      ((s.seen env id req).served handed random).reply.addressVerified =
        ((s.knownOf handed).isServerRelay &&
          client.remoteToken == some (secure.token handed.clientAddr.hostString)) := by
  obtain ⟨-, -, -, hopen, -⟩ := reaches_spec h
  have hsampler : (s.seen env id req).rpc.natSampler = s.rpc.natSampler := natSampler_seen id req
  have hreply : ((s.seen env id req).served handed random).reply =
      answerReply secure (s.knownOf handed) (conn.nextRound client) client := by
    unfold served
    rw [PunchServer.onPeerHolepunch_of_lookup hopen hlookup, hsampler]
    dsimp only
    obtain ⟨hnone, -⟩ | ⟨secure', client', hsome, -, ⟨hbad, -⟩ | ⟨-, hanswer⟩⟩ :=
      handleHolepunch_cases conn handed.value (handed.server.known
        (PunchServer.heard s.rpc.natSampler handed.clientAddr) (some s.stats) s.now handed.clientAddr)
    · rw [hread] at hnone
      cases hnone
    · obtain ⟨rfl, rfl⟩ := Prod.mk.inj (Option.some.inj (hread.symm.trans hsome))
      exact absurd herror hbad
    · obtain ⟨rfl, rfl⟩ := Prod.mk.inj (Option.some.inj (hread.symm.trans hsome))
      exact hanswer
  rw [hreply]
  refine ⟨⟨routerAnswer req handed (answerReply secure (s.knownOf handed) (conn.nextRound client)
    client).value, ?_, ?_⟩, rfl⟩
  · rw [onRequest_of_reaches h, hreply]
    unfold answerReply
    dsimp only
    rw [if_neg (ne_true_of_eq_false (isEmpty_encodeHolepunchMsg _))]
  · refine read_routerAnswer ?_ (PunchServer.short_heard hshort handed.clientAddr)
    exact NatSampler.Firewall.code_le _

/-! ## Messages over a relay -/

/-- A message comes over a relay of the server that it reaches. -/
def Forwarded (handed : Handed) (req : Incoming) : Prop :=
  ∃ ri ∈ handed.server.relays, ri.relayAddress = req.fromAddr

instance (handed : Handed) (req : Incoming) : Decidable (Forwarded handed req) :=
  inferInstanceAs (Decidable (∃ ri ∈ _, _))

/-- The client gets the token of the server in the answer to its message, and is verified if it echoes that
token. -/
def Trusts (env : Rpc.Env) (s : PunchNode) (id : Option NodeId) (req : Incoming) (random : ℕ)
    (handed : Handed) : Prop :=
  ∀ conn, handed.server.sessions.lookup (decodeHolepunchMsg handed.value).id = some conn →
    ∀ secure client, conn.read handed.value = some (secure, client) → client.error = errorNone →
      (∃ answer, (s.onRequest env id req random).answers = s.answers ++ [answer] ∧
        (answer.read secure).map (·.token) = some (some (secure.token handed.clientAddr.hostString))) ∧
      (client.remoteToken = some (secure.token handed.clientAddr.hostString) →
        ((s.seen env id req).served handed random).reply.addressVerified = true)

/-- What a node should do with a request that reaches a server: take it for one that comes over a relay
exactly if it does, and then trust the client. -/
def Recognises (env : Rpc.Env) (s : PunchNode) : Input → Prop
  | .request _ id req random => ∀ handed, s.reaches req = some handed →
      ((s.knownOf handed).isServerRelay = true ↔ Forwarded handed req) ∧
        (Forwarded handed req → s.Trusts env id req random handed)
  | _ => True

/-- A message that reaches a server names no client, or one that is a relay exactly if its sender is. -/
def NamesSender (s : PunchNode) : Input → Prop
  | .request _ _ req _ => ∀ handed, s.reaches req = some handed →
      ∀ named, (decodeHolepunchMsg handed.value).peerAddress = some named →
        ((∃ ri ∈ handed.server.relays, ri.relayAddress = named) ↔ Forwarded handed req)
  | _ => True

lemma isServerRelay_knownOf (s : PunchNode) (handed : Handed) :
    (s.knownOf handed).isServerRelay = true ↔
      ∃ ri ∈ handed.server.relays, ri.relayAddress = handed.clientAddr :=
  PunchServer.isRelay_iff _ _

/-- **A client is trusted** whose message is taken for one over a relay. -/
lemma trusts_of_isServerRelay (hshort : Short s.rpc.natSampler) (h : s.reaches req = some handed)
    (hrelay : (s.knownOf handed).isServerRelay = true) : s.Trusts env id req random handed := by
  intro conn hlookup secure client hread herror
  obtain ⟨⟨answer, hsent, hanswer⟩, hverified⟩ :=
    @answer_read env s req handed id random secure hshort h conn client hlookup hread herror
  refine ⟨⟨answer, hsent, ?_⟩, fun hecho => ?_⟩
  · have htoken : (Holepunch.responsePayload secure (s.knownOf handed) (conn.nextRound client)
        client).token = some (secure.token handed.clientAddr.hostString) := if_pos hrelay
    rw [hanswer, Option.map_some, htoken]
  · rw [hverified, hrelay, hecho, Bool.true_and, beq_self_eq_true]

lemma recognises_step_iff (hshort : Short s.rpc.natSampler) (i : Input) :
    s.Recognises env i ↔ s.NamesSender i := by
  cases i with
  | request toAddr id req random =>
    constructor
    · intro h handed hreaches named hnamed
      obtain ⟨-, -, hhanded, -⟩ := reaches_spec hreaches
      obtain ⟨-, -, hclient⟩ := handedTo_spec hhanded
      rw [hnamed, Option.getD_some] at hclient
      rw [← (h handed hreaches).1, isServerRelay_knownOf, hclient]
    · intro h handed hreaches
      obtain ⟨-, -, hhanded, -⟩ := reaches_spec hreaches
      obtain ⟨-, -, hclient⟩ := handedTo_spec hhanded
      have hiff : (s.knownOf handed).isServerRelay = true ↔ Forwarded handed req := by
        rw [isServerRelay_knownOf]
        cases hnamed : (decodeHolepunchMsg handed.value).peerAddress with
        | none =>
          rw [hnamed, Option.getD_none] at hclient
          rw [hclient]
          exact Iff.rfl
        | some named =>
          rw [hnamed, Option.getD_some] at hclient
          rw [hclient]
          exact h handed hreaches named hnamed
      exact ⟨hiff, fun hforwarded => trusts_of_isServerRelay hshort hreaches (hiff.2 hforwarded)⟩
  | _ => exact Iff.rfl

lemma short_step (s : PunchNode) (i : Input) (h : Short s.rpc.natSampler) :
    Short (step env s i).rpc.natSampler := by
  obtain heq | heq := @natSampler_step env s i
  · rw [heq]
    exact RpcNode.short_learn h _
  · rw [heq]
    exact (RpcNode.short_learn h _).freeze

lemma short_init (localId : NodeId) (firstTid : UInt16) (ownAddr : Option Ipv4Address) (limit : ℤ)
    (interval now : ℕ) (deferRandomPunch : Bool) :
    Short (init localId firstTid ownAddr limit interval now deferRandomPunch).rpc.natSampler := by
  cases ownAddr with
  | none => exact Nat.zero_le 4
  | some addr => exact Short.add (s := {}) (Nat.zero_le 4) addr addr

/-- **A node recognises the messages over its relays** in every step of a run exactly if the messages that
reach a server name no client, or one that is a relay exactly if the sender is. -/
theorem recognises_iff (env : Rpc.Env) (localId : NodeId) (firstTid : UInt16)
    (ownAddr : Option Ipv4Address) (limit : ℤ) (interval now : ℕ) (deferRandomPunch : Bool)
    (is : List Input) :
    EveryStep (step env) (Recognises env)
        (init localId firstTid ownAddr limit interval now deferRandomPunch) is ↔
      EveryStep (step env) NamesSender
        (init localId firstTid ownAddr limit interval now deferRandomPunch) is :=
  everyStep_iff (I := fun s : PunchNode => Short s.rpc.natSampler)
    (fun _ i h => recognises_step_iff h i) (fun s i h _ => short_step s i h)
    (short_init localId firstTid ownAddr limit interval now deferRandomPunch)

/-! ## A client that gets no token -/

/-- The first message of a holepunch, as a client sends it that has a session with the server. -/
def firstMessage : List UInt8 := encodeHolepunchMsg {
  mode := modeFromRelay
  id := 7
  payload := plainSecure.encrypt (encodeHolepunchPayload {})
  peerAddress := some forwardedClient }

/-- The node listens over one relay and has a session, and the relay forwards the first message of the
client. -/
def forwardedRun : List Input := [
  .listen NodeId.zero,
  .server 0 (.setRelays [{ relayAddress := forwardingRelay, peerAddress := nodeAddr }]),
  .server 0 (.openSession 7 (some plainSecure)),
  .request nodeAddr none (forwarded firstMessage (by decide +kernel)) 0]

/-- What is taken for a message over a relay is one. -/
def recognised (s : PunchNode) : Input → Bool
  | .request _ _ req _ => (s.reaches req).all fun handed =>
      decide ((s.knownOf handed).isServerRelay = true ↔ Forwarded handed req)
  | _ => true

lemma recognised_of_recognises (s : PunchNode) (i : Input) (h : s.Recognises env i) :
    s.recognised i = true := by
  cases i with
  | request toAddr id req random =>
    simp only [recognised, Option.all_eq_true, decide_eq_true_eq]
    exact fun handed hreaches => (h handed hreaches).1
  | _ => rfl

/-- **A client that gets no token**, although a relay of the server has forwarded its message. -/
theorem not_recognises_forwardedRun :
    ¬ EveryStep (step samplingEnv) (Recognises samplingEnv) freshNode forwardedRun ∧
      (run (step samplingEnv) freshNode forwardedRun).answers.map
        (fun answer => (answer.read plainSecure).map (·.token)) = [some none] := by
  constructor
  · intro h
    have hrecognised := h.mono recognised_of_recognises
    revert hrecognised
    decide +kernel
  · decide +kernel

end PunchNode

end HyperDHT
