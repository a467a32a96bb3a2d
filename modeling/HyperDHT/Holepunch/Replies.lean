import HyperDHT.Holepunch.Recognition

/-!
# The replies of a server

What a server makes of a message of a session, for every session and every byte string. A message that cannot be
read is dropped; any other one moves the round of the session forward and gets a reply that tells this round. The
server punches only if the client does, and puts off a random punch when there are too many.

## Main definitions

* `Holepunch.Known.Legal` — the firewall of the server is in range, and its addresses fit into a reply.
* `Holepunch.HolepunchReply.read` — what the client reads in a reply.
* `Holepunch.Unreadable`, `Holepunch.Answered` — what is made of a message that cannot be read, or can.

## Main results

* `Holepunch.legal_known` — a server knows only of legal firewalls and of few addresses.
* `Holepunch.read_abortReply`, `Holepunch.read_answerReply` — the client reads what the server has replied.
* `Holepunch.handleHolepunch_spec` — what a server makes of a message.
-/

set_option autoImplicit false

namespace HyperDHT

open Compact NatSampler

namespace Holepunch

variable {conn : Session} {value : List UInt8} {known : Known} {secure : SecurePayload}
  {client : HolepunchPayload} {round : UInt32}

/-! ## What the server knows -/

/-- The firewall of the server is one of the four, and its addresses are not too many for a reply. -/
structure Known.Legal (known : Known) : Prop where
  ourFirewall : known.ourFirewall ≤ 3
  ourAddresses : known.ourAddresses.length ≤ arrayMaxLength

/-- **What a server knows is legal**: the sampler reports one of the classes, and at most four addresses. -/
lemma legal_known (s : PunchServer) {sampler : NatSampler.State} (h : Short sampler)
    (stats : Option PunchStats) (now : ℕ) (peerAddress : Ipv4Address) :
    (s.known sampler stats now peerAddress).Legal :=
  ⟨Firewall.code_le _, h.trans (show 4 ≤ 4096 by decide)⟩

/-! ## What the client reads -/

/-- What the client reads in a reply. -/
def HolepunchReply.read (secure : SecurePayload) (reply : HolepunchReply) : Option HolepunchPayload :=
  (secure.decrypt (decodeHolepunchMsg reply.value).payload).map decodeHolepunchPayload

lemma read_responseMsg {p : HolepunchPayload} (hfirewall : p.firewall ≤ 3)
    (haddresses : p.addresses.length ≤ arrayMaxLength) (reply : HolepunchReply)
    (clientAddress : Ipv4Address)
    (h : reply.value = encodeHolepunchMsg (responseMsg secure clientAddress p)) :
    reply.read secure = some p := by
  have hmsg : decodeHolepunchMsg reply.value = responseMsg secure clientAddress p := by
    rw [h]
    exact decodeHolepunchMsg_encodeHolepunchMsg (show (1 : UInt32) ≤ 0xFF by decide)
      (length_encrypt_le secure haddresses)
  unfold HolepunchReply.read
  rw [hmsg, responseMsg, secure.decrypt_encrypt, Option.map_some,
    decodeHolepunchPayload_encodeHolepunchPayload hfirewall haddresses]

lemma read_abortReply (secure : SecurePayload) (known : Known) (round : UInt32) :
    (abortReply secure known round).read secure = some (abortedPayload round) :=
  read_responseMsg (show firewallUnknown ≤ 3 by decide) (Nat.zero_le _) _ known.clientAddress rfl

lemma read_answerReply (h : known.Legal) (round : UInt32) (client : HolepunchPayload) :
    (answerReply secure known round client).read secure =
      some (responsePayload secure known round client) :=
  read_responseMsg h.ourFirewall h.ourAddresses _ known.clientAddress rfl

/-! ## The step -/

/-- The message cannot be read: there is no secret, nothing is in the message, or it is not for this secret. -/
def Unreadable (conn : Session) (value : List UInt8) : Prop :=
  ∀ secure, conn.secure = some secure → (decodeHolepunchMsg value).payload = [] ∨
    secure.decrypt (decodeHolepunchMsg value).payload = none

/-- The client punches without an error, and says where it is. -/
def Invites (client : HolepunchPayload) : Prop :=
  client.error = errorNone ∧ client.punching = true ∧ client.addresses ≠ []

/-- A random punch is asked for when there are too many: one of the firewalls is random. -/
def Throttled (known : Known) (client : HolepunchPayload) : Prop :=
  known.randomThrottled = true ∧ (client.firewall ≥ firewallRandom ∨ known.ourFirewall ≥ firewallRandom)

/-- **What is made of a message of the client**: the round does not go back, the reply can be read and tells it,
and the server punches only if it is invited. A random punch that is too much is put off. -/
structure Answered (secure : SecurePayload) (client : HolepunchPayload) (conn : Session) (known : Known)
    (handled : Session × HolepunchReply) : Prop where
  round : conn.round ≤ handled.1.round
  reply : ∃ resp, handled.2.read secure = some resp ∧ resp.round = handled.1.round ∧
    (Throttled known client → (resp.error = errorTryLater ↔ Invites client))
  shouldPunch : handled.2.shouldPunch = true → Invites client
  throttled : Throttled known client → handled.2.shouldPunch = false

lemma read_eq_none_iff : conn.read value = none ↔ Unreadable conn value := by
  unfold Session.read Unreadable
  cases conn.secure with
  | none => simp
  | some secure =>
    simp only [Option.bind_some, Option.some.injEq, forall_eq']
    split
    next hempty => exact iff_of_true rfl (.inl (List.isEmpty_iff.1 hempty))
    next hsome =>
      have hfull : (decodeHolepunchMsg value).payload ≠ [] := fun hnil => hsome (by simp [hnil])
      simp [hfull]

lemma le_nextRound (conn : Session) (client : HolepunchPayload) : conn.round ≤ conn.nextRound client := by
  unfold Session.nextRound
  split
  next h => exact h
  · exact UInt32.le_refl _

lemma wantsPunch_iff : wantsPunch client = true ↔ client.punching = true ∧ client.addresses ≠ [] := by
  simp [wantsPunch]

lemma triesLater_iff (h : Throttled known client) :
    triesLater known client = true ↔ wantsPunch client = true := by
  obtain ⟨hthrottled, hrandom⟩ := h
  simp [triesLater, hthrottled, hrandom]

lemma answered_abortReply (herror : client.error ≠ errorNone) :
    Answered secure client conn known ({ conn with round := conn.nextRound client },
      abortReply secure known (conn.nextRound client)) := by
  refine ⟨le_nextRound conn client, ⟨abortedPayload (conn.nextRound client), ?_, rfl, fun _ => ?_⟩,
    fun h => Bool.noConfusion h, fun _ => rfl⟩
  · exact read_abortReply secure known _
  · exact iff_of_false (show errorAborted ≠ errorTryLater by decide) fun hinvites => herror hinvites.1

lemma answered_answerReply (h : known.Legal) (herror : client.error = errorNone) :
    Answered secure client conn known ({ conn with round := conn.nextRound client },
      answerReply secure known (conn.nextRound client) client) := by
  have hinvites : Invites client ↔ wantsPunch client = true := by
    rw [wantsPunch_iff]
    exact and_iff_right herror
  refine ⟨le_nextRound conn client, ⟨responsePayload secure known (conn.nextRound client) client,
    read_answerReply h _ _, rfl, fun hthrottled => ?_⟩, fun hpunch => ?_, fun hthrottled => ?_⟩
  · rw [hinvites, ← triesLater_iff hthrottled]
    unfold responsePayload
    dsimp only
    cases triesLater known client <;> decide
  · unfold answerReply at hpunch
    rw [Bool.and_eq_true] at hpunch
    exact hinvites.2 hpunch.1
  · unfold answerReply
    dsimp only
    cases hwants : wantsPunch client with
    | false => rfl
    | true => rw [(triesLater_iff hthrottled).2 hwants]; rfl

/-- **What a server makes of a message**, for every session and every byte string: one that cannot be read changes
nothing and is not replied to, and any other one is answered. -/
theorem handleHolepunch_spec (conn : Session) (value : List UInt8) {known : Known} (h : known.Legal) :
    (Unreadable conn value → handleHolepunch conn value known = (conn, {})) ∧
      (¬ Unreadable conn value → ∃ secure client, conn.read value = some (secure, client) ∧
        Answered secure client conn known (handleHolepunch conn value known)) := by
  rw [← read_eq_none_iff]
  rcases handleHolepunch_cases conn value known with ⟨hnone, heq⟩ | ⟨secure, client, hread, hconn, hreply⟩
  · exact ⟨fun _ => heq, fun hsome => absurd hnone hsome⟩
  · refine ⟨fun hnone => ?_, fun _ => ⟨secure, client, hread, ?_⟩⟩
    · rw [hread] at hnone
      cases hnone
    · rcases hreply with ⟨herror, hreply⟩ | ⟨herror, hreply⟩
      · rw [show handleHolepunch conn value known = (_, _) from Prod.ext hconn hreply]
        exact answered_abortReply herror
      · rw [show handleHolepunch conn value known = (_, _) from Prod.ext hconn hreply]
        exact answered_answerReply h herror

def throttledKnown : Known where
  clientAddress := hostAt 9
  ourFirewall := firewallConsistent
  ourAddresses := [hostAt 1]
  randomThrottled := true

def punchMessage : List UInt8 :=
  encodeHolepunchMsg {
    id := 7
    payload := plainSecure.encrypt (encodeHolepunchPayload {
      punching := true, firewall := firewallRandom, round := 1, addresses := [hostAt 9] }) }

/-- The message is answered, and the punch put off. -/
theorem answered_punchMessage :
    ∃ secure client, ({ secure := some plainSecure } : Session).read punchMessage = some (secure, client) ∧
      Answered secure client { secure := some plainSecure } throttledKnown
        (handleHolepunch { secure := some plainSecure } punchMessage throttledKnown) := by
  refine (@handleHolepunch_spec { secure := some plainSecure } punchMessage throttledKnown
    ⟨by decide, by decide⟩).2 fun hunreadable => ?_
  have hread : (({ secure := some plainSecure } : Session).read punchMessage).isSome = true := by
    decide +kernel
  rw [read_eq_none_iff.2 hunreadable] at hread
  exact Bool.noConfusion hread

end Holepunch

end HyperDHT
