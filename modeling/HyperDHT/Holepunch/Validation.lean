import HyperDHT.Holepunch.Replies

/-!
# Payloads that are not valid

The decoder of the payloads of a holepunch stores the firewall before it looks at its range, and returns
what it has read when it meets an error. The server cannot tell such a payload from one that ends there,
and takes what is in it.

## Main definitions

* `Holepunch.payloadFields` — what is on the wire of a payload.
* `Holepunch.WholePayload` — a payload with nothing cut off and a firewall in range.
* `Holepunch.AdoptsNothing` — a message is dropped, or answered as one that says nothing.
* `Holepunch.Validated` — firewalls are in range, and nothing is taken from a payload that is not whole.
* `Holepunch.SaysNothing` — a payload says nothing that could be taken from it.

## Main results

* `Holepunch.decodeHolepunchPayload_spec` — what is decoded, for every byte string.
* `Holepunch.adoptsNothing_iff` — when nothing is taken from a payload.
* `Holepunch.validated_iff` — when payloads are validated.
* `Holepunch.not_validated_farFirewall` — a firewall that is out of range.
-/

set_option autoImplicit false

namespace HyperDHT.Holepunch

open Compact

variable {conn : Session} {value data : List UInt8} {known : Known} {secure : SecurePayload}
  {client : HolepunchPayload}

/-! ## What is on the wire -/

/-- Read a field, if the flags announce it and no error was met before. -/
def announced {α : Type} (flags bit : UInt32) (decode : State → α × State) (s : State) : Option α × State :=
  if flags &&& bit = 0 || s.error then (none, s) else (some (decode s).1, (decode s).2)

/-- A payload as it is on the wire. The numbers are zero where they are not there. -/
structure PayloadFields where
  error : UInt32
  firewall : UInt64
  round : UInt32
  addresses : List Ipv4Address
  token : Option (List.Vector UInt8 32)
  remoteToken : Option (List.Vector UInt8 32)
  /-- The cursor after the last field. -/
  stop : State

def payloadFields (data : List UInt8) : PayloadFields :=
  let flags := uint32Decode (.forDecode data)
  let error := uint32Decode flags.2
  let firewall := uintDecode error.2
  let round := uint32Decode firewall.2
  let addresses := announced flags.1 4 (arrayDecode ipv4Decode) round.2
  let remoteAddress := announced flags.1 8 ipv4Decode addresses.2
  let token := announced flags.1 16 (fixedDecode 32) remoteAddress.2
  let remoteToken := announced flags.1 32 (fixedDecode 32) token.2
  { error := error.1, firewall := firewall.1, round := round.1, addresses := addresses.1.getD [],
    token := token.1, remoteToken := remoteToken.1, stop := remoteToken.2 }

/-- **A valid payload**: every field that the flags announce is there, and the firewall is in range. -/
def WholePayload (data : List UInt8) : Prop :=
  (payloadFields data).stop.error = false ∧ (payloadFields data).firewall ≤ 3

instance : DecidablePred WholePayload := fun _ => inferInstanceAs (Decidable (_ ∧ _))

lemma announced_failed {α : Type} {flags bit : UInt32} {decode : State → α × State} {s : State}
    (h : s.error = true) : announced flags bit decode s = (none, s) := by
  simp [announced, h]

lemma announced_of_read {α : Type} (flags bit : UInt32) (decode : State → α × State) {s : State}
    (h : s.error = false) :
    (if flags &&& bit = 0 then (none, s) else (some (decode s).1, (decode s).2)) =
      announced flags bit decode s := by
  simp [announced, h]

lemma decodeHolepunchTail_spec (flags : UInt32) (p : HolepunchPayload) (s : State)
    (haddresses : p.addresses = []) (htoken : p.token = none) (hremoteToken : p.remoteToken = none) :
    let addresses := announced flags 4 (arrayDecode ipv4Decode) s
    let remoteAddress := announced flags 8 ipv4Decode addresses.2
    let token := announced flags 16 (fixedDecode 32) remoteAddress.2
    let remoteToken := announced flags 32 (fixedDecode 32) token.2
    (decodeHolepunchTail flags p s).addresses = addresses.1.getD [] ∧
      (decodeHolepunchTail flags p s).token = token.1 ∧
      (decodeHolepunchTail flags p s).remoteToken = remoteToken.1 := by
  have harray : (if flags &&& 4 = 0 then (p.addresses, s) else arrayDecode ipv4Decode s) =
      ((announced flags 4 (arrayDecode ipv4Decode) s).1.getD [],
        (announced flags 4 (arrayDecode ipv4Decode) s).2) := by
    unfold announced
    by_cases hclear : flags &&& 4 = 0
    · simp [hclear, haddresses]
    · cases herror : s.error with
      | false => simp [hclear]
      | true => simp [hclear, arrayDecode_failed _ herror]
  dsimp only
  unfold decodeHolepunchTail
  rw [harray]
  generalize announced flags 4 (arrayDecode ipv4Decode) s = addresses
  dsimp only
  cases haddr : addresses.2.error with
  | true => simp [announced_failed, haddr, htoken, hremoteToken]
  | false =>
    have hremote : (if flags &&& 8 = 0 then (p.remoteAddress, addresses.2)
        else (some (ipv4Decode addresses.2).1, (ipv4Decode addresses.2).2)).2 =
          (announced flags 8 ipv4Decode addresses.2).2 := by
      rw [← announced_of_read _ _ _ haddr]
      split_ifs <;> rfl
    simp only [Bool.false_eq_true, if_false, hremote]
    generalize (announced flags 8 ipv4Decode addresses.2).2 = s'
    cases hs' : s'.error with
    | true => simp [announced_failed, hs', htoken, hremoteToken]
    | false =>
      simp only [Bool.false_eq_true, if_false, htoken, announced_of_read _ _ _ hs']
      generalize announced flags 16 (fixedDecode 32) s' = token
      cases htok : token.2.error with
      | true => simp [announced_failed, htok, hremoteToken]
      | false =>
        simp only [Bool.false_eq_true, if_false, announced, htok, Bool.or_false, decide_eq_true_eq]
        split_ifs with hclear <;> simp [hremoteToken]

lemma decodeHolepunchTail_kept (flags : UInt32) (p : HolepunchPayload) (s : State) :
    (decodeHolepunchTail flags p s).error = p.error ∧ (decodeHolepunchTail flags p s).firewall = p.firewall ∧
      (decodeHolepunchTail flags p s).round = p.round := by
  unfold decodeHolepunchTail
  extract_lets addresses p remote p token p
  split
  · exact ⟨rfl, rfl, rfl⟩
  · split
    · exact ⟨rfl, rfl, rfl⟩
    · split
      · exact ⟨rfl, rfl, rfl⟩
      · split <;> exact ⟨rfl, rfl, rfl⟩

/-- **What is decoded**: the error and the firewall that are on the wire and, if the firewall is in range,
the rest. -/
theorem decodeHolepunchPayload_spec (data : List UInt8) :
    (decodeHolepunchPayload data).error = (payloadFields data).error ∧
      (decodeHolepunchPayload data).firewall = (payloadFields data).firewall.toUInt32 ∧
      ((payloadFields data).firewall.toUInt32 ≤ 3 →
        (decodeHolepunchPayload data).round = (payloadFields data).round ∧
          (decodeHolepunchPayload data).addresses = (payloadFields data).addresses ∧
          (decodeHolepunchPayload data).token = (payloadFields data).token ∧
          (decodeHolepunchPayload data).remoteToken = (payloadFields data).remoteToken) := by
  unfold decodeHolepunchPayload payloadFields
  dsimp only
  generalize uint32Decode (.forDecode data) = flags
  cases hflags : flags.2.error with
  | true =>
    simp only [if_true, uint32Decode_failed hflags, uintDecode_failed hflags, announced_failed hflags]
    refine ⟨?_, ?_, fun _ => ⟨?_, ?_, ?_, ?_⟩⟩ <;> trivial
  | false =>
    simp only [Bool.false_eq_true, if_false]
    generalize uint32Decode flags.2 = error
    cases herror : error.2.error with
    | true =>
      simp only [if_true, uint32Decode_failed herror, uintDecode_failed herror, announced_failed herror]
      refine ⟨?_, ?_, fun _ => ⟨?_, ?_, ?_, ?_⟩⟩ <;> trivial
    | false =>
      simp only [Bool.false_eq_true, if_false]
      have hlow : uint32Decode error.2 = ((uintDecode error.2).1.toUInt32, (uintDecode error.2).2) := rfl
      rw [hlow]
      generalize uintDecode error.2 = firewall
      dsimp only
      cases hfirewall : firewall.2.error with
      | true =>
        simp only [Bool.true_or, if_true, uint32Decode_failed hfirewall, announced_failed hfirewall]
        refine ⟨?_, ?_, fun _ => ⟨?_, ?_, ?_, ?_⟩⟩ <;> trivial
      | false =>
        simp only [Bool.false_or, decide_eq_true_eq]
        split
        next hfar => exact ⟨rfl, rfl, fun hnear => absurd hfar (UInt32.not_lt.2 hnear)⟩
        next hnear =>
          generalize uint32Decode firewall.2 = round
          cases hround : round.2.error with
          | true =>
            simp only [if_true, announced_failed hround]
            refine ⟨?_, ?_, fun _ => ⟨?_, ?_, ?_, ?_⟩⟩ <;> trivial
          | false =>
            obtain ⟨hkeepError, hkeepFirewall, hkeepRound⟩ := decodeHolepunchTail_kept flags.1 {
              connected := flags.1 &&& 1 != 0, punching := flags.1 &&& 2 != 0, error := error.1,
              firewall := firewall.1.toUInt32, round := round.1 } round.2
            obtain ⟨haddresses, htoken, hremoteToken⟩ := decodeHolepunchTail_spec flags.1 {
              connected := flags.1 &&& 1 != 0, punching := flags.1 &&& 2 != 0, error := error.1,
              firewall := firewall.1.toUInt32, round := round.1 } round.2 rfl rfl rfl
            exact ⟨hkeepError, hkeepFirewall, fun _ => ⟨hkeepRound, haddresses, htoken, hremoteToken⟩⟩

/-! ## What a server takes from a payload -/

/-- The message of a session is decrypted to the bytes. -/
def Decrypts (conn : Session) (value : List UInt8) (secure : SecurePayload) (data : List UInt8) : Prop :=
  conn.secure = some secure ∧ (decodeHolepunchMsg value).payload ≠ [] ∧
    secure.decrypt (decodeHolepunchMsg value).payload = some data

/-- **Nothing is taken from a message**: it is dropped, or answered as an abort or a payload that says
nothing. -/
def AdoptsNothing (secure : SecurePayload) (conn : Session) (known : Known)
    (handled : Session × HolepunchReply) : Prop :=
  handled.1 = conn ∧ (handled.2 = {} ∨ handled.2 = abortReply secure known conn.round ∨
    handled.2 = answerReply secure known conn.round {})

/-- **Payloads are validated on decode**: the firewall is in range, and nothing is taken from a payload
that is cut off or out of range. -/
def Validated (conn : Session) (value : List UInt8) (known : Known) (secure : SecurePayload)
    (data : List UInt8) : Prop :=
  (decodeHolepunchPayload data).firewall ≤ 3 ∧ (Decrypts conn value secure data → ¬ WholePayload data →
    AdoptsNothing secure conn known (handleHolepunch conn value known))

/-- The payload says nothing: its round is not ahead and, unless it is an abort, it has no firewall,
addresses or token, and does not have the token of the server. -/
structure SaysNothing (secure : SecurePayload) (conn : Session) (known : Known) (data : List UInt8) :
    Prop where
  round : (payloadFields data).round ≤ conn.round
  fields : (payloadFields data).error = 0 → (payloadFields data).firewall.toUInt32 = 0 ∧
    (payloadFields data).addresses = [] ∧ (payloadFields data).token = none ∧
    (known.isServerRelay = true →
      (payloadFields data).remoteToken ≠ some (secure.token known.clientAddress.hostString))

lemma flags_of_responseMsg_eq {clientAddress : Ipv4Address} {p q : HolepunchPayload}
    (h : encodeHolepunchMsg (responseMsg secure clientAddress p) =
      encodeHolepunchMsg (responseMsg secure clientAddress q)) :
    p.flags = q.flags ∧ p.error = q.error := by
  have hnil : ∀ data, secure.encrypt data ≠ [] := by
    intro data hnil
    have hlength := secure.length_encrypt data
    rw [hnil, List.length_nil] at hlength
    omega
  have hbuffer : bufferEncode (secure.encrypt (encodeHolepunchPayload p)) =
      bufferEncode (secure.encrypt (encodeHolepunchPayload q)) :=
    List.append_cancel_left (List.append_cancel_right h)
  have hplain := congrArg secure.decrypt (bufferEncode_injective (hnil _) (hnil _) hbuffer)
  rw [secure.decrypt_encrypt, secure.decrypt_encrypt, Option.some.injEq] at hplain
  simp only [encodeHolepunchPayload, List.append_assoc] at hplain
  have hflags := congrArg (fun bytes => uint32Decode ⟨bytes, false⟩) hplain
  simp only [uint32Decode_uintEncode, Prod.mk.injEq, State.mk.injEq, and_true] at hflags
  have herror := congrArg (fun bytes => uint32Decode ⟨bytes, false⟩) hflags.2
  simp only [uint32Decode_uintEncode, Prod.mk.injEq] at herror
  exact ⟨hflags.1, herror.1⟩

lemma nextRound_eq_iff : { conn with round := conn.nextRound client } = conn ↔ client.round ≤ conn.round := by
  have hround : { conn with round := conn.nextRound client } = conn ↔ conn.nextRound client = conn.round := by
    constructor
    · exact fun heq => congrArg Session.round heq
    · intro heq
      rw [heq]
  rw [hround]
  unfold Session.nextRound
  split
  next hahead => exact ⟨fun heq => heq ▸ UInt32.le_refl _, fun hle => UInt32.le_antisymm hle hahead⟩
  next hbehind => exact iff_of_true rfl (UInt32.le_of_lt (UInt32.not_le.1 hbehind))

/-- **An answer says nothing of the payload** exactly if the payload says nothing. -/
lemma answerReply_iff (secure : SecurePayload) (known : Known) (round : UInt32) (client : HolepunchPayload) :
    (answerReply secure known round client = {} ∨
        answerReply secure known round client = abortReply secure known round ∨
        answerReply secure known round client = answerReply secure known round {}) ↔
      client.firewall = 0 ∧ client.addresses = [] ∧ client.token = none ∧ (known.isServerRelay = true →
        client.remoteToken ≠ some (secure.token known.clientAddress.hostString)) := by
  constructor
  · rintro (hdropped | habort | hanswer)
    · have hvalue := congrArg (fun reply => reply.value.isEmpty) hdropped
      simp [answerReply, isEmpty_encodeHolepunchMsg] at hvalue
    · have herror := (flags_of_responseMsg_eq (congrArg HolepunchReply.value habort)).2
      unfold responsePayload abortedPayload at herror
      dsimp only at herror
      split at herror <;> cases herror
    · have hflags := (flags_of_responseMsg_eq (congrArg HolepunchReply.value hanswer)).1
      have hverified := congrArg HolepunchReply.addressVerified hanswer
      refine ⟨congrArg HolepunchReply.remoteFirewall hanswer, congrArg HolepunchReply.remoteAddresses hanswer,
        ?_, fun hrelay htoken => ?_⟩
      · have htoken := (responsePayload secure known round client).flags_spec.2.2.2.2.2
        have hnone := (responsePayload secure known round {}).flags_spec.2.2.2.2.2
        rw [hflags, hnone] at htoken
        simpa [responsePayload] using htoken
      · simp [answerReply, hrelay, htoken] at hverified
  · rintro ⟨hfirewall, haddresses, htoken, hremoteToken⟩
    refine .inr (.inr ?_)
    have hverified : (known.isServerRelay &&
        client.remoteToken == some (secure.token known.clientAddress.hostString)) = false := by
      cases hrelay : known.isServerRelay with
      | false => rfl
      | true => simpa using hremoteToken hrelay
    simp [answerReply, responsePayload, triesLater, wantsPunch, hfirewall, haddresses, htoken, hverified]

/-- **Nothing is taken from a payload** exactly if it says nothing, as long as its firewall is in range. -/
theorem adoptsNothing_iff (hdecrypts : Decrypts conn value secure data)
    (hnear : (payloadFields data).firewall.toUInt32 ≤ 3) :
    AdoptsNothing secure conn known (handleHolepunch conn value known) ↔
      SaysNothing secure conn known data := by
  obtain ⟨hsecure, hpayload, hdecrypt⟩ := hdecrypts
  obtain ⟨herror, hfirewall, hrest⟩ := decodeHolepunchPayload_spec data
  obtain ⟨hround, haddresses, htoken, hremoteToken⟩ := hrest hnear
  have hread : conn.read value = some (secure, decodeHolepunchPayload data) := by
    unfold Session.read
    rw [hsecure, Option.bind_some, if_neg (by simpa using hpayload), hdecrypt, Option.map_some]
  obtain ⟨hnone, -⟩ | ⟨secure', client, hread', hconn, hreply⟩ := handleHolepunch_cases conn value known
  · rw [hread] at hnone
    cases hnone
  · rw [hread] at hread'
    obtain ⟨rfl, rfl⟩ := Prod.mk.inj (Option.some.inj hread')
    have hsame (hle : (payloadFields data).round ≤ conn.round) :
        conn.nextRound (decodeHolepunchPayload data) = conn.round :=
      congrArg Session.round (nextRound_eq_iff.2 (hround ▸ hle))
    have hanswer := answerReply_iff secure known conn.round (decodeHolepunchPayload data)
    rw [hfirewall, haddresses, htoken, hremoteToken] at hanswer
    unfold AdoptsNothing
    rw [hconn, nextRound_eq_iff, hround]
    constructor
    · rintro ⟨hle, hsilent⟩
      refine ⟨hle, fun hzero => hanswer.1 ?_⟩
      obtain ⟨habort, -⟩ | ⟨-, hreply⟩ := hreply
      · exact absurd (herror.trans hzero) habort
      · rwa [hreply, hsame hle] at hsilent
    · rintro ⟨hle, hfields⟩
      refine ⟨hle, ?_⟩
      obtain ⟨-, hreply⟩ | ⟨hzero, hreply⟩ := hreply
      · rw [hreply, hsame hle]
        exact .inr (.inl rfl)
      · rw [hreply, hsame hle]
        exact hanswer.2 (hfields (herror.symm.trans hzero))

/-- **Payloads are validated on decode** exactly if the low bits of their firewall are in range, and those
that are cut off or out of range say nothing. -/
theorem validated_iff (conn : Session) (value : List UInt8) (known : Known) (secure : SecurePayload)
    (data : List UInt8) :
    Validated conn value known secure data ↔ (payloadFields data).firewall.toUInt32 ≤ 3 ∧
      (Decrypts conn value secure data → ¬ WholePayload data → SaysNothing secure conn known data) := by
  unfold Validated
  rw [(decodeHolepunchPayload_spec data).2.1]
  refine and_congr_right fun hnear => ?_
  exact forall_congr' fun hdecrypts => imp_congr_right fun _ => adoptsNothing_iff hdecrypts hnear

def farFirewall : List UInt8 := [0, 0, 7, 0]

/-- The firewall is returned by the decoder, and taken by the server. -/
theorem not_validated_farFirewall :
    (handleHolepunch { secure := some plainSecure }
        (encodeHolepunchMsg { payload := plainSecure.encrypt farFirewall })
        throttledKnown).2.remoteFirewall = 7 ∧
      ¬ Validated { secure := some plainSecure }
        (encodeHolepunchMsg { payload := plainSecure.encrypt farFirewall }) throttledKnown plainSecure
          farFirewall := by
  refine ⟨by decide +kernel, fun hvalid => ?_⟩
  have hrange := hvalid.1
  revert hrange
  decide

end HyperDHT.Holepunch
