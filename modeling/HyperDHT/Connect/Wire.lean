import HyperDHT.Compact.Writer
import HyperDHT.Holepunch.Messages

/-!
# The two passes over the messages of a connection

The encoders of `peer_connect.cpp` and `holepunch.cpp` as they are written, with a pass for the size
of the buffer and a pass that writes, and the message around a handshake with its decoder.

## Main definitions

* `HandshakeMessage`, `decodeHandshakeMsg` — the message around a handshake.
* `noisePayloadWriter`, `handshakeMsgWriter`, `holepunchPayloadWriter`, `holepunchMsgWriter` — the
  cursor after the two passes.
* `ConnectMessage.Fits` — what a decoder takes.
* `ConnectMessage.ReadBack` — the decoder of the message undoes its encoder.

## Main results

* `connectMessage_readBack` — messages that fit fill their buffer exactly and are read back.
* `not_readBack_manyAddresses` — a holepunch with too many addresses is written, but not read back.
-/

set_option autoImplicit false

namespace HyperDHT

open Compact

/-! ## The message around a handshake -/

/-- A message of a handshake: its mode, the bytes of the handshake, and the addresses that the relays
add. -/
structure HandshakeMessage where
  mode : UInt32 := modeFromClient
  noise : List UInt8 := []
  peerAddress : Option Ipv4Address := none
  relayAddress : Option Ipv4Address := none
  deriving DecidableEq

/-- The flags of a handshake message. -/
def HandshakeMessage.flags (m : HandshakeMessage) : UInt8 :=
  (if m.peerAddress.isSome then 1 else 0) ||| (if m.relayAddress.isSome then 2 else 0)

/-- The cursor after the two passes over a handshake message. -/
def handshakeMsgWriter (m : HandshakeMessage) : Writer :=
  encoded
    [uintPreencode m.flags.toUInt64,
      uintPreencode m.mode.toUInt64,
      bufferPreencode m.noise,
      optionally ipv4Preencode m.peerAddress,
      optionally ipv4Preencode m.relayAddress]
    [uintWrite m.flags.toUInt64,
      uintWrite m.mode.toUInt64,
      bufferWrite m.noise,
      optionally ipv4Write m.peerAddress,
      optionally ipv4Write m.relayAddress]

/-- The flags are cut to a byte and the mode to 32 bits. -/
def decodeHandshakeMsg (data : List UInt8) : HandshakeMessage :=
  let flags := uintDecode (.forDecode data)
  if flags.2.error then {}
  else
    let mode := uint32Decode flags.2
    let m : HandshakeMessage := { mode := mode.1 }
    if mode.2.error then m
    else
      let noise := bufferDecode mode.2
      if noise.2.error then m
      else
        let peer := if flags.1.toUInt8 &&& 1 = 0 then (m.peerAddress, noise.2)
          else (some (ipv4Decode noise.2).1, (ipv4Decode noise.2).2)
        let m := { m with noise := noise.1, peerAddress := peer.1 }
        if peer.2.error then m
        else if flags.1.toUInt8 &&& 2 = 0 then m
        else { m with relayAddress := some (ipv4Decode peer.2).1 }

/-! ## The passes over the other messages -/

def holepunchPreencode (hp : HolepunchInfo) (size : ℕ) : ℕ :=
  arrayPreencode (fun r size => ipv4Preencode r.peerAddress (ipv4Preencode r.relayAddress size))
    hp.relays (uintPreencode hp.id.toUInt64 size)

def holepunchWrite (hp : HolepunchInfo) (w : Writer) : Writer :=
  arrayWrite (fun r w => ipv4Write r.peerAddress (ipv4Write r.relayAddress w))
    hp.relays (uintWrite hp.id.toUInt64 w)

def udxPreencode (udx : UdxInfo) (size : ℕ) : ℕ :=
  uintPreencode udx.seq.toUInt64 <| uintPreencode udx.id.toUInt64 <|
    uintPreencode (if udx.reusableSocket then 1 else 0) <| uintPreencode udx.version.toUInt64 size

def udxWrite (udx : UdxInfo) (w : Writer) : Writer :=
  uintWrite udx.seq.toUInt64 <| uintWrite udx.id.toUInt64 <|
    uintWrite (if udx.reusableSocket then 1 else 0) <| uintWrite udx.version.toUInt64 w

def relayThroughPreencode (rt : RelayThroughInfo) (size : ℕ) : ℕ :=
  fixedPreencode rt.token <| fixedPreencode rt.publicKey <| uintPreencode 0 <|
    uintPreencode rt.version.toUInt64 size

def relayThroughWrite (rt : RelayThroughInfo) (w : Writer) : Writer :=
  fixedWrite rt.token <| fixedWrite rt.publicKey <| uintWrite 0 <|
    uintWrite rt.version.toUInt64 w

/-- The cursor after the two passes over the payload of a handshake. -/
def noisePayloadWriter (p : NoisePayload) : Writer :=
  encoded
    [uintPreencode p.version.toUInt64,
      uintPreencode (payloadFlags p).toUInt64,
      uintPreencode p.error.toUInt64,
      uintPreencode p.firewall.toUInt64,
      optionally holepunchPreencode p.holepunch,
      unlessEmpty (arrayPreencode ipv4Preencode) p.addresses4,
      unlessEmpty (arrayPreencode ipv6Preencode) p.addresses6,
      optionally udxPreencode p.udx,
      onlyIf p.hasSecretStream (uintPreencode 1),
      optionally relayThroughPreencode p.relayThrough,
      unlessEmpty (arrayPreencode ipv4Preencode) p.relayAddresses]
    [uintWrite p.version.toUInt64,
      uintWrite (payloadFlags p).toUInt64,
      uintWrite p.error.toUInt64,
      uintWrite p.firewall.toUInt64,
      optionally holepunchWrite p.holepunch,
      unlessEmpty (arrayWrite ipv4Write) p.addresses4,
      unlessEmpty (arrayWrite ipv6Write) p.addresses6,
      optionally udxWrite p.udx,
      onlyIf p.hasSecretStream (uintWrite 1),
      optionally relayThroughWrite p.relayThrough,
      unlessEmpty (arrayWrite ipv4Write) p.relayAddresses]

/-- The cursor after the two passes over the payload of a holepunch. -/
def holepunchPayloadWriter (p : HolepunchPayload) : Writer :=
  encoded
    [uintPreencode p.flags.toUInt64,
      uintPreencode p.error.toUInt64,
      uintPreencode p.firewall.toUInt64,
      uintPreencode p.round.toUInt64,
      unlessEmpty (arrayPreencode ipv4Preencode) p.addresses,
      optionally ipv4Preencode p.remoteAddress,
      optionally fixedPreencode p.token,
      optionally fixedPreencode p.remoteToken]
    [uintWrite p.flags.toUInt64,
      uintWrite p.error.toUInt64,
      uintWrite p.firewall.toUInt64,
      uintWrite p.round.toUInt64,
      unlessEmpty (arrayWrite ipv4Write) p.addresses,
      optionally ipv4Write p.remoteAddress,
      optionally fixedWrite p.token,
      optionally fixedWrite p.remoteToken]

/-- The cursor after the two passes over the message of a holepunch. -/
def holepunchMsgWriter (m : HolepunchMessage) : Writer :=
  encoded
    [uintPreencode (if m.peerAddress.isSome then 1 else 0),
      uintPreencode m.mode.toUInt64,
      uintPreencode m.id.toUInt64,
      bufferPreencode m.payload,
      optionally ipv4Preencode m.peerAddress]
    [uintWrite (if m.peerAddress.isSome then 1 else 0),
      uintWrite m.mode.toUInt64,
      uintWrite m.id.toUInt64,
      bufferWrite m.payload,
      optionally ipv4Write m.peerAddress]

/-! ## What the passes leave in the buffer -/

lemma fills_relayInfo (r : RelayInfo) : Fills
    (fun size => ipv4Preencode r.peerAddress (ipv4Preencode r.relayAddress size))
    (fun w => ipv4Write r.peerAddress (ipv4Write r.relayAddress w)) (relayInfoEncode r) :=
  (fills_ipv4 r.relayAddress).comp (fills_ipv4 r.peerAddress)

lemma fills_holepunch (hp : HolepunchInfo) :
    Fills (holepunchPreencode hp) (holepunchWrite hp) (holepunchEncode hp) :=
  (fills_uint hp.id.toUInt64).comp (fills_array fills_relayInfo hp.relays)

lemma fills_udx (udx : UdxInfo) : Fills (udxPreencode udx) (udxWrite udx) (udxEncode udx) :=
  (((fills_uint udx.version.toUInt64).comp (fills_uint (if udx.reusableSocket then 1 else 0))).comp
    (fills_uint udx.id.toUInt64)).comp (fills_uint udx.seq.toUInt64)

lemma fills_relayThrough (rt : RelayThroughInfo) :
    Fills (relayThroughPreencode rt) (relayThroughWrite rt) (relayThroughEncode rt) :=
  (((fills_uint rt.version.toUInt64).comp (fills_uint 0)).comp (fills_fixed rt.publicKey)).comp
    (fills_fixed rt.token)

lemma fills_addresses4 (addresses : List Ipv4Address) :
    Fills (unlessEmpty (arrayPreencode ipv4Preencode) addresses)
      (unlessEmpty (arrayWrite ipv4Write) addresses) (optionalArrayEncode ipv4Encode addresses) :=
  fills_unlessEmpty (fun _ => fills_array fills_ipv4 _) addresses

@[inherit_doc fills_addresses4]
lemma fills_addresses6 (addresses : List Ipv6Address) :
    Fills (unlessEmpty (arrayPreencode ipv6Preencode) addresses)
      (unlessEmpty (arrayWrite ipv6Write) addresses) (optionalArrayEncode ipv6Encode addresses) :=
  fills_unlessEmpty (fun _ => fills_array fills_ipv6 _) addresses

lemma noisePayloadWriter_eq (p : NoisePayload) :
    noisePayloadWriter p =
      { written := encodeNoisePayload p, size := (encodeNoisePayload p).length } := by
  have hall := AllFill.cons (fills_uint p.version.toUInt64) <|
    .cons (fills_uint (payloadFlags p).toUInt64) <| .cons (fills_uint p.error.toUInt64) <|
    .cons (fills_uint p.firewall.toUInt64) <| .cons (fills_optionally fills_holepunch p.holepunch) <|
    .cons (fills_addresses4 p.addresses4) <| .cons (fills_addresses6 p.addresses6) <|
    .cons (fills_optionally fills_udx p.udx) <|
    .cons (fills_onlyIf (fills_uint 1) p.hasSecretStream) <|
    .cons (fills_optionally fills_relayThrough p.relayThrough) <|
    .cons (fills_addresses4 p.relayAddresses) .nil
  refine hall.encoded_eq.trans ?_
  simp only [encodeNoisePayload, List.append_assoc, List.append_nil]

lemma holepunchPayloadWriter_eq (p : HolepunchPayload) :
    holepunchPayloadWriter p =
      { written := encodeHolepunchPayload p, size := (encodeHolepunchPayload p).length } := by
  have hall := AllFill.cons (fills_uint p.flags.toUInt64) <|
    .cons (fills_uint p.error.toUInt64) <| .cons (fills_uint p.firewall.toUInt64) <|
    .cons (fills_uint p.round.toUInt64) <| .cons (fills_addresses4 p.addresses) <|
    .cons (fills_optionally fills_ipv4 p.remoteAddress) <|
    .cons (fills_optionally fills_fixed p.token) <|
    .cons (fills_optionally fills_fixed p.remoteToken) .nil
  refine hall.encoded_eq.trans ?_
  simp only [encodeHolepunchPayload, List.append_assoc, List.append_nil]

lemma holepunchMsgWriter_eq (m : HolepunchMessage) :
    holepunchMsgWriter m =
      { written := encodeHolepunchMsg m, size := (encodeHolepunchMsg m).length } := by
  have hall := AllFill.cons (fills_uint (if m.peerAddress.isSome then 1 else 0)) <|
    .cons (fills_uint m.mode.toUInt64) <| .cons (fills_uint m.id.toUInt64) <|
    .cons (fills_buffer m.payload) <| .cons (fills_optionally fills_ipv4 m.peerAddress) .nil
  refine hall.encoded_eq.trans ?_
  simp only [encodeHolepunchMsg, List.append_assoc, List.append_nil]

/-- The encoding of a handshake message. -/
def encodeHandshakeMsg (m : HandshakeMessage) : List UInt8 :=
  uintEncode m.flags.toUInt64 ++ uintEncode m.mode.toUInt64 ++ bufferEncode m.noise ++
    (m.peerAddress.map ipv4Encode).getD [] ++ (m.relayAddress.map ipv4Encode).getD []

lemma handshakeMsgWriter_eq (m : HandshakeMessage) :
    handshakeMsgWriter m =
      { written := encodeHandshakeMsg m, size := (encodeHandshakeMsg m).length } := by
  have hall := AllFill.cons (fills_uint m.flags.toUInt64) <|
    .cons (fills_uint m.mode.toUInt64) <| .cons (fills_buffer m.noise) <|
    .cons (fills_optionally fills_ipv4 m.peerAddress) <|
    .cons (fills_optionally fills_ipv4 m.relayAddress) .nil
  refine hall.encoded_eq.trans ?_
  simp only [encodeHandshakeMsg, List.append_assoc, List.append_nil]

/-! ## Messages are read back -/

lemma HandshakeMessage.flags_spec (m : HandshakeMessage) :
    (m.flags &&& 1 = 0 ↔ m.peerAddress.isSome = false) ∧
      (m.flags &&& 2 = 0 ↔ m.relayAddress.isSome = false) := by
  unfold HandshakeMessage.flags
  generalize m.peerAddress.isSome = a
  generalize m.relayAddress.isSome = b
  revert a b
  decide

/-- A handshake message is read back from its encoding, if its bytes are not too many. -/
theorem decodeHandshakeMsg_encodeHandshakeMsg {m : HandshakeMessage}
    (hnoise : m.noise.length ≤ maxBufferDecode) :
    decodeHandshakeMsg (encodeHandshakeMsg m) = m := by
  obtain ⟨h1, h2⟩ := m.flags_spec
  have hpeer : ∀ rest, (if m.flags &&& 1 = 0 then ((none : Option Ipv4Address),
      (⟨(m.peerAddress.map ipv4Encode).getD [] ++ rest, false⟩ : State))
      else (some (ipv4Decode ⟨(m.peerAddress.map ipv4Encode).getD [] ++ rest, false⟩).1,
        (ipv4Decode ⟨(m.peerAddress.map ipv4Encode).getD [] ++ rest, false⟩).2)) =
        (m.peerAddress, ⟨rest, false⟩) := by
    intro rest
    cases hnone : m.peerAddress with
    | none => simp [h1.2 (by simp [hnone])]
    | some addr =>
      have hset : ¬ m.flags &&& 1 = 0 := by simp [h1, hnone]
      simp [hset, ipv4Decode_ipv4Encode]
  simp only [decodeHandshakeMsg, encodeHandshakeMsg, State.forDecode, List.append_assoc,
    uintDecode_uintEncode, uint32Decode_uintEncode, bufferDecode_bufferEncode hnoise,
    UInt8.toUInt8_toUInt64, hpeer, Bool.false_eq_true, if_false]
  cases hnone : m.relayAddress with
  | none => rw [if_pos (h2.2 (by simp [hnone])), ← hnone]
  | some addr =>
    have hset : ¬ m.flags &&& 2 = 0 := by simp [h2, hnone]
    have hread := ipv4Decode_ipv4Encode addr []
    rw [List.append_nil] at hread
    simp only [hset, if_false, Option.map_some, Option.getD_some, hread]
    rw [← hnone]

/-- A message of the connection layer, of any kind. -/
inductive ConnectMessage where
  | noisePayload (p : NoisePayload)
  | handshake (m : HandshakeMessage)
  | holepunchPayload (p : HolepunchPayload)
  | holepunch (m : HolepunchMessage)
  deriving DecidableEq

namespace ConnectMessage

/-- The cursor after the two passes over a message. -/
def writer : ConnectMessage → Writer
  | .noisePayload p => noisePayloadWriter p
  | .handshake m => handshakeMsgWriter m
  | .holepunchPayload p => holepunchPayloadWriter p
  | .holepunch m => holepunchMsgWriter m

/-- What the decoder of a message takes. -/
def Fits : ConnectMessage → Prop
  | .noisePayload p => p.Fits
  | .handshake m => m.noise.length ≤ maxBufferDecode
  | .holepunchPayload p => p.firewall ≤ 3 ∧ p.addresses.length ≤ arrayMaxLength
  | .holepunch m => m.mode ≤ 0xFF ∧ m.payload.length ≤ maxBufferDecode

/-- The decoder of the message returns it from the buffer that its encoder fills. -/
def ReadBack (message : ConnectMessage) : Prop :=
  match message with
  | .noisePayload p => decodeNoisePayload message.writer.buffer = p
  | .handshake m => decodeHandshakeMsg message.writer.buffer = m
  | .holepunchPayload p => decodeHolepunchPayload message.writer.buffer = p
  | .holepunch m => decodeHolepunchMsg message.writer.buffer = m

lemma full_writer (message : ConnectMessage) : message.writer.Full := by
  cases message with
  | noisePayload p =>
    rw [writer, noisePayloadWriter_eq]
    exact ⟨rfl, rfl⟩
  | handshake m =>
    rw [writer, handshakeMsgWriter_eq]
    exact ⟨rfl, rfl⟩
  | holepunchPayload p =>
    rw [writer, holepunchPayloadWriter_eq]
    exact ⟨rfl, rfl⟩
  | holepunch m =>
    rw [writer, holepunchMsgWriter_eq]
    exact ⟨rfl, rfl⟩

end ConnectMessage

/-- **Round trip of the connection layer**: the encoder of a message that fits meets no error and
fills its buffer exactly, and the decoder returns the message. -/
theorem connectMessage_readBack (message : ConnectMessage) (h : message.Fits) :
    message.writer.Full ∧ message.ReadBack := by
  have hfull := message.full_writer
  refine ⟨hfull, ?_⟩
  cases message with
  | noisePayload p =>
    simp only [ConnectMessage.ReadBack, hfull.buffer_eq]
    rw [ConnectMessage.writer, noisePayloadWriter_eq]
    exact decodeNoisePayload_encodeNoisePayload h
  | handshake m =>
    simp only [ConnectMessage.ReadBack, hfull.buffer_eq]
    rw [ConnectMessage.writer, handshakeMsgWriter_eq]
    exact decodeHandshakeMsg_encodeHandshakeMsg h
  | holepunchPayload p =>
    simp only [ConnectMessage.ReadBack, hfull.buffer_eq]
    rw [ConnectMessage.writer, holepunchPayloadWriter_eq]
    exact decodeHolepunchPayload_encodeHolepunchPayload h.1 h.2
  | holepunch m =>
    simp only [ConnectMessage.ReadBack, hfull.buffer_eq]
    rw [ConnectMessage.writer, holepunchMsgWriter_eq]
    exact decodeHolepunchMsg_encodeHolepunchMsg h.1 h.2

def everyField : NoisePayload :=
  { error := 0xFFFFFFFF, firewall := 300,
    holepunch := some { id := 70000, relays := [⟨Ipv4Address.zero, Ipv4Address.zero⟩] },
    addresses4 := [Ipv4Address.zero], addresses6 := [Ipv6Address.zero],
    udx := some { reusableSocket := true }, hasSecretStream := true,
    relayThrough := some
      { publicKey := List.Vector.replicate 32 1, token := List.Vector.replicate 32 2 },
    relayAddresses := [Ipv4Address.zero] }

theorem connectMessage_readBack_everyField :
    (ConnectMessage.noisePayload everyField).Fits ∧
      (ConnectMessage.noisePayload everyField).writer.Full ∧
      (ConnectMessage.noisePayload everyField).ReadBack :=
  have hfits : (ConnectMessage.noisePayload everyField).Fits := by
    refine ⟨rfl, ?_, by decide, by decide, by decide⟩
    rintro hp ⟨⟩
    decide
  ⟨hfits, connectMessage_readBack (.noisePayload everyField) hfits⟩

lemma addresses_decodeHolepunchPayload_of_long {p : HolepunchPayload} (hfirewall : p.firewall ≤ 3)
    (hlong : arrayMaxLength < p.addresses.length) (hsize : p.addresses.length < 2 ^ 64) :
    (decodeHolepunchPayload (encodeHolepunchPayload p)).addresses = [] := by
  obtain ⟨-, -, h4, -⟩ := p.flags_spec
  have hrange : ¬ p.firewall > 3 := UInt32.not_lt.2 hfirewall
  have hnil : p.addresses.isEmpty = false := by
    cases haddresses : p.addresses with
    | nil => simp [haddresses] at hlong
    | cons a as => rfl
  have hset : ¬ p.flags &&& 4 = 0 := by simp [h4, hnil]
  have hcount : (UInt64.ofNat p.addresses.length).toNat = p.addresses.length := by
    rw [UInt64.toNat_ofNat']
    exact Nat.mod_eq_of_lt hsize
  have hstop : ∀ rest, arrayDecode ipv4Decode
      ⟨optionalArrayEncode ipv4Encode p.addresses ++ rest, false⟩ =
        ([], ⟨p.addresses.flatMap ipv4Encode ++ rest, true⟩) := by
    intro rest
    simp [optionalArrayEncode, hnil, arrayDecode, arrayEncode, List.append_assoc,
      uintDecode_uintEncode, hcount, hlong, State.fail]
  simp only [decodeHolepunchPayload, encodeHolepunchPayload, State.forDecode, List.append_assoc,
    uint32Decode_uintEncode, Bool.false_eq_true, if_false, Bool.false_or, decide_eq_true_eq, hrange,
    decodeHolepunchTail, hset, hstop, if_true]

def manyAddresses : HolepunchPayload :=
  { addresses := List.replicate (arrayMaxLength + 1) Ipv4Address.zero }

/-- A payload with a good firewall and too many addresses is not read back. -/
theorem not_readBack_manyAddresses :
    manyAddresses.firewall ≤ 3 ∧ ¬ (ConnectMessage.holepunchPayload manyAddresses).ReadBack := by
  refine ⟨by decide, fun h => ?_⟩
  have hlength : manyAddresses.addresses.length = arrayMaxLength + 1 := List.length_replicate
  have hread : decodeHolepunchPayload (encodeHolepunchPayload manyAddresses) = manyAddresses := by
    have := h
    simp only [ConnectMessage.ReadBack,
      (ConnectMessage.full_writer (.holepunchPayload manyAddresses)).buffer_eq] at this
    rwa [ConnectMessage.writer, holepunchPayloadWriter_eq] at this
  have hnil := addresses_decodeHolepunchPayload_of_long (p := manyAddresses) (by decide)
    (by rw [hlength]; exact Nat.lt_succ_self _) (by rw [hlength]; decide)
  rw [hread] at hnil
  rw [hnil] at hlength
  cases hlength

end HyperDHT
