import HyperDHT.Connect.Payload

/-!
# The messages of a holepunch

The two layers of a message of a holepunch (`holepunch.cpp`): the payload, which the sides encrypt for
each other, and the message around it, which the relay reads.

## Main definitions

* `HolepunchPayload`, `encodeHolepunchPayload`, `decodeHolepunchPayload` — the payload.
* `HolepunchMessage`, `encodeHolepunchMsg`, `decodeHolepunchMsg` — the message around it.
* `SecurePayload` — what encrypts the payloads of a session, and makes its tokens.

## Main results

* `decodeHolepunchPayload_encodeHolepunchPayload`, `decodeHolepunchMsg_encodeHolepunchMsg` — a payload
  and a message that are not too long are read back.

## Design

A decoder returns what it has read when it meets an error. The firewall of a payload is stored before its
range is checked, so that a payload with a firewall that is out of range keeps it, and reads like one
that ends there.
-/

set_option autoImplicit false

namespace HyperDHT

open Compact

def errorTryLater : UInt32 := 3

def modeFromClient : UInt32 := 0
def modeFromServer : UInt32 := 1
def modeFromRelay : UInt32 := 2
def modeFromSecondRelay : UInt32 := 3
def modeReply : UInt32 := 4

/-! ## The payload -/

/-- What the sides of a holepunch tell each other. -/
structure HolepunchPayload where
  connected : Bool := false
  punching : Bool := false
  error : UInt32 := 0
  firewall : UInt32 := 0
  round : UInt32 := 0
  addresses : List Ipv4Address := []
  remoteAddress : Option Ipv4Address := none
  token : Option (List.Vector UInt8 32) := none
  remoteToken : Option (List.Vector UInt8 32) := none
  deriving DecidableEq

def HolepunchPayload.flags (p : HolepunchPayload) : UInt32 :=
  (if p.connected then 1 else 0) ||| (if p.punching then 2 else 0) |||
    (if !p.addresses.isEmpty then 4 else 0) ||| (if p.remoteAddress.isSome then 8 else 0) |||
    (if p.token.isSome then 16 else 0) ||| (if p.remoteToken.isSome then 32 else 0)

def encodeHolepunchPayload (p : HolepunchPayload) : List UInt8 :=
  uintEncode p.flags.toUInt64 ++ uintEncode p.error.toUInt64 ++ uintEncode p.firewall.toUInt64 ++
    uintEncode p.round.toUInt64 ++ optionalArrayEncode ipv4Encode p.addresses ++
    (p.remoteAddress.map ipv4Encode).getD [] ++ (p.token.map (·.toList)).getD [] ++
    (p.remoteToken.map (·.toList)).getD []

/-- The optional fields, each read if its flag is set and no error was met before. -/
def decodeHolepunchTail (flags : UInt32) (p : HolepunchPayload) (s : State) : HolepunchPayload :=
  let addresses := if flags &&& 4 = 0 then (p.addresses, s) else arrayDecode ipv4Decode s
  let p := { p with addresses := addresses.1 }
  if addresses.2.error then p
  else
    let remote := if flags &&& 8 = 0 then (p.remoteAddress, addresses.2)
      else ((some (ipv4Decode addresses.2).1), (ipv4Decode addresses.2).2)
    let p := { p with remoteAddress := remote.1 }
    if remote.2.error then p
    else
      let token := if flags &&& 16 = 0 then (p.token, remote.2)
        else (some (fixedDecode 32 remote.2).1, (fixedDecode 32 remote.2).2)
      let p := { p with token := token.1 }
      if token.2.error then p
      else if flags &&& 32 = 0 then p
      else { p with remoteToken := some (fixedDecode 32 token.2).1 }

def decodeHolepunchPayload (data : List UInt8) : HolepunchPayload :=
  let flags := uint32Decode (.forDecode data)
  if flags.2.error then {}
  else
    let error := uint32Decode flags.2
    let p : HolepunchPayload := {
      connected := flags.1 &&& 1 != 0, punching := flags.1 &&& 2 != 0, error := error.1 }
    if error.2.error then p
    else
      let firewall := uint32Decode error.2
      let p := { p with firewall := firewall.1 }
      if firewall.2.error || firewall.1 > 3 then p
      else
        let round := uint32Decode firewall.2
        let p := { p with round := round.1 }
        if round.2.error then p else decodeHolepunchTail flags.1 p round.2

/-! ## The message -/

/-- A message of a holepunch: its mode, the session it belongs to, the encrypted payload and the address
of the client. -/
structure HolepunchMessage where
  mode : UInt32 := 0
  id : UInt32 := 0
  payload : List UInt8 := []
  peerAddress : Option Ipv4Address := none
  deriving DecidableEq

def encodeHolepunchMsg (m : HolepunchMessage) : List UInt8 :=
  uintEncode (if m.peerAddress.isSome then 1 else 0) ++ uintEncode m.mode.toUInt64 ++
    uintEncode m.id.toUInt64 ++ bufferEncode m.payload ++ (m.peerAddress.map ipv4Encode).getD []

def decodeHolepunchMsg (data : List UInt8) : HolepunchMessage :=
  let flags := uintDecode (.forDecode data)
  if flags.2.error || flags.1 > 0xFF then {}
  else
    let mode := uintDecode flags.2
    if mode.2.error || mode.1 > 0xFF then {}
    else
      let m : HolepunchMessage := { mode := mode.1.toUInt32 }
      let id := uintDecode mode.2
      if id.2.error || id.1 > 0xFFFFFFFF then m
      else
        let m := { m with id := id.1.toUInt32 }
        let payload := bufferDecode id.2
        if payload.2.error then m
        else
          let m := { m with payload := payload.1 }
          if flags.1 &&& 1 = 0 then m
          else { m with peerAddress := some (ipv4Decode payload.2).1 }

/-- What encrypts the payloads of a session, with a fresh nonce each time, and makes the tokens by which
a host is verified. -/
structure SecurePayload where
  encrypt : List UInt8 → List UInt8
  decrypt : List UInt8 → Option (List UInt8)
  token : List Char → List.Vector UInt8 32
  /-- A nonce of 24 bytes and a code of 16 are put before the payload. -/
  length_encrypt : ∀ data, (encrypt data).length = data.length + 40
  /-- What is encrypted can be read. -/
  decrypt_encrypt : ∀ data, decrypt (encrypt data) = some data

/-! ## Messages are read back -/

lemma isEmpty_encodeHolepunchMsg (m : HolepunchMessage) : (encodeHolepunchMsg m).isEmpty = false := by
  rw [List.isEmpty_eq_false_iff]
  intro hnil
  cases haddr : m.peerAddress <;> simp [encodeHolepunchMsg, uintEncode, haddr] at hnil

lemma HolepunchPayload.flags_spec (p : HolepunchPayload) :
    ((p.flags &&& 1 != 0) = p.connected) ∧ ((p.flags &&& 2 != 0) = p.punching) ∧
      (p.flags &&& 4 = 0 ↔ p.addresses.isEmpty = true) ∧
      (p.flags &&& 8 = 0 ↔ p.remoteAddress.isSome = false) ∧
      (p.flags &&& 16 = 0 ↔ p.token.isSome = false) ∧
      (p.flags &&& 32 = 0 ↔ p.remoteToken.isSome = false) := by
  unfold HolepunchPayload.flags
  generalize p.connected = a
  generalize p.punching = b
  generalize p.addresses.isEmpty = c
  generalize p.remoteAddress.isSome = d
  generalize p.token.isSome = e
  generalize p.remoteToken.isSome = f
  revert a b c d e f
  decide

lemma decodeHolepunchTail_encode {p : HolepunchPayload}
    (haddresses : p.addresses.length ≤ arrayMaxLength) :
    decodeHolepunchTail p.flags
        { p with addresses := [], remoteAddress := none, token := none, remoteToken := none }
        ⟨optionalArrayEncode ipv4Encode p.addresses ++ ((p.remoteAddress.map ipv4Encode).getD [] ++
          ((p.token.map (·.toList)).getD [] ++ (p.remoteToken.map (·.toList)).getD [])), false⟩ = p := by
  obtain ⟨-, -, h4, h8, h16, h32⟩ := p.flags_spec
  have harray : ∀ rest, (if p.flags &&& 4 = 0 then (([] : List Ipv4Address),
      (⟨optionalArrayEncode ipv4Encode p.addresses ++ rest, false⟩ : State))
      else arrayDecode ipv4Decode ⟨optionalArrayEncode ipv4Encode p.addresses ++ rest, false⟩) =
        (p.addresses, ⟨rest, false⟩) := by
    intro rest
    cases hnil : p.addresses.isEmpty with
    | true => simp [h4.2 hnil, optionalArrayEncode, List.isEmpty_iff.1 hnil]
    | false =>
      have hset : ¬ p.flags &&& 4 = 0 := by simp [h4, hnil]
      rw [if_neg hset, optionalArrayEncode, if_neg (by simp [hnil])]
      exact arrayDecode_arrayEncode ipv4Decode_ipv4Encode haddresses rest
  have hremote : ∀ rest, (if p.flags &&& 8 = 0 then ((none : Option Ipv4Address),
      (⟨(p.remoteAddress.map ipv4Encode).getD [] ++ rest, false⟩ : State))
      else (some (ipv4Decode ⟨(p.remoteAddress.map ipv4Encode).getD [] ++ rest, false⟩).1,
        (ipv4Decode ⟨(p.remoteAddress.map ipv4Encode).getD [] ++ rest, false⟩).2)) =
        (p.remoteAddress, ⟨rest, false⟩) := by
    intro rest
    cases hnone : p.remoteAddress with
    | none => simp [h8.2 (by simp [hnone])]
    | some addr =>
      have hset : ¬ p.flags &&& 8 = 0 := by simp [h8, hnone]
      simp [hset, ipv4Decode_ipv4Encode]
  have htoken : ∀ rest, (if p.flags &&& 16 = 0 then ((none : Option (List.Vector UInt8 32)),
      (⟨(p.token.map (·.toList)).getD [] ++ rest, false⟩ : State))
      else (some (fixedDecode 32 ⟨(p.token.map (·.toList)).getD [] ++ rest, false⟩).1,
        (fixedDecode 32 ⟨(p.token.map (·.toList)).getD [] ++ rest, false⟩).2)) =
        (p.token, ⟨rest, false⟩) := by
    intro rest
    cases hnone : p.token with
    | none => simp [h16.2 (by simp [hnone])]
    | some token =>
      have hset : ¬ p.flags &&& 16 = 0 := by simp [h16, hnone]
      simp [hset, fixedDecode_append]
  unfold decodeHolepunchTail
  simp only [harray, hremote, htoken, Bool.false_eq_true, if_false]
  cases hnone : p.remoteToken with
  | none =>
    rw [if_pos (h32.2 (by simp [hnone])), ← hnone]
  | some token =>
    have hset : ¬ p.flags &&& 32 = 0 := by simp [h32, hnone]
    have hread := congrArg Prod.fst (fixedDecode_append token [])
    rw [List.append_nil] at hread
    simp only [hset, if_false, Option.map_some, Option.getD_some, hread]
    rw [← hnone]

/-- **A payload is read back** from its encoding, if its firewall is in range and it has not too many
addresses. -/
theorem decodeHolepunchPayload_encodeHolepunchPayload {p : HolepunchPayload} (hfirewall : p.firewall ≤ 3)
    (haddresses : p.addresses.length ≤ arrayMaxLength) :
    decodeHolepunchPayload (encodeHolepunchPayload p) = p := by
  obtain ⟨hconnected, hpunching, -⟩ := p.flags_spec
  have hrange : ¬ p.firewall > 3 := UInt32.not_lt.2 hfirewall
  have htail := decodeHolepunchTail_encode haddresses
  simp only [decodeHolepunchPayload, encodeHolepunchPayload, State.forDecode, List.append_assoc,
    uint32Decode_uintEncode, Bool.false_eq_true, if_false, Bool.false_or, decide_eq_true_eq, hrange,
    hconnected, hpunching]
  exact htail

/-- **A message is read back** from its encoding, if its mode is one byte and its payload is not too
long. -/
theorem decodeHolepunchMsg_encodeHolepunchMsg {m : HolepunchMessage} (hmode : m.mode ≤ 0xFF)
    (hpayload : m.payload.length ≤ maxBufferDecode) :
    decodeHolepunchMsg (encodeHolepunchMsg m) = m := by
  have hmode' : ¬ m.mode.toUInt64 > 0xFF := by
    rw [gt_iff_lt, UInt64.not_lt, UInt64.le_iff_toNat_le, UInt32.toNat_toUInt64]
    exact UInt32.le_iff_toNat_le.1 hmode
  have hid : ¬ m.id.toUInt64 > 0xFFFFFFFF := by
    rw [gt_iff_lt, UInt64.not_lt, UInt64.le_iff_toNat_le, UInt32.toNat_toUInt64]
    have hlt := m.id.toNat_lt
    simp only [UInt64.reduceToNat]
    omega
  have hflags : ¬ (if m.peerAddress.isSome then 1 else 0 : UInt64) > 0xFF := by
    split <;> decide
  simp only [decodeHolepunchMsg, encodeHolepunchMsg, State.forDecode, List.append_assoc,
    uintDecode_uintEncode, bufferDecode_bufferEncode hpayload, hflags, hmode', hid, decide_false,
    Bool.or_self, Bool.false_eq_true, if_false, UInt32.toUInt32_toUInt64]
  cases haddr : m.peerAddress with
  | none =>
    rw [if_pos (by rw [Option.isSome_none]; decide), ← haddr]
  | some addr =>
    have hread := ipv4Decode_ipv4Encode addr []
    rw [List.append_nil] at hread
    rw [if_neg (by rw [Option.isSome_some]; decide)]
    simp only [Option.map_some, Option.getD_some, hread]
    rw [← haddr]

end HyperDHT
