import HyperDHT.Server.Basic

/-!
# The payload of a handshake

The encoder and the decoder of the payload that the messages of a handshake carry
(`peer_connect.cpp`). A decoder that meets an error stops, and returns what it has read so far.

## Main definitions

* `encodeNoisePayload`, `decodeNoisePayload` — the code.
* `Reader` — a step of the decoder, which reads a field into a payload; `Reader.andThen` puts steps
  together as the decoder does.
* `Reader.Reads` — a step that reads a field from its encoding, whatever comes after it.

## Main results

* `decodeNoisePayload_encodeNoisePayload` — a payload that is not too long is read back.
* `error_decodeNoisePayload` — the error of a payload is read back in any case.
* `decodeNoisePayload_of_long` — of a payload with too many addresses the stream and the relay are not
  read.

## Design

The flag of the cursor is sticky, so a step that reads several numbers looks at it once, after the
last one.
-/

set_option autoImplicit false

namespace HyperDHT

open Compact

/-! ## The encoder -/

/-- The flags that say which fields are there. -/
def payloadFlags (p : NoisePayload) : UInt32 :=
  (if p.holepunch.isSome then 1 else 0) ||| (if !p.addresses4.isEmpty then 2 else 0) |||
    (if !p.addresses6.isEmpty then 4 else 0) ||| (if p.udx.isSome then 8 else 0) |||
    (if p.hasSecretStream then 16 else 0) ||| (if p.relayThrough.isSome then 32 else 0) |||
    (if !p.relayAddresses.isEmpty then 64 else 0)

/-- The encoding of the addresses of a relay, its own and that of the server to it. -/
def relayInfoEncode (r : RelayInfo) : List UInt8 :=
  ipv4Encode r.relayAddress ++ ipv4Encode r.peerAddress

def holepunchEncode (hp : HolepunchInfo) : List UInt8 :=
  uintEncode hp.id.toUInt64 ++ arrayEncode relayInfoEncode hp.relays

def udxEncode (udx : UdxInfo) : List UInt8 :=
  uintEncode udx.version.toUInt64 ++ uintEncode (if udx.reusableSocket then 1 else 0) ++
    uintEncode udx.id.toUInt64 ++ uintEncode udx.seq.toUInt64

def relayThroughEncode (rt : RelayThroughInfo) : List UInt8 :=
  uintEncode rt.version.toUInt64 ++ uintEncode 0 ++ rt.publicKey.toList ++ rt.token.toList

/-- An array that is left out when it is empty. -/
def optionalArrayEncode {α : Type*} (encode : α → List UInt8) (items : List α) : List UInt8 :=
  if items.isEmpty then [] else arrayEncode encode items

def encodeNoisePayload (p : NoisePayload) : List UInt8 :=
  uintEncode p.version.toUInt64 ++ uintEncode (payloadFlags p).toUInt64 ++
    uintEncode p.error.toUInt64 ++ uintEncode p.firewall.toUInt64 ++
    (p.holepunch.map holepunchEncode).getD [] ++ optionalArrayEncode ipv4Encode p.addresses4 ++
    optionalArrayEncode ipv6Encode p.addresses6 ++ (p.udx.map udxEncode).getD [] ++
    (if p.hasSecretStream then uintEncode 1 else []) ++
    (p.relayThrough.map relayThroughEncode).getD [] ++
    optionalArrayEncode ipv4Encode p.relayAddresses

/-! ## The decoder -/

/-- A step of the decoder: it reads from the cursor into a payload. -/
abbrev Reader : Type := NoisePayload → State → NoisePayload × State

namespace Reader

/-- Go on unless there was an error. -/
def andThen (r r' : Reader) : Reader := fun p s =>
  let read := r p s
  if read.2.error then read else r' read.1 read.2

/-- A step that is only taken when the flag is set. -/
def ifFlag (flags bit : UInt32) (r : Reader) : Reader := fun p s =>
  if flags &&& bit = 0 then (p, s) else r p s

end Reader

/-- Read a number and keep its low 32 bits. -/
def uint32Decode (s : State) : UInt32 × State := ((uintDecode s).1.toUInt32, (uintDecode s).2)

lemma uint32Decode_failed {s : State} (h : s.error = true) : uint32Decode s = (0, s) := by
  rw [uint32Decode, uintDecode_failed h]
  rfl

def readError : Reader := fun p s =>
  let error := uint32Decode s
  ({ p with error := error.1 }, error.2)

def readFirewall : Reader := fun p s =>
  let firewall := uint32Decode s
  ({ p with firewall := firewall.1 }, firewall.2)

/-- The largest number of relays that is read. -/
def maxRelays : UInt32 := 128

def relayInfoDecode (s : State) : RelayInfo × State :=
  let relay := ipv4Decode s
  let peer := ipv4Decode relay.2
  (⟨relay.1, peer.1⟩, peer.2)

def readHolepunch : Reader := fun p s =>
  let id := uint32Decode s
  if id.2.error then (p, id.2)
  else
    let count := uint32Decode id.2
    if count.2.error then (p, count.2)
    else if count.1 > maxRelays then (p, count.2.fail)
    else
      let relays := arrayLoop relayInfoDecode count.1.toNat count.2
      if relays.2.error then (p, relays.2)
      else ({ p with holepunch := some { id := id.1, relays := relays.1 } }, relays.2)

def readAddresses4 : Reader := fun p s =>
  let addresses := arrayDecode ipv4Decode s
  ({ p with addresses4 := addresses.1 }, addresses.2)

def readAddresses6 : Reader := fun p s =>
  let addresses := arrayDecode ipv6Decode s
  ({ p with addresses6 := addresses.1 }, addresses.2)

def readUdx : Reader := fun p s =>
  let version := uint32Decode s
  let features := uint32Decode version.2
  let id := uint32Decode features.2
  let seq := uint32Decode id.2
  if seq.2.error then (p, seq.2)
  else
    ({ p with udx := some {
        version := version.1
        reusableSocket := features.1 &&& 1 != 0
        id := id.1
        seq := seq.1 } }, seq.2)

def readSecretStream : Reader := fun p s =>
  let version := uint32Decode s
  if version.2.error then (p, version.2) else ({ p with hasSecretStream := true }, version.2)

def readRelayThrough : Reader := fun p s =>
  let version := uint32Decode s
  let flags := uintDecode version.2
  let key := fixedDecode 32 flags.2
  let token := fixedDecode 32 key.2
  if token.2.error then (p, token.2)
  else
    ({ p with relayThrough := some {
        version := version.1, publicKey := key.1, token := token.1 } }, token.2)

def readRelayAddresses : Reader := fun p s =>
  let addresses := arrayDecode ipv4Decode s
  ({ p with relayAddresses := addresses.1 }, addresses.2)

/-- What comes after the flags. -/
def readFields (flags : UInt32) : Reader :=
  readError.andThen <| readFirewall.andThen <|
    (readHolepunch.ifFlag flags 1).andThen <| (readAddresses4.ifFlag flags 2).andThen <|
    (readAddresses6.ifFlag flags 4).andThen <| (readUdx.ifFlag flags 8).andThen <|
    (readSecretStream.ifFlag flags 16).andThen <| (readRelayThrough.ifFlag flags 32).andThen <|
    readRelayAddresses.ifFlag flags 64

def decodeNoisePayload (data : List UInt8) : NoisePayload :=
  let version := uint32Decode (.forDecode data)
  let p : NoisePayload := { version := version.1 }
  if version.2.error || version.1 != 1 then { p with error := errorVersionMismatch }
  else
    let flags := uint32Decode version.2
    if flags.2.error then p else (readFields flags.1 p flags.2).1

/-! ## Payloads are read back -/

namespace Reader

/-- The step reads the bytes, which turn `p` into `p'`, and stops right after them. -/
def Reads (r : Reader) (bytes : List UInt8) (p p' : NoisePayload) : Prop :=
  ∀ rest, r p ⟨bytes ++ rest, false⟩ = (p', ⟨rest, false⟩)

variable {r r' : Reader} {bytes bytes' : List UInt8} {p p' p'' : NoisePayload} {flags bit : UInt32}

lemma Reads.andThen (h : r.Reads bytes p p') (h' : r'.Reads bytes' p' p'') :
    (r.andThen r').Reads (bytes ++ bytes') p p'' := by
  intro rest
  have hfirst := h (bytes' ++ rest)
  simp [Reader.andThen, List.append_assoc, hfirst, h' rest]

lemma Reads.andThen_apply (h : r.Reads bytes p p') (rest : List UInt8) :
    r.andThen r' p ⟨bytes ++ rest, false⟩ = r' p' ⟨rest, false⟩ := by
  simp [Reader.andThen, h rest]

lemma andThen_of_error {s : State} (h : (r p s).2.error = true) : r.andThen r' p s = r p s :=
  if_pos h

lemma reads_optional {β : Type*} {x : Option β} {encode : β → List UInt8}
    (hflag : flags &&& bit = 0 ↔ x.isSome = false) (hnone : x = none → p' = p)
    (hsome : ∀ v, x = some v → r.Reads (encode v) p p') :
    (r.ifFlag flags bit).Reads ((x.map encode).getD []) p p' := by
  intro rest
  cases hx : x with
  | none => simp [ifFlag, hflag.2 (by simp [hx]), hnone hx]
  | some v =>
    have hset : ¬ flags &&& bit = 0 := by simp [hflag, hx]
    simpa [ifFlag, hset] using hsome v hx rest

lemma reads_optionalArray {α : Type*} {items : List α} {encode : α → List UInt8}
    (hflag : flags &&& bit = 0 ↔ items.isEmpty = true) (hnil : items = [] → p' = p)
    (hread : r.Reads (arrayEncode encode items) p p') :
    (r.ifFlag flags bit).Reads (optionalArrayEncode encode items) p p' := by
  intro rest
  cases hitems : items with
  | nil => simp [ifFlag, optionalArrayEncode, hflag.2 (by simp [hitems]), hnil hitems]
  | cons item items' =>
    have hset : ¬ flags &&& bit = 0 := by simp [hflag, hitems]
    rw [← hitems]
    have hne : items.isEmpty = false := by simp [hitems]
    simpa [ifFlag, hset, optionalArrayEncode, hne] using hread rest

end Reader

lemma payloadFlags_spec (p : NoisePayload) :
    (payloadFlags p &&& 1 = 0 ↔ p.holepunch.isSome = false) ∧
      (payloadFlags p &&& 2 = 0 ↔ p.addresses4.isEmpty = true) ∧
      (payloadFlags p &&& 4 = 0 ↔ p.addresses6.isEmpty = true) ∧
      (payloadFlags p &&& 8 = 0 ↔ p.udx.isSome = false) ∧
      (payloadFlags p &&& 16 = 0 ↔ p.hasSecretStream = false) ∧
      (payloadFlags p &&& 32 = 0 ↔ p.relayThrough.isSome = false) ∧
      (payloadFlags p &&& 64 = 0 ↔ p.relayAddresses.isEmpty = true) := by
  unfold payloadFlags
  generalize p.holepunch.isSome = a
  generalize p.addresses4.isEmpty = b
  generalize p.addresses6.isEmpty = c
  generalize p.udx.isSome = d
  generalize p.hasSecretStream = e
  generalize p.relayThrough.isSome = f
  generalize p.relayAddresses.isEmpty = g
  revert a b c d e f g
  decide

lemma uint32Decode_uintEncode (v : UInt32) (rest : List UInt8) :
    uint32Decode ⟨uintEncode v.toUInt64 ++ rest, false⟩ = (v, ⟨rest, false⟩) := by
  simp [uint32Decode, uintDecode_uintEncode]

lemma relayInfoDecode_relayInfoEncode (r : RelayInfo) (rest : List UInt8) :
    relayInfoDecode ⟨relayInfoEncode r ++ rest, false⟩ = (r, ⟨rest, false⟩) := by
  simp [relayInfoDecode, relayInfoEncode, List.append_assoc, ipv4Decode_ipv4Encode]

section

variable {p : NoisePayload}

lemma readHolepunch_reads {hp : HolepunchInfo} (h : hp.relays.length ≤ 128) :
    readHolepunch.Reads (holepunchEncode hp) p { p with holepunch := some hp } := by
  intro rest
  have hcount : (UInt32.ofNat hp.relays.length).toNat = hp.relays.length := by
    rw [UInt32.toNat_ofNat']
    omega
  have hsmall : ¬ UInt32.ofNat hp.relays.length > maxRelays := by
    rw [gt_iff_lt, UInt32.lt_iff_toNat_lt, hcount]
    simpa [maxRelays] using h
  have hloop : ∀ (relays : List RelayInfo), arrayLoop relayInfoDecode relays.length
      ⟨relays.flatMap relayInfoEncode ++ rest, false⟩ = (relays, ⟨rest, false⟩) := by
    intro relays
    induction relays with
    | nil => rfl
    | cons r relays ih =>
      simp [arrayLoop, List.flatMap_cons, List.append_assoc, relayInfoDecode_relayInfoEncode, ih]
  have hread : uint32Decode ⟨uintEncode (UInt64.ofNat hp.relays.length) ++
      (hp.relays.flatMap relayInfoEncode ++ rest), false⟩ =
        (UInt32.ofNat hp.relays.length, ⟨hp.relays.flatMap relayInfoEncode ++ rest, false⟩) := by
    simp [uint32Decode, uintDecode_uintEncode]
  simp only [readHolepunch, holepunchEncode, arrayEncode, List.append_assoc,
    uint32Decode_uintEncode, hread, hsmall, hcount, hloop, Bool.false_eq_true, if_false]

lemma readAddresses4_reads {addresses : List Ipv4Address}
    (h : addresses.length ≤ arrayMaxLength) :
    readAddresses4.Reads (arrayEncode ipv4Encode addresses) p { p with addresses4 := addresses } := by
  intro rest
  simp [readAddresses4, arrayDecode_arrayEncode ipv4Decode_ipv4Encode h]

lemma readAddresses6_reads {addresses : List Ipv6Address}
    (h : addresses.length ≤ arrayMaxLength) :
    readAddresses6.Reads (arrayEncode ipv6Encode addresses) p { p with addresses6 := addresses } := by
  intro rest
  simp [readAddresses6, arrayDecode_arrayEncode ipv6Decode_ipv6Encode h]

lemma readUdx_reads {udx : UdxInfo} :
    readUdx.Reads (udxEncode udx) p { p with udx := some udx } := by
  intro rest
  have hfeatures (rest : List UInt8) : uint32Decode ⟨uintEncode (if udx.reusableSocket then 1 else 0) ++
      rest, false⟩ = (if udx.reusableSocket then 1 else 0, ⟨rest, false⟩) := by
    cases udx.reusableSocket <;> simp [uint32Decode, uintDecode_uintEncode]
  have hbit : ((if udx.reusableSocket then 1 else 0 : UInt32) &&& 1 != 0) = udx.reusableSocket := by
    cases udx.reusableSocket <;> decide
  simp only [readUdx, udxEncode, List.append_assoc, uint32Decode_uintEncode, hfeatures, hbit]
  rfl

lemma readSecretStream_reads :
    readSecretStream.Reads (uintEncode 1) p { p with hasSecretStream := true } := by
  intro rest
  simp [readSecretStream, uint32Decode, uintDecode_uintEncode]

lemma readRelayThrough_reads {rt : RelayThroughInfo} :
    readRelayThrough.Reads (relayThroughEncode rt) p { p with relayThrough := some rt } := by
  intro rest
  simp [readRelayThrough, relayThroughEncode, List.append_assoc, uint32Decode_uintEncode,
    uintDecode_uintEncode, fixedDecode_append]

lemma readRelayAddresses_reads {addresses : List Ipv4Address}
    (h : addresses.length ≤ arrayMaxLength) :
    readRelayAddresses.Reads (arrayEncode ipv4Encode addresses) p
      { p with relayAddresses := addresses } := by
  intro rest
  simp [readRelayAddresses, arrayDecode_arrayEncode ipv4Decode_ipv4Encode h]

end

/-- A payload with not too many relays and addresses. -/
structure NoisePayload.Fits (p : NoisePayload) : Prop where
  version : p.version = 1
  relays : ∀ hp, p.holepunch = some hp → hp.relays.length ≤ 128
  addresses4 : p.addresses4.length ≤ arrayMaxLength
  addresses6 : p.addresses6.length ≤ arrayMaxLength
  relayAddresses : p.relayAddresses.length ≤ arrayMaxLength

/-- **A payload that fits is read back** from its encoding. -/
theorem decodeNoisePayload_encodeNoisePayload {p : NoisePayload} (h : p.Fits) :
    decodeNoisePayload (encodeNoisePayload p) = p := by
  obtain ⟨hhp, h4, h6, hudx, hss, hrt, hrelay⟩ := payloadFlags_spec p
  set flags := payloadFlags p with hflags
  let p₀ : NoisePayload := { version := p.version }
  let p₁ := { p₀ with error := p.error }
  let p₂ := { p₁ with firewall := p.firewall }
  let p₃ := { p₂ with holepunch := p.holepunch }
  let p₄ := { p₃ with addresses4 := p.addresses4 }
  let p₅ := { p₄ with addresses6 := p.addresses6 }
  let p₆ := { p₅ with udx := p.udx }
  let p₇ := { p₆ with hasSecretStream := p.hasSecretStream }
  let p₈ := { p₇ with relayThrough := p.relayThrough }
  have herror : readError.Reads (uintEncode p.error.toUInt64) p₀ p₁ := by
    intro rest
    simp [readError, uint32Decode_uintEncode, p₁]
  have hfirewall : readFirewall.Reads (uintEncode p.firewall.toUInt64) p₁ p₂ := by
    intro rest
    simp [readFirewall, uint32Decode_uintEncode, p₂]
  have hholepunch : (readHolepunch.ifFlag flags 1).Reads ((p.holepunch.map holepunchEncode).getD [])
      p₂ p₃ := by
    refine Reader.reads_optional hhp (fun hx => ?_) fun hp hx => ?_
    · simp [p₃, p₂, p₁, p₀, hx]
    · simpa [p₃, hx] using readHolepunch_reads (h.relays hp hx)
  have haddresses4 : (readAddresses4.ifFlag flags 2).Reads
      (optionalArrayEncode ipv4Encode p.addresses4) p₃ p₄ := by
    refine Reader.reads_optionalArray h4 (fun hx => ?_) (readAddresses4_reads h.addresses4)
    simp [p₄, p₃, p₂, p₁, p₀, hx]
  have haddresses6 : (readAddresses6.ifFlag flags 4).Reads
      (optionalArrayEncode ipv6Encode p.addresses6) p₄ p₅ := by
    refine Reader.reads_optionalArray h6 (fun hx => ?_) (readAddresses6_reads h.addresses6)
    simp [p₅, p₄, p₃, p₂, p₁, p₀, hx]
  have hudx : (readUdx.ifFlag flags 8).Reads ((p.udx.map udxEncode).getD []) p₅ p₆ := by
    refine Reader.reads_optional hudx (fun hx => ?_) fun udx hx => ?_
    · simp [p₆, p₅, p₄, p₃, p₂, p₁, p₀, hx]
    · simpa [p₆, hx] using readUdx_reads
  have hsecret : (readSecretStream.ifFlag flags 16).Reads
      (if p.hasSecretStream then uintEncode 1 else []) p₆ p₇ := by
    intro rest
    cases hx : p.hasSecretStream with
    | false => simp [Reader.ifFlag, hss.2 hx, p₇, p₆, p₅, p₄, p₃, p₂, p₁, p₀, hx]
    | true =>
      have hset : ¬ flags &&& 16 = 0 := by simp [hss, hx]
      simpa [Reader.ifFlag, hset, p₇, hx] using readSecretStream_reads rest
  have hthrough : (readRelayThrough.ifFlag flags 32).Reads
      ((p.relayThrough.map relayThroughEncode).getD []) p₇ p₈ := by
    refine Reader.reads_optional hrt (fun hx => ?_) fun rt hx => ?_
    · simp [p₈, p₇, p₆, p₅, p₄, p₃, p₂, p₁, p₀, hx]
    · simpa [p₈, hx] using readRelayThrough_reads
  have hrelays : (readRelayAddresses.ifFlag flags 64).Reads
      (optionalArrayEncode ipv4Encode p.relayAddresses) p₈ p := by
    refine Reader.reads_optionalArray hrelay (fun hx => ?_) (readRelayAddresses_reads h.relayAddresses)
    simp [p₈, p₇, p₆, p₅, p₄, p₃, p₂, p₁, p₀, ← hx]
  have hall := (herror.andThen <| hfirewall.andThen <| hholepunch.andThen <| haddresses4.andThen <|
    haddresses6.andThen <| hudx.andThen <| hsecret.andThen <| hthrough.andThen hrelays) []
  have hversion : (p.version != 1) = false := by simp [h.version]
  have hfields : readFields flags p₀ _ = _ := hall
  simp only [List.append_nil] at hfields
  simp only [decodeNoisePayload, encodeNoisePayload, State.forDecode, List.append_assoc,
    uint32Decode_uintEncode, hversion, Bool.or_false, Bool.false_eq_true, if_false, ← hflags]
  rw [hfields]

/-! ## Payloads that do not fit -/

namespace Reader

/-- The step leaves the error of the payload alone. -/
def KeepsError (r : Reader) : Prop := ∀ p s, (r p s).1.error = p.error

variable {r r' : Reader}

lemma KeepsError.andThen (h : r.KeepsError) (h' : r'.KeepsError) : (r.andThen r').KeepsError := by
  intro p s
  simp only [Reader.andThen]
  split
  · exact h p s
  · rw [h', h]

lemma KeepsError.ifFlag (h : r.KeepsError) (flags bit : UInt32) : (r.ifFlag flags bit).KeepsError := by
  intro p s
  simp only [Reader.ifFlag]
  split
  · rfl
  · exact h p s

end Reader

lemma readHolepunch_keepsError : readHolepunch.KeepsError := by
  intro p s
  simp only [readHolepunch]
  split_ifs <;> rfl

lemma readUdx_keepsError : readUdx.KeepsError := by
  intro p s
  simp only [readUdx]
  split_ifs <;> rfl

lemma readSecretStream_keepsError : readSecretStream.KeepsError := by
  intro p s
  simp only [readSecretStream]
  split_ifs <;> rfl

lemma readRelayThrough_keepsError : readRelayThrough.KeepsError := by
  intro p s
  simp only [readRelayThrough]
  split_ifs <;> rfl

/-- **The error of a payload is read back**, whatever becomes of the rest. -/
theorem error_decodeNoisePayload {p : NoisePayload} (h : p.version = 1) :
    (decodeNoisePayload (encodeNoisePayload p)).error = p.error := by
  have hversion : (p.version != 1) = false := by simp [h]
  have hrest := fun flags : UInt32 =>
    (readHolepunch_keepsError.ifFlag flags 1).andThen <|
      (Reader.KeepsError.ifFlag (r := readAddresses4) (fun _ _ => rfl) flags 2).andThen <|
      (Reader.KeepsError.ifFlag (r := readAddresses6) (fun _ _ => rfl) flags 4).andThen <|
      (readUdx_keepsError.ifFlag flags 8).andThen <|
      (readSecretStream_keepsError.ifFlag flags 16).andThen <|
      (readRelayThrough_keepsError.ifFlag flags 32).andThen <|
      Reader.KeepsError.ifFlag (r := readRelayAddresses) (fun _ _ => rfl) flags 64
  simp only [decodeNoisePayload, encodeNoisePayload, State.forDecode, List.append_assoc,
    uint32Decode_uintEncode, hversion, Bool.or_false, Bool.false_eq_true, if_false, readFields,
    Reader.andThen, readError, readFirewall]
  exact hrest _ _ _

lemma arrayDecode_of_long {α : Type*} {encode : α → List UInt8} {decode : State → α × State}
    {items : List α} (hlong : arrayMaxLength < items.length) (hsize : items.length < 2 ^ 64)
    (rest : List UInt8) :
    (arrayDecode decode ⟨arrayEncode encode items ++ rest, false⟩).2.error = true := by
  have hcount : (UInt64.ofNat items.length).toNat = items.length := by
    rw [UInt64.toNat_ofNat']
    exact Nat.mod_eq_of_lt hsize
  simp only [arrayDecode, arrayEncode, List.append_assoc, uintDecode_uintEncode, hcount]
  simp [hlong, State.fail]

/-- **Too many addresses hide what comes after them**: the decoder stops at them. -/
theorem decodeNoisePayload_of_long {p : NoisePayload} (h : p.version = 1)
    (hrelays : ∀ hp, p.holepunch = some hp → hp.relays.length ≤ 128)
    (hlong : arrayMaxLength < p.addresses4.length) (hsize : p.addresses4.length < 2 ^ 64) :
    (decodeNoisePayload (encodeNoisePayload p)).udx = none ∧
      (decodeNoisePayload (encodeNoisePayload p)).relayThrough = none := by
  obtain ⟨hhp, h4, -⟩ := payloadFlags_spec p
  set flags := payloadFlags p with hflags
  let p₀ : NoisePayload := { version := p.version }
  let p₁ := { p₀ with error := p.error }
  let p₂ := { p₁ with firewall := p.firewall }
  let p₃ := { p₂ with holepunch := p.holepunch }
  have hversion : (p.version != 1) = false := by simp [h]
  have hnil : p.addresses4.isEmpty = false := by
    cases haddresses : p.addresses4 with
    | nil => simp [haddresses] at hlong
    | cons a as => rfl
  have hset : ¬ flags &&& 2 = 0 := by simp [h4, hnil]
  have herror : readError.Reads (uintEncode p.error.toUInt64) p₀ p₁ := by
    intro rest
    simp [readError, uint32Decode_uintEncode, p₁]
  have hfirewall : readFirewall.Reads (uintEncode p.firewall.toUInt64) p₁ p₂ := by
    intro rest
    simp [readFirewall, uint32Decode_uintEncode, p₂]
  have hpunch : (readHolepunch.ifFlag flags 1).Reads ((p.holepunch.map holepunchEncode).getD [])
      p₂ p₃ := by
    refine Reader.reads_optional hhp (fun hx => ?_) fun hp hx => ?_
    · simp [p₃, p₂, p₁, p₀, hx]
    · simpa [p₃, hx] using readHolepunch_reads (hrelays hp hx)
  -- the array of the addresses is where the decoder stops
  have hstop (rest : List UInt8) : (readAddresses4.ifFlag flags 2 p₃
      ⟨optionalArrayEncode ipv4Encode p.addresses4 ++ rest, false⟩).2.error = true := by
    simpa [Reader.ifFlag, hset, readAddresses4, optionalArrayEncode, hnil] using
      @arrayDecode_of_long _ ipv4Encode ipv4Decode _ hlong hsize rest
  simp only [decodeNoisePayload, encodeNoisePayload, State.forDecode, List.append_assoc,
    uint32Decode_uintEncode, hversion, Bool.or_false, Bool.false_eq_true, if_false, ← hflags]
  unfold readFields
  rw [herror.andThen_apply, hfirewall.andThen_apply, hpunch.andThen_apply,
    Reader.andThen_of_error (hstop _)]
  simp only [Reader.ifFlag, hset, if_false, readAddresses4]
  exact ⟨rfl, rfl⟩

end HyperDHT
