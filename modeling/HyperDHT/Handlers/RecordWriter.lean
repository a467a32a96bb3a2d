import HyperDHT.Compact.Writer
import HyperDHT.Handlers.Records

/-!
# The two passes over the records of the store

The encoders of `dht_messages.cpp` as they are written: a pass over the fields for the size of the
buffer, and a pass that writes. What they leave in the buffer is the encoding of the record, which the
decoders read back.

## Main definitions

* `Handlers.peerRecordWriter`, `announceWriter`, `mutablePutWriter`, `mutableGetWriter`,
  `lookupReplyWriter` — the cursor after the two passes.
* `Handlers.DhtRecord.Fits` — no list and no value is longer than what a decoder takes.
* `Handlers.DhtRecord.ReadBack` — the decoder of the record undoes its encoder.

## Main results

* `Handlers.readBack_of_fits` — records that fit fill their buffer exactly and are read back.
-/

set_option autoImplicit false

namespace HyperDHT.Handlers

open Compact

/-! ## The passes -/

/-- The cursor after the two passes over a peer record. -/
def peerRecordWriter (p : PeerRecord) : Writer :=
  encoded
    [fixedPreencode p.publicKey,
      arrayPreencode ipv4Preencode p.relayAddresses]
    [fixedWrite p.publicKey,
      arrayWrite ipv4Write p.relayAddresses]

/-- The flags of an announcement. -/
def announceFlags (m : AnnounceMessage) : UInt8 :=
  (if m.peer.isSome then 1 else 0) ||| (if m.refresh.isSome then 2 else 0) |||
    (if m.signature.isSome then 4 else 0) ||| (if m.bump > 0 then 8 else 0)

/-- The cursor after the two passes over an announcement. -/
def announceWriter (m : AnnounceMessage) : Writer :=
  encoded
    [uintPreencode (announceFlags m).toUInt64,
      optionally (fun p size => arrayPreencode ipv4Preencode p.relayAddresses
        (fixedPreencode p.publicKey size)) m.peer,
      optionally fixedPreencode m.refresh,
      optionally fixedPreencode m.signature,
      onlyIf (m.bump > 0) (uintPreencode m.bump)]
    [uintWrite (announceFlags m).toUInt64,
      optionally (fun p w => arrayWrite ipv4Write p.relayAddresses
        (fixedWrite p.publicKey w)) m.peer,
      optionally fixedWrite m.refresh,
      optionally fixedWrite m.signature,
      onlyIf (m.bump > 0) (uintWrite m.bump)]

/-- The cursor after the two passes over a request to store a mutable value. -/
def mutablePutWriter (m : MutablePutRequest) : Writer :=
  encoded
    [fixedPreencode m.publicKey,
      uintPreencode m.seq,
      bufferPreencode m.value,
      fixedPreencode m.signature]
    [fixedWrite m.publicKey,
      uintWrite m.seq,
      bufferWrite m.value,
      fixedWrite m.signature]

/-- The cursor after the two passes over a mutable value. -/
def mutableGetWriter (m : MutableGetResponse) : Writer :=
  encoded
    [uintPreencode m.seq,
      bufferPreencode m.value,
      fixedPreencode m.signature]
    [uintWrite m.seq,
      bufferWrite m.value,
      fixedWrite m.signature]

/-- The cursor after the two passes over a reply to a lookup. -/
def lookupReplyWriter (r : LookupRawReply) : Writer :=
  encoded
    [arrayPreencode bufferPreencode r.peers,
      uintPreencode r.bump]
    [arrayWrite bufferWrite r.peers,
      uintWrite r.bump]

/-! ## What the passes leave in the buffer -/

lemma allFill_peerRecord (p : PeerRecord) : AllFill
    [fixedPreencode p.publicKey, arrayPreencode ipv4Preencode p.relayAddresses]
    [fixedWrite p.publicKey, arrayWrite ipv4Write p.relayAddresses] (encodePeerRecord p) := by
  simpa [encodePeerRecord] using
    AllFill.cons (fills_fixed p.publicKey) (.cons (fills_array fills_ipv4 p.relayAddresses) .nil)

lemma announceFlags_toUInt64 (m : AnnounceMessage) :
    (announceFlags m).toUInt64 = flagsOf m := by
  unfold announceFlags flagsOf
  generalize m.peer.isSome = a
  generalize m.refresh.isSome = b
  generalize m.signature.isSome = c
  by_cases hbump : m.bump > 0
  · simp only [hbump, if_true]
    revert a b c
    decide
  · simp only [hbump, if_false]
    revert a b c
    decide

lemma allFill_announce (m : AnnounceMessage) : AllFill
    [uintPreencode (announceFlags m).toUInt64,
      optionally (fun p size => arrayPreencode ipv4Preencode p.relayAddresses
        (fixedPreencode p.publicKey size)) m.peer,
      optionally fixedPreencode m.refresh,
      optionally fixedPreencode m.signature,
      onlyIf (m.bump > 0) (uintPreencode m.bump)]
    [uintWrite (announceFlags m).toUInt64,
      optionally (fun p w => arrayWrite ipv4Write p.relayAddresses
        (fixedWrite p.publicKey w)) m.peer,
      optionally fixedWrite m.refresh,
      optionally fixedWrite m.signature,
      onlyIf (m.bump > 0) (uintWrite m.bump)]
    (encodeAnnounceMsg m) := by
  have hpeer : ∀ p : PeerRecord, Fills
      (fun size => arrayPreencode ipv4Preencode p.relayAddresses
        (fixedPreencode p.publicKey size))
      (fun w => arrayWrite ipv4Write p.relayAddresses (fixedWrite p.publicKey w))
      (encodePeerRecord p) :=
    fun p => (fills_fixed p.publicKey).comp (fills_array fills_ipv4 p.relayAddresses)
  have hall := AllFill.cons (fills_uint (announceFlags m).toUInt64) <|
    .cons (fills_optionally hpeer m.peer) <| .cons (fills_optionally fills_fixed m.refresh) <|
    .cons (fills_optionally fills_fixed m.signature) <|
    .cons (fills_onlyIf (fills_uint m.bump) (m.bump > 0)) .nil
  have hbytes : encodeAnnounceMsg m = uintEncode (announceFlags m).toUInt64 ++
      ((m.peer.map encodePeerRecord).getD [] ++ ((m.refresh.map fun v => v.toList).getD [] ++
        ((m.signature.map fun v => v.toList).getD [] ++
          ((if decide (m.bump > 0) = true then uintEncode m.bump else []) ++ [])))) := by
    rw [announceFlags_toUInt64, flagsOf]
    simp [encodeAnnounceMsg]
  rw [hbytes]
  exact hall

lemma allFill_mutablePut (m : MutablePutRequest) : AllFill
    [fixedPreencode m.publicKey, uintPreencode m.seq, bufferPreencode m.value,
      fixedPreencode m.signature]
    [fixedWrite m.publicKey, uintWrite m.seq, bufferWrite m.value, fixedWrite m.signature]
    (encodeMutablePut m) := by
  simpa [encodeMutablePut] using
    AllFill.cons (fills_fixed m.publicKey) (.cons (fills_uint m.seq) (.cons (fills_buffer m.value)
      (.cons (fills_fixed m.signature) .nil)))

lemma allFill_mutableGet (m : MutableGetResponse) : AllFill
    [uintPreencode m.seq, bufferPreencode m.value, fixedPreencode m.signature]
    [uintWrite m.seq, bufferWrite m.value, fixedWrite m.signature]
    (encodeMutableGetResp m) := by
  simpa [encodeMutableGetResp] using
    AllFill.cons (fills_uint m.seq) (.cons (fills_buffer m.value)
      (.cons (fills_fixed m.signature) .nil))

/-- The encoding of a reply to a lookup: the records and the bump. -/
def encodeLookupReply (r : LookupRawReply) : List UInt8 :=
  encodeLookupPeers r.peers ++ uintEncode r.bump

lemma allFill_lookupReply (r : LookupRawReply) : AllFill
    [arrayPreencode bufferPreencode r.peers, uintPreencode r.bump]
    [arrayWrite bufferWrite r.peers, uintWrite r.bump] (encodeLookupReply r) := by
  simpa [encodeLookupReply, encodeLookupPeers, arrayEncode] using
    AllFill.cons (fills_array fills_buffer r.peers) (.cons (fills_uint r.bump) .nil)

/-! ## Records are read back -/

lemma decodePeerRecord_encodePeerRecord (p : PeerRecord)
    (h : p.relayAddresses.length ≤ arrayMaxLength) :
    decodePeerRecord (encodePeerRecord p) = p := by
  have hrelays := arrayDecode_arrayEncode ipv4Decode_ipv4Encode h []
  rw [List.append_nil] at hrelays
  simp [decodePeerRecord, encodePeerRecord, State.forDecode, fixedDecode_append, hrelays]

lemma decodeMutablePut_encodeMutablePut (m : MutablePutRequest)
    (h : m.value.length ≤ maxBufferDecode) : decodeMutablePut (encodeMutablePut m) = m := by
  have hsignature := fixedDecode_append m.signature []
  rw [List.append_nil] at hsignature
  simp only [decodeMutablePut, encodeMutablePut, State.forDecode, List.append_assoc,
    fixedDecode_append, uintDecode_uintEncode, bufferDecode_bufferEncode h, hsignature,
    Bool.false_eq_true, if_false]

lemma decodeLookupReply_encodeLookupReply (r : LookupRawReply)
    (hcount : r.peers.length ≤ maxLookupPeers)
    (h : ∀ p ∈ r.peers, p ≠ [] ∧ p.length ≤ maxBufferDecode) :
    decodeLookupReply (encodeLookupReply r) = r := by
  have hlen : (UInt64.ofNat r.peers.length).toNat = r.peers.length := by
    rw [UInt64.toNat_ofNat']
    exact Nat.mod_eq_of_lt (by simp only [maxLookupPeers] at hcount; omega)
  have hbump := uintDecode_uintEncode r.bump []
  rw [List.append_nil] at hbump
  have hne : (uintEncode r.bump).isEmpty = false := by
    simp only [uintEncode]
    split_ifs <;> rfl
  simp [decodeLookupReply, encodeLookupReply, encodeLookupPeers, State.forDecode,
    List.append_assoc, uintDecode_uintEncode, hlen, lookupLoop_flatMap h, not_lt.2 hcount, hne,
    hbump]

/-- A record of the store, of any kind. -/
inductive DhtRecord where
  | peer (p : PeerRecord)
  | announce (m : AnnounceMessage)
  | mutablePut (m : MutablePutRequest)
  | mutableGet (m : MutableGetResponse)
  | lookupReply (r : LookupRawReply)
  deriving DecidableEq

namespace DhtRecord

/-- The cursor after the two passes over a record. -/
def writer : DhtRecord → Writer
  | .peer p => peerRecordWriter p
  | .announce m => announceWriter m
  | .mutablePut m => mutablePutWriter m
  | .mutableGet m => mutableGetWriter m
  | .lookupReply r => lookupReplyWriter r

/-- No list and no value is longer than what a decoder takes, and no record of a lookup is empty. -/
def Fits : DhtRecord → Prop
  | .peer p => p.relayAddresses.length ≤ arrayMaxLength
  | .announce m => ∀ p, m.peer = some p → p.relayAddresses.length ≤ arrayMaxLength
  | .mutablePut m => m.value.length ≤ maxBufferDecode
  | .mutableGet m => m.value.length ≤ maxBufferDecode
  | .lookupReply r => r.peers.length ≤ maxLookupPeers ∧
      ∀ p ∈ r.peers, p ≠ [] ∧ p.length ≤ maxBufferDecode

/-- The decoder of the record returns it from the buffer that its encoder fills. -/
def ReadBack (record : DhtRecord) : Prop :=
  match record with
  | .peer p => decodePeerRecord record.writer.buffer = p
  | .announce m => decodeAnnounceMsg record.writer.buffer = m
  | .mutablePut m => decodeMutablePut record.writer.buffer = m
  | .mutableGet m => decodeMutableGetResp record.writer.buffer = m
  | .lookupReply r => decodeLookupReply record.writer.buffer = r

end DhtRecord

/-- **Round trip of the records**: the encoder of a record that fits meets no error and fills its
buffer exactly, and the decoder returns the record. -/
theorem readBack_of_fits (record : DhtRecord) (h : record.Fits) :
    record.writer.Full ∧ record.ReadBack := by
  cases record with
  | peer p =>
    refine ⟨(allFill_peerRecord p).full, ?_⟩
    rw [DhtRecord.ReadBack, DhtRecord.writer, peerRecordWriter, (allFill_peerRecord p).buffer_eq]
    exact decodePeerRecord_encodePeerRecord p h
  | announce m =>
    refine ⟨(allFill_announce m).full, ?_⟩
    rw [DhtRecord.ReadBack, DhtRecord.writer, announceWriter, (allFill_announce m).buffer_eq]
    exact decodeAnnounceMsg_encodeAnnounceMsg m h
  | mutablePut m =>
    refine ⟨(allFill_mutablePut m).full, ?_⟩
    rw [DhtRecord.ReadBack, DhtRecord.writer, mutablePutWriter, (allFill_mutablePut m).buffer_eq]
    exact decodeMutablePut_encodeMutablePut m h
  | mutableGet m =>
    refine ⟨(allFill_mutableGet m).full, ?_⟩
    rw [DhtRecord.ReadBack, DhtRecord.writer, mutableGetWriter, (allFill_mutableGet m).buffer_eq]
    exact decodeMutableGetResp_encodeMutableGetResp m h
  | lookupReply r =>
    refine ⟨(allFill_lookupReply r).full, ?_⟩
    rw [DhtRecord.ReadBack, DhtRecord.writer, lookupReplyWriter, (allFill_lookupReply r).buffer_eq]
    exact decodeLookupReply_encodeLookupReply r h.1 h.2

def bumped : AnnounceMessage :=
  { peer := some { relayAddresses := [Ipv4Address.zero] }, bump := 0xFFFFFFFFFFFFFFFF }

theorem readBack_of_fits_bumped :
    (DhtRecord.announce bumped).Fits ∧ (DhtRecord.announce bumped).writer.Full ∧
      (DhtRecord.announce bumped).ReadBack :=
  have hfits : (DhtRecord.announce bumped).Fits := by
    rintro p ⟨⟩
    decide
  ⟨hfits, readBack_of_fits (.announce bumped) hfits⟩

end HyperDHT.Handlers
