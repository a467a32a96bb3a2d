import HyperDHT.Compact.Codec
import HyperDHT.Routing.NodeId

/-!
# Records of the store

The messages that announce a peer and that carry mutable values (`dht_messages.cpp`), with their
codecs, and the signed texts over them (`announce_sig.cpp`).

## Main definitions

* `Handlers.PeerRecord`, `AnnounceMessage`, `MutablePutRequest`, `MutableGetResponse`,
  `LookupRawReply` — the messages, with their codecs.
* `Handlers.annSignable`, `Handlers.mutableSignable` — what is signed.
* `Handlers.Verify`, `verifyAnnounce`, `verifyMutable` — the check of signatures.

## Main results

* `Handlers.decodeAnnounceMsg_encodeAnnounceMsg` — an announcement is read back.
* `Handlers.decodeMutableGetResp_encodeMutableGetResp` — a stored mutable value is read back.
* `Handlers.decodeLookupReply_encodeLookupPeers` — so are the records of a lookup.

## Design

A decoder of the source fills its message field by field and returns what it has at the first error,
the field that met the error included. The digest and the check of a signature are parameters.
-/

set_option autoImplicit false

namespace HyperDHT.Handlers

open Compact Routing

/-! ## Peer records and announcements -/

/-- A peer: its key and the addresses of its relays. -/
@[ext]
structure PeerRecord where
  publicKey : List.Vector UInt8 32 := List.Vector.replicate 32 0
  relayAddresses : List Ipv4Address := []
  deriving DecidableEq

def encodePeerRecord (p : PeerRecord) : List UInt8 :=
  p.publicKey.toList ++ arrayEncode ipv4Encode p.relayAddresses

def decodePeerRecord (data : List UInt8) : PeerRecord :=
  let key := fixedDecode 32 (.forDecode data)
  if key.2.error then { publicKey := key.1 }
  else { publicKey := key.1, relayAddresses := (arrayDecode ipv4Decode key.2).1 }

/-- The value of an announcement, or of its withdrawal. -/
structure AnnounceMessage where
  peer : Option PeerRecord := none
  refresh : Option (List.Vector UInt8 32) := none
  signature : Option (List.Vector UInt8 64) := none
  bump : UInt64 := 0
  deriving DecidableEq

def encodeAnnounceMsg (m : AnnounceMessage) : List UInt8 :=
  let flags : UInt64 :=
    (if m.peer.isSome then 1 else 0) ||| (if m.refresh.isSome then 2 else 0) |||
      (if m.signature.isSome then 4 else 0) ||| (if m.bump > 0 then 8 else 0)
  uintEncode flags ++ (m.peer.map encodePeerRecord).getD [] ++
    (m.refresh.map List.Vector.toList).getD [] ++ (m.signature.map List.Vector.toList).getD [] ++
    (if m.bump > 0 then uintEncode m.bump else [])

/-- The peer of a message whose flags name one. -/
def readPeer (flags : UInt64) (m : AnnounceMessage) (s : State) : AnnounceMessage × State :=
  if flags &&& 1 = 0 then (m, s)
  else
    let key := fixedDecode 32 s
    if key.2.error then (m, key.2)
    else
      let relays := arrayDecode ipv4Decode key.2
      if relays.2.error then (m, relays.2)
      else ({ m with peer := some ⟨key.1, relays.1⟩ }, relays.2)

/-- The refresh token of a message whose flags name one. -/
def readRefresh (flags : UInt64) (m : AnnounceMessage) (s : State) : AnnounceMessage × State :=
  if flags &&& 2 = 0 then (m, s)
  else ({ m with refresh := some (fixedDecode 32 s).1 }, (fixedDecode 32 s).2)

/-- The signature of a message whose flags name one. -/
def readSignature (flags : UInt64) (m : AnnounceMessage) (s : State) : AnnounceMessage × State :=
  if flags &&& 4 = 0 then (m, s)
  else ({ m with signature := some (fixedDecode 64 s).1 }, (fixedDecode 64 s).2)

/-- The bump of a message whose flags name one. -/
def readBump (flags : UInt64) (m : AnnounceMessage) (s : State) : AnnounceMessage :=
  if flags &&& 8 = 0 then m else { m with bump := (uintDecode s).1 }

/-- The fields that the flags name, up to the first error. -/
def readFields (flags : UInt64) (s : State) : AnnounceMessage :=
  let peer := readPeer flags {} s
  if peer.2.error then peer.1
  else
    let refresh := readRefresh flags peer.1 peer.2
    if refresh.2.error then refresh.1
    else
      let signature := readSignature flags refresh.1 refresh.2
      if signature.2.error then signature.1 else readBump flags signature.1 signature.2

def decodeAnnounceMsg (data : List UInt8) : AnnounceMessage :=
  let flags := uintDecode (.forDecode data)
  if flags.2.error || flags.1 > 0xFF then {} else readFields flags.1 flags.2

/-! ### Announcements are read back -/

/-- The flags that an encoder writes for a message. -/
def flagsOf (m : AnnounceMessage) : UInt64 :=
  (if m.peer.isSome then 1 else 0) ||| (if m.refresh.isSome then 2 else 0) |||
    (if m.signature.isSome then 4 else 0) ||| (if m.bump > 0 then 8 else 0)

lemma flagsOf_spec (m : AnnounceMessage) :
    ¬ flagsOf m > 0xFF ∧ (flagsOf m &&& 1 = 0 ↔ m.peer = none) ∧
      (flagsOf m &&& 2 = 0 ↔ m.refresh = none) ∧ (flagsOf m &&& 4 = 0 ↔ m.signature = none) ∧
      (flagsOf m &&& 8 = 0 ↔ ¬ m.bump > 0) := by
  unfold flagsOf
  cases m.peer <;> cases m.refresh <;> cases m.signature <;>
    by_cases hbump : m.bump > 0 <;> simp only [hbump, Option.isSome_none, Option.isSome_some,
      Bool.false_eq_true, if_true, if_false, reduceCtorEq] <;> decide

section

variable {m m₀ : AnnounceMessage}

lemma readPeer_encode (hnone : m₀.peer = none)
    (h : ∀ p, m.peer = some p → p.relayAddresses.length ≤ arrayMaxLength) (rest : List UInt8) :
    readPeer (flagsOf m) m₀ ⟨(m.peer.map encodePeerRecord).getD [] ++ rest, false⟩ =
      ({ m₀ with peer := m.peer }, ⟨rest, false⟩) := by
  have hflag := (flagsOf_spec m).2.1
  cases hpeer : m.peer with
  | none =>
    have hsame : { m₀ with peer := none } = m₀ := by rw [← hnone]
    simp [readPeer, hflag.2 hpeer, hsame]
  | some p =>
    have hset : ¬ flagsOf m &&& 1 = 0 := by simp [hflag, hpeer]
    have hrelays := arrayDecode_arrayEncode ipv4Decode_ipv4Encode (h p hpeer) rest
    simp [readPeer, hset, encodePeerRecord, List.append_assoc, fixedDecode_append, hrelays]

lemma readRefresh_encode (hnone : m₀.refresh = none) (rest : List UInt8) :
    readRefresh (flagsOf m) m₀ ⟨(m.refresh.map List.Vector.toList).getD [] ++ rest, false⟩ =
      ({ m₀ with refresh := m.refresh }, ⟨rest, false⟩) := by
  have hflag := (flagsOf_spec m).2.2.1
  cases hrefresh : m.refresh with
  | none =>
    have hsame : { m₀ with refresh := none } = m₀ := by rw [← hnone]
    simp [readRefresh, hflag.2 hrefresh, hsame]
  | some token =>
    have hset : ¬ flagsOf m &&& 2 = 0 := by simp [hflag, hrefresh]
    simp [readRefresh, hset, fixedDecode_append]

lemma readSignature_encode (hnone : m₀.signature = none) (rest : List UInt8) :
    readSignature (flagsOf m) m₀ ⟨(m.signature.map List.Vector.toList).getD [] ++ rest, false⟩ =
      ({ m₀ with signature := m.signature }, ⟨rest, false⟩) := by
  have hflag := (flagsOf_spec m).2.2.2.1
  cases hsignature : m.signature with
  | none =>
    have hsame : { m₀ with signature := none } = m₀ := by rw [← hnone]
    simp [readSignature, hflag.2 hsignature, hsame]
  | some signature =>
    have hset : ¬ flagsOf m &&& 4 = 0 := by simp [hflag, hsignature]
    simp [readSignature, hset, fixedDecode_append]

lemma readBump_encode (hnone : m₀.bump = 0) :
    readBump (flagsOf m) m₀ ⟨if m.bump > 0 then uintEncode m.bump else [], false⟩ =
      { m₀ with bump := m.bump } := by
  have hflag := (flagsOf_spec m).2.2.2.2
  by_cases hbump : m.bump > 0
  · have hread := uintDecode_uintEncode m.bump []
    rw [List.append_nil] at hread
    simp [readBump, hflag, hbump, hread]
  · have hzero : m.bump = 0 := by simpa using hbump
    have hsame : { m₀ with bump := 0 } = m₀ := by rw [← hnone]
    rw [readBump, if_pos (hflag.2 hbump), hzero, hsame]

end

lemma encodeAnnounceMsg_eq (m : AnnounceMessage) : encodeAnnounceMsg m = uintEncode (flagsOf m) ++
    ((m.peer.map encodePeerRecord).getD [] ++ ((m.refresh.map List.Vector.toList).getD [] ++
      ((m.signature.map List.Vector.toList).getD [] ++
        if m.bump > 0 then uintEncode m.bump else []))) := by
  simp [encodeAnnounceMsg, flagsOf]

/-- **An announcement is read back** from its encoding. -/
theorem decodeAnnounceMsg_encodeAnnounceMsg (m : AnnounceMessage)
    (h : ∀ p, m.peer = some p → p.relayAddresses.length ≤ arrayMaxLength) :
    decodeAnnounceMsg (encodeAnnounceMsg m) = m := by
  have hfits : decide (flagsOf m > 0xFF) = false := decide_eq_false (flagsOf_spec m).1
  rw [encodeAnnounceMsg_eq, decodeAnnounceMsg, State.forDecode, uintDecode_uintEncode]
  simp only [hfits, Bool.or_false, Bool.false_eq_true, if_false, readFields]
  rw [readPeer_encode rfl h]
  simp only [Bool.false_eq_true, if_false]
  rw [readRefresh_encode rfl]
  simp only [Bool.false_eq_true, if_false]
  rw [readSignature_encode rfl]
  simp only [Bool.false_eq_true, if_false]
  rw [readBump_encode rfl]

/-! ## Mutable values -/

/-- The value of a request to store a mutable value. -/
structure MutablePutRequest where
  publicKey : List.Vector UInt8 32 := List.Vector.replicate 32 0
  seq : UInt64 := 0
  value : List UInt8 := []
  signature : List.Vector UInt8 64 := List.Vector.replicate 64 0
  deriving DecidableEq

def encodeMutablePut (m : MutablePutRequest) : List UInt8 :=
  m.publicKey.toList ++ uintEncode m.seq ++ bufferEncode m.value ++ m.signature.toList

def decodeMutablePut (data : List UInt8) : MutablePutRequest :=
  let key := fixedDecode 32 (.forDecode data)
  if key.2.error then { publicKey := key.1 }
  else
    let seq := uintDecode key.2
    if seq.2.error then { publicKey := key.1, seq := seq.1 }
    else
      let value := bufferDecode seq.2
      if value.2.error then { publicKey := key.1, seq := seq.1 }
      else
        { publicKey := key.1, seq := seq.1, value := value.1,
          signature := (fixedDecode 64 value.2).1 }

/-- A mutable value as it is stored and returned. -/
structure MutableGetResponse where
  seq : UInt64 := 0
  value : List UInt8 := []
  signature : List.Vector UInt8 64 := List.Vector.replicate 64 0
  deriving DecidableEq

def encodeMutableGetResp (m : MutableGetResponse) : List UInt8 :=
  uintEncode m.seq ++ bufferEncode m.value ++ m.signature.toList

def decodeMutableGetResp (data : List UInt8) : MutableGetResponse :=
  let seq := uintDecode (.forDecode data)
  if seq.2.error then { seq := seq.1 }
  else
    let value := bufferDecode seq.2
    if value.2.error then { seq := seq.1 }
    else { seq := seq.1, value := value.1, signature := (fixedDecode 64 value.2).1 }

/-- **A mutable value is read back** from its encoding. -/
theorem decodeMutableGetResp_encodeMutableGetResp (m : MutableGetResponse)
    (h : m.value.length ≤ maxBufferDecode) :
    decodeMutableGetResp (encodeMutableGetResp m) = m := by
  have hsignature := fixedDecode_append m.signature []
  rw [List.append_nil] at hsignature
  simp only [decodeMutableGetResp, encodeMutableGetResp, State.forDecode, List.append_assoc,
    uintDecode_uintEncode, bufferDecode_bufferEncode h, hsignature, Bool.false_eq_true, if_false]

/-! ## Lookups -/

/-- The value of a reply to a lookup, as its receiver reads it. -/
structure LookupRawReply where
  peers : List (List UInt8) := []
  bump : UInt64 := 0
  deriving DecidableEq

/-- The number of records a reply may have. -/
def maxLookupPeers : ℕ := 1024

/-- The loop over the records of a reply; null records are dropped. -/
def lookupLoop : ℕ → State → List (List UInt8) × State
  | 0, s => ([], s)
  | n + 1, s =>
    let peer := bufferDecode s
    if peer.2.error then ([], peer.2)
    else
      let peers := lookupLoop n peer.2
      (if peer.1.isEmpty then peers.1 else peer.1 :: peers.1, peers.2)

def decodeLookupReply (data : List UInt8) : LookupRawReply :=
  let count := uintDecode (.forDecode data)
  if count.2.error || count.1.toNat > maxLookupPeers then {}
  else
    let peers := lookupLoop count.1.toNat count.2
    if peers.2.error then { peers := peers.1 }
    else if peers.2.rest.isEmpty then { peers := peers.1 }
    else { peers := peers.1, bump := (uintDecode peers.2).1 }

/-- The array that `handle_lookup` writes: a count and the records. -/
def encodeLookupPeers (peers : List (List UInt8)) : List UInt8 :=
  uintEncode (UInt64.ofNat peers.length) ++ peers.flatMap bufferEncode

lemma lookupLoop_flatMap {peers : List (List UInt8)}
    (h : ∀ p ∈ peers, p ≠ [] ∧ p.length ≤ maxBufferDecode) (rest : List UInt8) :
    lookupLoop peers.length ⟨peers.flatMap bufferEncode ++ rest, false⟩ =
      (peers, ⟨rest, false⟩) := by
  induction peers with
  | nil => rfl
  | cons p peers ih =>
    obtain ⟨hne, hlen⟩ := h p List.mem_cons_self
    have hpeers := ih fun q hq => h q (List.mem_cons_of_mem p hq)
    simp [lookupLoop, List.flatMap_cons, List.append_assoc, bufferDecode_bufferEncode hlen, hpeers,
      hne]

/-- **The records of a lookup are read back.** -/
theorem decodeLookupReply_encodeLookupPeers {peers : List (List UInt8)}
    (hcount : peers.length ≤ maxLookupPeers)
    (h : ∀ p ∈ peers, p ≠ [] ∧ p.length ≤ maxBufferDecode) :
    (decodeLookupReply (encodeLookupPeers peers)).peers = peers := by
  have hlen : (UInt64.ofNat peers.length).toNat = peers.length := by
    rw [UInt64.toNat_ofNat']
    exact Nat.mod_eq_of_lt (by simp only [maxLookupPeers] at hcount; omega)
  have hloop := lookupLoop_flatMap h []
  rw [List.append_nil] at hloop
  simp [decodeLookupReply, encodeLookupPeers, State.forDecode, uintDecode_uintEncode, hlen, hloop,
    not_lt.2 hcount]

/-! ## Signatures -/

/-- The check of a detached signature over a text by the owner of a key. -/
abbrev Verify := List.Vector UInt8 64 → List UInt8 → List.Vector UInt8 32 → Bool

variable (blake2b : List UInt8 → NodeId)

def protocolName : List UInt8 :=
  "hyperswarm/dht".toList.map fun c => UInt8.ofNat c.toNat

/-- The namespace of a command. -/
def computeNs (cmd : UInt8) : NodeId :=
  blake2b ((blake2b protocolName).bytes.toList ++ [cmd])

def nsAnnounce : NodeId := computeNs blake2b 4
def nsUnannounce : NodeId := computeNs blake2b 5
def nsMutablePut : NodeId := computeNs blake2b 6

/-- What the signature of an announcement covers: the namespace, and the digest of the target, the
id of the node, the token, the peer and the refresh token. -/
def annSignable (ns target nodeId : NodeId) (token : List.Vector UInt8 32) (ann : AnnounceMessage) :
    List UInt8 :=
  let peer := (ann.peer.map encodePeerRecord).getD []
  let refresh := (ann.refresh.map List.Vector.toList).getD []
  ns.bytes.toList ++ (blake2b (target.bytes.toList ++ nodeId.bytes.toList ++ token.toList ++
    peer ++ refresh)).bytes.toList

def verifyAnnounce (verify : Verify) (ns target nodeId : NodeId) (token : List.Vector UInt8 32)
    (ann : AnnounceMessage) (signature : List.Vector UInt8 64)
    (publicKey : List.Vector UInt8 32) : Bool :=
  verify signature (annSignable blake2b ns target nodeId token ann) publicKey

def encodeMutableSignable (seq : UInt64) (value : List UInt8) : List UInt8 :=
  uintEncode seq ++ bufferEncode value

/-- What the signature of a mutable value covers: the namespace, and the digest of the number and
the value. -/
def mutableSignable (seq : UInt64) (value : List UInt8) : List UInt8 :=
  (nsMutablePut blake2b).bytes.toList ++
    (blake2b (encodeMutableSignable seq value)).bytes.toList

def verifyMutable (verify : Verify) (signature : List.Vector UInt8 64) (seq : UInt64)
    (value : List UInt8) (publicKey : List.Vector UInt8 32) : Bool :=
  verify signature (mutableSignable blake2b seq value) publicKey

end HyperDHT.Handlers
