import Mathlib.Data.Set.Function
import HyperDHT.Handlers.Records
import HyperDHT.Rpc.Swap

/-!
# What a signature binds

The strings that are hashed for a signature, `annInput` and `encodeMutableSignable`, determine what they
were made of. They are concatenations without outer lengths, so this rests on the codecs of the parts: a
number is a prefix code, an address has six bytes, and a refresh token of 32 bytes cannot be mistaken for
addresses, as 32 is no multiple of six.

## Main definitions

* `Handlers.annInput`, `Handlers.nsInput` — what is hashed for an announcement, and for a namespace.

## Main results

* `Compact.uintEncode_append_inj` — a number is a prefix code.
* `Handlers.annInput_inj`, `Handlers.encodeMutableSignable_inj` — the strings determine their parts.
* `Handlers.signables_bind` — a signature binds every field, as far as BLAKE2b does not collide.

## Design

A digest of 32 bytes is not injective on all strings, so that BLAKE2b is taken to be injective on the two
strings at hand.
-/

set_option autoImplicit false

namespace HyperDHT

open Compact Routing LittleEndian

namespace Compact

/-- **A number is a prefix code**: its encoding shows where it ends. -/
lemma uintEncode_append_inj {v w : UInt64} {r s : List UInt8}
    (h : uintEncode v ++ r = uintEncode w ++ s) : v = w ∧ r = s := by
  have hv := uintDecode_uintEncode v r
  rw [h, uintDecode_uintEncode] at hv
  obtain ⟨hvalue, hrest⟩ := Prod.mk.inj hv
  exact ⟨hvalue.symm, (congrArg State.rest hrest).symm⟩

lemma uintEncode_ne_nil (v : UInt64) : uintEncode v ≠ [] := by
  unfold uintEncode
  split_ifs <;> simp

lemma ipv4Encode_append_inj {a b : Ipv4Address} {r s : List UInt8}
    (h : ipv4Encode a ++ r = ipv4Encode b ++ s) : a = b ∧ r = s := by
  have ha := ipv4Decode_ipv4Encode a r
  rw [h, ipv4Decode_ipv4Encode] at ha
  obtain ⟨hvalue, hrest⟩ := Prod.mk.inj ha
  exact ⟨hvalue.symm, (congrArg State.rest hrest).symm⟩

lemma length_flatMap_ipv4Encode (items : List Ipv4Address) :
    (items.flatMap ipv4Encode).length = 6 * items.length := by
  induction items with
  | nil => rfl
  | cons item items ih =>
    have hsix : (ipv4Encode item).length = 6 := by simp [ipv4Encode]
    rw [List.flatMap_cons, List.length_append, ih, hsix, List.length_cons]
    omega

lemma flatMap_ipv4Encode_inj {items items' : List Ipv4Address} {r s : List UInt8}
    (hlen : items.length = items'.length)
    (h : items.flatMap ipv4Encode ++ r = items'.flatMap ipv4Encode ++ s) : items = items' ∧ r = s := by
  induction items generalizing items' with
  | nil =>
    obtain rfl := List.length_eq_zero_iff.1 hlen.symm
    exact ⟨rfl, h⟩
  | cons item items ih =>
    cases items' with
    | nil => cases hlen
    | cons item' items' =>
      simp only [List.flatMap_cons, List.append_assoc] at h
      obtain ⟨rfl, htail⟩ := ipv4Encode_append_inj h
      obtain ⟨rfl, hrest⟩ := ih (Nat.succ.inj hlen) htail
      exact ⟨rfl, hrest⟩

end Compact

namespace Handlers

variable (blake2b : List UInt8 → NodeId)

/-- What is hashed for the namespace of a command. -/
def nsInput (cmd : UInt8) : List UInt8 := (blake2b protocolName).bytes.toList ++ [cmd]

/-- The peer and the refresh token of an announcement, as they are hashed. -/
def peerInput (ann : AnnounceMessage) : List UInt8 := (ann.peer.map encodePeerRecord).getD []

def refreshInput (ann : AnnounceMessage) : List UInt8 := (ann.refresh.map List.Vector.toList).getD []

/-- What is hashed for an announcement. -/
def annInput (target nodeId : NodeId) (token : List.Vector UInt8 32) (ann : AnnounceMessage) :
    List UInt8 :=
  target.bytes.toList ++ nodeId.bytes.toList ++ token.toList ++ peerInput ann ++ refreshInput ann

lemma computeNs_eq (cmd : UInt8) : computeNs blake2b cmd = blake2b (nsInput blake2b cmd) := rfl

lemma annSignable_eq (ns target nodeId : NodeId) (token : List.Vector UInt8 32)
    (ann : AnnounceMessage) : annSignable blake2b ns target nodeId token ann =
      ns.bytes.toList ++ (blake2b (annInput target nodeId token ann)).bytes.toList := rfl

variable {blake2b}

/-! ## The strings determine their parts -/

lemma vector_append_inj {n : ℕ} {v w : List.Vector UInt8 n} {r s : List UInt8}
    (h : v.toList ++ r = w.toList ++ s) : v = w ∧ r = s := by
  obtain ⟨hvalue, hrest⟩ := List.append_inj h (by simp)
  exact ⟨List.Vector.eq v w hvalue, hrest⟩

lemma nodeId_append_inj {a b : NodeId} {r s : List UInt8}
    (h : a.bytes.toList ++ r = b.bytes.toList ++ s) : a = b ∧ r = s := by
  obtain ⟨hbytes, hrest⟩ := vector_append_inj h
  exact ⟨congrArg NodeId.mk hbytes, hrest⟩

lemma nodeId_toList_inj {a b : NodeId} (h : a.bytes.toList = b.bytes.toList) : a = b :=
  (@nodeId_append_inj a b [] [] (by simpa using h)).1

lemma length_refreshInput (ann : AnnounceMessage) :
    (refreshInput ann).length = 0 ∨ (refreshInput ann).length = 32 := by
  unfold refreshInput
  cases ann.refresh with
  | none => exact .inl rfl
  | some refresh => exact .inr refresh.toList_length

lemma refreshInput_inj {ann ann' : AnnounceMessage} (h : refreshInput ann = refreshInput ann') :
    ann.refresh = ann'.refresh := by
  have hlen := congrArg List.length h
  unfold refreshInput at h hlen
  cases hrefresh : ann.refresh with
  | none =>
    cases hrefresh' : ann'.refresh with
    | none => rfl
    | some refresh' => simp [hrefresh, hrefresh'] at hlen
  | some refresh =>
    cases hrefresh' : ann'.refresh with
    | none => simp [hrefresh, hrefresh'] at hlen
    | some refresh' =>
      rw [hrefresh, hrefresh'] at h
      exact congrArg some (List.Vector.eq _ _ h)

/-- **A record shows where it ends**, as long as what follows it is a refresh token or nothing: the
numbers of relays agree, for 32 is no multiple of six. -/
lemma encodePeerRecord_append_inj {p p' : PeerRecord} {r s : List UInt8}
    (hr : r.length = 0 ∨ r.length = 32) (hs : s.length = 0 ∨ s.length = 32)
    (h : encodePeerRecord p ++ r = encodePeerRecord p' ++ s) : p = p' ∧ r = s := by
  simp only [encodePeerRecord, arrayEncode, List.append_assoc] at h
  obtain ⟨hkey, hrelays⟩ := vector_append_inj h
  obtain ⟨-, hitems⟩ := uintEncode_append_inj hrelays
  have hlen := congrArg List.length hitems
  simp only [List.length_append, length_flatMap_ipv4Encode] at hlen
  obtain ⟨haddresses, hrest⟩ := flatMap_ipv4Encode_inj (by omega) hitems
  exact ⟨PeerRecord.ext hkey haddresses, hrest⟩

lemma lt_length_encodePeerRecord (p : PeerRecord) : 32 < (encodePeerRecord p).length := by
  have hcount := List.length_pos_iff.2 (uintEncode_ne_nil (UInt64.ofNat p.relayAddresses.length))
  simp only [encodePeerRecord, arrayEncode, List.length_append, List.Vector.toList_length]
  omega

/-- **The peer and the refresh token** of an announcement are determined by what is hashed of them. -/
lemma peerInput_inj {ann ann' : AnnounceMessage}
    (h : peerInput ann ++ refreshInput ann = peerInput ann' ++ refreshInput ann') :
    ann.peer = ann'.peer ∧ ann.refresh = ann'.refresh := by
  have hlen := congrArg List.length h
  have hrefresh := length_refreshInput ann
  have hrefresh' := length_refreshInput ann'
  rw [List.length_append, List.length_append] at hlen
  unfold peerInput at h hlen
  cases hpeer : ann.peer with
  | none =>
    cases hpeer' : ann'.peer with
    | none =>
      rw [hpeer, hpeer'] at h
      exact ⟨rfl, refreshInput_inj h⟩
    | some p' =>
      have hlong := lt_length_encodePeerRecord p'
      simp only [hpeer, hpeer', Option.map_none, Option.map_some, Option.getD_none,
        Option.getD_some, List.length_nil] at hlen
      omega
  | some p =>
    cases hpeer' : ann'.peer with
    | none =>
      have hlong := lt_length_encodePeerRecord p
      simp only [hpeer, hpeer', Option.map_none, Option.map_some, Option.getD_none,
        Option.getD_some, List.length_nil] at hlen
      omega
    | some p' =>
      rw [hpeer, hpeer'] at h
      obtain ⟨rfl, hrest⟩ := encodePeerRecord_append_inj hrefresh hrefresh' h
      exact ⟨rfl, refreshInput_inj hrest⟩

/-- **What is hashed for an announcement** determines all that it is made of. -/
theorem annInput_inj {target target' nodeId nodeId' : NodeId} {token token' : List.Vector UInt8 32}
    {ann ann' : AnnounceMessage}
    (h : annInput target nodeId token ann = annInput target' nodeId' token' ann') :
    target = target' ∧ nodeId = nodeId' ∧ token = token' ∧ ann.peer = ann'.peer ∧
      ann.refresh = ann'.refresh := by
  simp only [annInput, List.append_assoc] at h
  obtain ⟨htarget, hbehind⟩ := nodeId_append_inj h
  obtain ⟨hnode, hbehind⟩ := nodeId_append_inj hbehind
  obtain ⟨htoken, hbehind⟩ := vector_append_inj hbehind
  exact ⟨htarget, hnode, htoken, peerInput_inj hbehind⟩

lemma bufferEncode_eq (data : List UInt8) :
    bufferEncode data = uintEncode (UInt64.ofNat data.length) ++ data := by
  cases data with
  | nil => rfl
  | cons b data => simp [bufferEncode]

/-- **What is hashed for a mutable value** determines its number and the value. -/
theorem encodeMutableSignable_inj {seq seq' : UInt64} {value value' : List UInt8}
    (h : encodeMutableSignable seq value = encodeMutableSignable seq' value') :
    seq = seq' ∧ value = value' := by
  rw [encodeMutableSignable, encodeMutableSignable, bufferEncode_eq, bufferEncode_eq] at h
  obtain ⟨hseq, hbuffer⟩ := uintEncode_append_inj h
  exact ⟨hseq, (uintEncode_append_inj hbuffer).2⟩

/-! ## What a signature binds -/

lemma signable_inj {ns ns' digest digest' : NodeId}
    (h : ns.bytes.toList ++ digest.bytes.toList = ns'.bytes.toList ++ digest'.bytes.toList) :
    ns = ns' ∧ digest = digest' := by
  obtain ⟨rfl, hdigest⟩ := nodeId_append_inj h
  exact ⟨rfl, nodeId_toList_inj hdigest⟩

/-- **A signature binds every field**, as far as BLAKE2b does not collide on what is hashed: what is
signed for an announcement determines the namespace, the target, the node, the token, the peer and the
refresh token, what is signed for a mutable value determines its number and the value, and a namespace
determines its command.

**Proof sketch.** What is signed are two digests of 32 bytes, so both agree; the second is taken of a
string that determines its parts. -/
theorem signables_bind (blake2b : List UInt8 → NodeId) :
    (∀ (ns ns' target target' nodeId nodeId' : NodeId) (token token' : List.Vector UInt8 32)
        (ann ann' : AnnounceMessage),
      Set.InjOn blake2b {annInput target nodeId token ann, annInput target' nodeId' token' ann'} →
      annSignable blake2b ns target nodeId token ann =
        annSignable blake2b ns' target' nodeId' token' ann' →
      ns = ns' ∧ target = target' ∧ nodeId = nodeId' ∧ token = token' ∧ ann.peer = ann'.peer ∧
        ann.refresh = ann'.refresh) ∧
    (∀ (seq seq' : UInt64) (value value' : List UInt8),
      Set.InjOn blake2b {encodeMutableSignable seq value, encodeMutableSignable seq' value'} →
      mutableSignable blake2b seq value = mutableSignable blake2b seq' value' →
      seq = seq' ∧ value = value') ∧
    ∀ cmd cmd' : UInt8, Set.InjOn blake2b {nsInput blake2b cmd, nsInput blake2b cmd'} →
      computeNs blake2b cmd = computeNs blake2b cmd' → cmd = cmd' := by
  refine ⟨fun ns ns' target target' nodeId nodeId' token token' ann ann' hinj h => ?_,
    fun seq seq' value value' hinj h => ?_, fun cmd cmd' hinj h => ?_⟩
  · rw [annSignable_eq, annSignable_eq] at h
    obtain ⟨hns, hdigest⟩ := signable_inj h
    exact ⟨hns, annInput_inj (hinj (by simp) (by simp) hdigest)⟩
  · obtain ⟨-, hdigest⟩ := signable_inj h
    exact encodeMutableSignable_inj (hinj (by simp) (by simp) hdigest)
  · rw [computeNs_eq, computeNs_eq] at h
    have hinput := hinj (by simp) (by simp) h
    exact (List.cons.inj (List.append_cancel_left hinput)).1

/-- Two announcements that differ in what is not signed: the parts that are signed agree. -/
theorem signables_bind_bump :
    ({ peer := some {}, bump := 1 } : AnnounceMessage).peer = some {} ∧
      ({ peer := some {}, bump := 1 } : AnnounceMessage).refresh = none := by
  have hinj : Set.InjOn Rpc.RpcNode.paddedDigest
      {annInput .zero .zero (List.Vector.replicate 32 0) { peer := some {}, bump := 1 },
        annInput .zero .zero (List.Vector.replicate 32 0) { peer := some {} }} := by
    have hsame : annInput .zero .zero (List.Vector.replicate 32 0) { peer := some {}, bump := 1 } =
        annInput .zero .zero (List.Vector.replicate 32 0) { peer := some {} } := rfl
    rw [hsame, Set.pair_eq_singleton]
    exact Set.injOn_singleton _ _
  exact ((signables_bind Rpc.RpcNode.paddedDigest).1 .zero .zero .zero .zero .zero .zero _ _ _ _ hinj
    rfl).2.2.2.2

end Handlers

end HyperDHT
