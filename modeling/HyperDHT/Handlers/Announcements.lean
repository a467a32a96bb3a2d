import HyperDHT.Handlers.Basic
import HyperDHT.Rpc.Persistent

/-!
# Announcements and lookups

What becomes of an announcement. The message of an accepted announcement is stored as it was
received, and it is what a lookup returns. Its readers decode a peer record, so they take the field
of flags at the front of the message for the first bytes of the key. The store knows a record by the
address it was sent from, whatever key has signed it.

## Main definitions

* `Handlers.FindPeerServes`, `Handlers.LookupServes` — what the two read paths return.
* `Handlers.LookupAgreement` — what they return is read as the announced record.
* `Handlers.RepeatsFlags` — the announcements for which this is so.

## Main results

* `Handlers.agrees_iff_repeatsFlags` — an announced message is read as the announced record exactly
  when its key is its field of flags, in a long form, over and over, and it has no relays.
* `Handlers.lookupAgreement_iff` — the lookups of a run agree with the announcements exactly when
  all announcements that are stored are such messages.
* `Handlers.stored_announced` — what is stored was announced.
* `Handlers.other_senders_stay` — an announcement or a withdrawal leaves the records of other
  addresses, unless one of them is the oldest and has to give way.
-/

set_option autoImplicit false

namespace HyperDHT.Handlers

open Compact LittleEndian Routing Rpc

/-! ## Repeated prefixes -/

lemma take_append_eq_take_iff {α : Type*} {field rest : List α} (hne : field ≠ []) {n : ℕ} :
    (field ++ rest).take n = rest.take n ↔
      ∀ j < n, rest[j]? = field[j % field.length]? := by
  have hpos : 0 < field.length := List.length_pos_iff.2 hne
  have hfar : ∀ j, field.length ≤ j → (field ++ rest)[j]? = rest[j - field.length]? :=
    fun j hj => List.getElem?_append_right hj
  have hnear : ∀ j, j < field.length → (field ++ rest)[j]? = field[j % field.length]? := by
    intro j hj
    rw [List.getElem?_append_left hj, Nat.mod_eq_of_lt hj]
  have hmod : ∀ j, field.length ≤ j → j % field.length = (j - field.length) % field.length :=
    fun j hj => Nat.mod_eq_sub_mod hj
  constructor
  · intro h j
    induction j using Nat.strongRecOn with
    | ind j ih =>
      intro hj
      have hat : (field ++ rest)[j]? = rest[j]? := by
        have := congrArg (fun l => l[j]?) h
        simpa [List.getElem?_take, hj] using this
      rw [← hat]
      rcases lt_or_ge j field.length with hlt | hge
      · exact hnear j hlt
      · rw [hfar j hge, hmod j hge]
        exact ih (j - field.length) (by omega) (by omega)
  · intro h
    refine List.ext_getElem? fun j => ?_
    rw [List.getElem?_take, List.getElem?_take]
    split
    · next hj =>
      rw [h j hj]
      rcases lt_or_ge j field.length with hlt | hge
      · exact hnear j hlt
      · rw [hfar j hge, hmod j hge]
        exact h (j - field.length) (by omega)
    · rfl

/-! ## What was announced -/

lemma readRefresh_peer (flags : UInt64) (m : AnnounceMessage) (s : State) :
    (readRefresh flags m s).1.peer = m.peer := by
  unfold readRefresh
  split <;> rfl

lemma readSignature_peer (flags : UInt64) (m : AnnounceMessage) (s : State) :
    (readSignature flags m s).1.peer = m.peer := by
  unfold readSignature
  split <;> rfl

lemma readBump_peer (flags : UInt64) (m : AnnounceMessage) (s : State) :
    (readBump flags m s).peer = m.peer := by
  unfold readBump
  split <;> rfl

lemma readPeer_signature (flags : UInt64) (m : AnnounceMessage) (s : State) :
    (readPeer flags m s).1.signature = m.signature := by
  unfold readPeer
  split
  · rfl
  · dsimp only
    split
    · rfl
    · split <;> rfl

lemma readRefresh_signature (flags : UInt64) (m : AnnounceMessage) (s : State) :
    (readRefresh flags m s).1.signature = m.signature := by
  unfold readRefresh
  split <;> rfl

lemma readBump_signature (flags : UInt64) (m : AnnounceMessage) (s : State) :
    (readBump flags m s).signature = m.signature := by
  unfold readBump
  split <;> rfl

lemma readFields_peer (flags : UInt64) (s : State) :
    (readFields flags s).peer = (readPeer flags {} s).1.peer := by
  unfold readFields
  dsimp only
  split
  · rfl
  · split
    · exact readRefresh_peer _ _ _
    · split
      · rw [readSignature_peer, readRefresh_peer]
      · rw [readBump_peer, readSignature_peer, readRefresh_peer]

lemma readFields_signature {flags : UInt64} (h : flags &&& 4 = 0) (s : State) :
    (readFields flags s).signature = none := by
  have hskip : ∀ m s, (readSignature flags m s).1.signature = m.signature := by
    intro m s
    simp [readSignature, h]
  unfold readFields
  dsimp only
  split
  · exact readPeer_signature _ _ _
  · split
    · rw [readRefresh_signature, readPeer_signature]
    · split
      · rw [hskip, readRefresh_signature, readPeer_signature]
      · rw [readBump_signature, hskip, readRefresh_signature, readPeer_signature]

lemma decodeAnnounceMsg_ok {value : List UInt8} {peer : PeerRecord}
    {signature : List.Vector UInt8 64} (hpeer : (decodeAnnounceMsg value).peer = some peer)
    (hsignature : (decodeAnnounceMsg value).signature = some signature) :
    (uintDecode ⟨value, false⟩).2.error = false ∧ (uintDecode ⟨value, false⟩).1 ≤ 0xFF ∧
      (uintDecode ⟨value, false⟩).1 &&& 4 ≠ 0 ∧
      (readPeer (uintDecode ⟨value, false⟩).1 {} (uintDecode ⟨value, false⟩).2).1.peer =
        some peer := by
  by_cases hbad : ((uintDecode ⟨value, false⟩).2.error || (uintDecode ⟨value, false⟩).1 > 0xFF) =
      true
  · have hempty : decodeAnnounceMsg value = {} := if_pos hbad
    simp [hempty] at hpeer
  · have hfields : decodeAnnounceMsg value =
        readFields (uintDecode ⟨value, false⟩).1 (uintDecode ⟨value, false⟩).2 := if_neg hbad
    simp only [Bool.or_eq_true, not_or, Bool.not_eq_true, decide_eq_true_eq] at hbad
    rw [hfields] at hpeer hsignature
    rw [readFields_peer] at hpeer
    refine ⟨hbad.1, UInt64.not_lt.1 hbad.2, fun hzero => ?_, hpeer⟩
    simp [readFields_signature hzero] at hsignature

lemma readPeer_ok {flags : UInt64} {rest : List UInt8} {peer : PeerRecord}
    (h : (readPeer flags {} ⟨rest, false⟩).1.peer = some peer) :
    flags &&& 1 ≠ 0 ∧ 32 ≤ rest.length ∧ peer.publicKey.toList = rest.take 32 ∧
      (arrayDecode ipv4Decode ⟨rest.drop 32, false⟩).2.error = false ∧
      peer.relayAddresses = (arrayDecode ipv4Decode ⟨rest.drop 32, false⟩).1 := by
  unfold readPeer at h
  split at h
  · simp at h
  · next hflag =>
    dsimp only at h
    split at h
    · simp at h
    · next hkey =>
      obtain ⟨hlen, hbytes, hstate⟩ := fixedDecode_ok (Bool.eq_false_iff.2 hkey)
      rw [hstate] at h
      split at h
      · simp at h
      · next hrelays =>
        obtain rfl := Option.some.inj h
        exact ⟨hflag, hlen, hbytes, Bool.eq_false_iff.2 hrelays, rfl⟩

/-- The bytes of the flags at the front of a message. -/
def flagsField : List UInt8 → List UInt8
  | [] => []
  | first :: tail => first :: tail.take (uintWidth first)

lemma five_le_of_flags {first : UInt8} (hone : first.toUInt64 &&& 1 ≠ 0)
    (hfour : first.toUInt64 &&& 4 ≠ 0) : 5 ≤ first.toNat := by
  have hbits : ∀ n < 256, UInt64.ofNat n &&& 1 ≠ 0 → UInt64.ofNat n &&& 4 ≠ 0 → 5 ≤ n := by
    decide +kernel
  have hofNat : first.toUInt64 = UInt64.ofNat first.toNat := by
    rw [← UInt64.toNat_inj, UInt8.toNat_toUInt64, UInt64.toNat_ofNat',
      Nat.mod_eq_of_lt (lt_trans first.toNat_lt (by decide))]
  rw [hofNat] at hone hfour
  exact hbits first.toNat first.toNat_lt hone hfour

/-- A field of flags in a long form has three, five or nine bytes; since flags are at most 255, those
after the second are zero. -/
lemma long_flagsField {first : UInt8} {tail : List UInt8} (hlong : ¬ first ≤ 0xFC)
    (hwidth : uintWidth first ≤ tail.length)
    (hsmall : UInt64.ofNat (ofLe (tail.take (uintWidth first))) ≤ 0xFF) :
    (flagsField (first :: tail)).length ∈ [3, 5, 9] ∧
      ∀ k, 2 ≤ k → k < (flagsField (first :: tail)).length →
        (flagsField (first :: tail))[k]? = some 0 := by
  have hfield : (flagsField (first :: tail)).length = 1 + uintWidth first := by
    simp [flagsField, hwidth, Nat.add_comm]
  have hmem : uintWidth first ∈ [2, 4, 8] := by
    simp only [uintWidth, hlong, if_false]
    split
    · simp
    · split <;> simp
  simp only [List.mem_cons, List.not_mem_nil, or_false] at hmem
  refine ⟨?_, fun k hk hlt => ?_⟩
  · rw [hfield]
    simp only [List.mem_cons, List.not_mem_nil, or_false]
    omega
  · have hnum : ofLe (tail.take (uintWidth first)) < 256 ^ 1 := by
      have hbound := ofLe_lt (tail.take (uintWidth first))
      rw [List.length_take, min_eq_left hwidth] at hbound
      have hpow : 256 ^ uintWidth first ≤ 2 ^ 64 :=
        (Nat.pow_le_pow_right (by decide) (show uintWidth first ≤ 8 by omega)).trans (by decide)
      rw [UInt64.le_iff_toNat_le, UInt64.toNat_ofNat',
        Nat.mod_eq_of_lt (lt_of_lt_of_le hbound hpow)] at hsmall
      simp only [UInt64.reduceToNat] at hsmall
      omega
    obtain ⟨j, rfl⟩ : ∃ j, k = j + 1 := ⟨k - 1, by omega⟩
    have hj : j < (tail.take (uintWidth first)).length := by
      rw [hfield] at hlt
      rw [List.length_take, min_eq_left hwidth]
      omega
    rw [flagsField, List.getElem?_cons_succ, List.getElem?_eq_getElem hj,
      eq_zero_of_ofLe_lt hnum (by omega) hj]

lemma announced_shape {value : List UInt8} {peer : PeerRecord} {signature : List.Vector UInt8 64}
    (hpeer : (decodeAnnounceMsg value).peer = some peer)
    (hsignature : (decodeAnnounceMsg value).signature = some signature) :
    ∃ rest, value = flagsField value ++ rest ∧ 32 ≤ rest.length ∧
      peer.publicKey.toList = rest.take 32 ∧
      (arrayDecode ipv4Decode ⟨rest.drop 32, false⟩).2.error = false ∧
      peer.relayAddresses = (arrayDecode ipv4Decode ⟨rest.drop 32, false⟩).1 ∧
      ((∃ first : UInt8, flagsField value = [first] ∧ first ≤ 0xFC ∧ 5 ≤ first.toNat) ∨
        ((flagsField value).length ∈ [3, 5, 9] ∧
          ∀ k, 2 ≤ k → k < (flagsField value).length → (flagsField value)[k]? = some 0)) := by
  obtain ⟨hread, hsmall, hfour, hreadPeer⟩ := decodeAnnounceMsg_ok hpeer hsignature
  obtain ⟨first, tail, rfl, hwidth, hstate, hflags⟩ := uintDecode_ok hread
  rw [hstate] at hreadPeer
  obtain ⟨hone, hlen, hkey, hrelays, haddrs⟩ := readPeer_ok hreadPeer
  refine ⟨tail.drop (uintWidth first), by simp [flagsField], hlen, hkey, hrelays, haddrs, ?_⟩
  rcases hflags with ⟨hshort, hvalue⟩ | ⟨hlong, hvalue⟩
  · rw [hvalue] at hone hfour
    exact .inl ⟨first, by simp [flagsField, uintWidth, hshort], hshort,
      five_le_of_flags hone hfour⟩
  · rw [hvalue] at hsmall
    exact .inr (long_flagsField hlong hwidth hsmall)

/-! ## What is read of an announcement -/

/-- A stored message is read as the announced record, and that has at most three relays. -/
def Agrees (value : List UInt8) : Prop :=
  ∃ peer, (decodeAnnounceMsg value).peer = some peer ∧ decodePeerRecord value = peer ∧
    peer.relayAddresses.length ≤ maxRelayAddresses

/-- The message of a peer without relays whose flags are in a long form, and whose key is the field
of flags over and over. -/
structure RepeatsFlags (value : List UInt8) (peer : PeerRecord) : Prop where
  noRelays : peer.relayAddresses = []
  longForm : 1 < (flagsField value).length
  repeated : ∀ j < 32,
    peer.publicKey.toList[j]? = (flagsField value)[j % (flagsField value).length]?

lemma decodePeerRecord_of_le {value : List UInt8} (h : 32 ≤ value.length) :
    (decodePeerRecord value).publicKey.toList = value.take 32 ∧
      (decodePeerRecord value).relayAddresses =
        (arrayDecode ipv4Decode ⟨value.drop 32, false⟩).1 := by
  have hkey : fixedDecode 32 ⟨value, false⟩ =
      (⟨value.take 32, by simp [h]⟩, ⟨value.drop 32, false⟩) := by
    rw [fixedDecode, dif_pos ⟨rfl, h⟩]
    rfl
  simp [decodePeerRecord, State.forDecode, hkey]

lemma drop_of_repeated {field rest : List UInt8} (hne : field ≠ []) (hle : field.length ≤ 32)
    (hlen : 32 ≤ rest.length) (h : ∀ j < 32, rest[j]? = field[j % field.length]?) :
    ∃ b, field[32 % field.length]? = some b ∧
      (field ++ rest).drop 32 = b :: rest.drop (33 - field.length) := by
  have hpos : 0 < field.length := List.length_pos_iff.2 hne
  have hlt : 32 - field.length < rest.length := by omega
  refine ⟨rest[32 - field.length], ?_, ?_⟩
  · rw [← List.getElem?_eq_getElem hlt, h (32 - field.length) (by omega),
      ← Nat.mod_eq_sub_mod hle]
  · rw [List.drop_append, List.drop_eq_nil_of_le hle, List.nil_append,
      List.drop_eq_getElem_cons hlt, show 32 - field.length + 1 = 33 - field.length by omega]

lemma long_field_at {field : List UInt8} (hmem : field.length ∈ [3, 5, 9])
    (hzero : ∀ k, 2 ≤ k → k < field.length → field[k]? = some 0) :
    field[32 % field.length]? = some 0 := by
  simp only [List.mem_cons, List.not_mem_nil, or_false] at hmem
  have hlong : 2 ≤ 32 % field.length ∧ 32 % field.length < field.length := by
    rcases hmem with h | h | h <;> rw [h] <;> decide
  exact hzero _ hlong.1 hlong.2

lemma arrayDecode_zero (rest : List UInt8) :
    (arrayDecode ipv4Decode ⟨0 :: rest, false⟩).1 = [] := by
  simp [arrayDecode, uintDecode, State.skip, arrayLoop]

/-- **What the readers of an announcement see**: the announced record exactly when the key repeats
the field of flags, in a long form, and there are no relays.

**Proof sketch.** The first thirty-two bytes of the message are the flags and all but the last bytes
of the key, so they are the key only if it repeats the flags. The byte after them, which is read as
the number of relays, is then one of the flags again: zero in a long form, at least five else. -/
theorem agrees_iff_repeatsFlags {value : List UInt8} {peer : PeerRecord}
    {signature : List.Vector UInt8 64} (hpeer : (decodeAnnounceMsg value).peer = some peer)
    (hsignature : (decodeAnnounceMsg value).signature = some signature) :
    Agrees value ↔ RepeatsFlags value peer := by
  obtain ⟨rest, hvalue, hlen, hkey, hrelays, haddrs, hform⟩ := announced_shape hpeer hsignature
  have hne : flagsField value ≠ [] := by
    rintro hnil
    simp [hnil] at hform
  have hshort : (flagsField value).length ≤ 9 := by
    rcases hform with ⟨first, hfield, -, -⟩ | ⟨hmem, -⟩
    · simp [hfield]
    · simp only [List.mem_cons, List.not_mem_nil, or_false] at hmem
      omega
  have hfit : 32 ≤ value.length := by
    rw [hvalue, List.length_append]
    omega
  obtain ⟨hreadKey, hreadRelays⟩ := decodePeerRecord_of_le hfit
  -- the key that is read is the announced one exactly when it repeats the flags
  have hrepeat : (decodePeerRecord value).publicKey = peer.publicKey ↔
      ∀ j < 32, rest[j]? = (flagsField value)[j % (flagsField value).length]? := by
    rw [← take_append_eq_take_iff hne, ← hvalue, ← hreadKey, ← hkey]
    exact ⟨congrArg _, List.Vector.eq _ _⟩
  have hkeyAt : ∀ j < 32, peer.publicKey.toList[j]? = rest[j]? := by
    intro j hj
    rw [hkey, List.getElem?_take, if_pos hj]
  constructor
  · rintro ⟨peer', hpeer', hread, hfew⟩
    obtain rfl : peer' = peer := Option.some.inj (hpeer'.symm.trans hpeer)
    have hall := hrepeat.1 (congrArg PeerRecord.publicKey hread)
    have hread' : (arrayDecode ipv4Decode ⟨value.drop 32, false⟩).1 = peer'.relayAddresses := by
      rw [← hreadRelays, hread]
    obtain ⟨b, hb, hdrop⟩ := drop_of_repeated hne (by omega) hlen hall
    rw [← hvalue] at hdrop
    rw [hdrop] at hread'
    rcases hform with ⟨first, hfield, hfirst, hfive⟩ | ⟨hmem, hzero⟩
    · -- the number of relays that is read is that of the flags
      exfalso
      have hb' : b = first := by simpa [hfield, eq_comm] using hb
      have hcount : uintDecode ⟨b :: rest.drop (33 - (flagsField value).length), false⟩ =
          (first.toUInt64, ⟨rest.drop 32, false⟩) := by
        simp [uintDecode, hb', hfirst, State.skip, hfield]
      have hfirstNat : first.toUInt64.toNat = first.toNat := UInt8.toNat_toUInt64 first
      have hcap : ¬ first.toNat > arrayMaxLength := by
        have := first.toNat_lt
        simp only [arrayMaxLength]
        omega
      simp only [arrayDecode, hcount, hfirstNat, Bool.false_or, hcap, decide_false,
        Bool.false_eq_true, if_false] at hread'
      have hmany := length_arrayLoop_ipv4 first.toNat (rest.drop 32)
      have hsize := arrayDecode_ok hrelays
      rw [hread'] at hmany
      rw [← haddrs] at hsize
      simp only [maxRelayAddresses] at hfew
      omega
    · obtain rfl : b = 0 := Option.some.inj (hb.symm.trans (long_field_at hmem hzero))
      refine ⟨?_, ?_, fun j hj => (hkeyAt j hj).trans (hall j hj)⟩
      · rw [← hread', arrayDecode_zero]
      · simp only [List.mem_cons, List.not_mem_nil, or_false] at hmem
        omega
  · intro h
    have hall : ∀ j < 32, rest[j]? = (flagsField value)[j % (flagsField value).length]? :=
      fun j hj => (hkeyAt j hj).symm.trans (h.repeated j hj)
    obtain ⟨b, hb, hdrop⟩ := drop_of_repeated hne (by omega) hlen hall
    rw [← hvalue] at hdrop
    obtain rfl : b = 0 := by
      rcases hform with ⟨first, hfield, -, -⟩ | ⟨hmem, hzero⟩
      · have := h.longForm
        simp [hfield] at this
      · exact Option.some.inj (hb.symm.trans (long_field_at hmem hzero))
    have hnone : (decodePeerRecord value).relayAddresses = peer.relayAddresses := by
      rw [hreadRelays, hdrop, arrayDecode_zero, h.noRelays]
    exact ⟨peer, hpeer, PeerRecord.ext (hrepeat.2 hall) hnone, by simp [h.noRelays]⟩

/-! ## Agreement of lookups and announcements -/

/-- A request for a target. -/
def requestFor (command : UInt32) (target : NodeId) : Incoming where
  fromAddr := Ipv4Address.zero
  command := command
  target := some target
  valueFits := none_fits

section Serves

variable (env : HandlerEnv) (s : RpcHandlers) (target : NodeId) (v : List UInt8)

/-- A search for a peer without a record in the router is answered with the bytes. -/
def FindPeerServes : Prop :=
  ∃ req resp, req.target = some target ∧ (s.router.bind fun record => record target) = none ∧
    (s.handleFindPeer env req).2 = some resp ∧ resp.value = some v

/-- A lookup is answered with an array that has the bytes as an element. -/
def LookupServes : Prop :=
  ∃ req resp bytes, req.target = some target ∧ (s.handleLookup env req).2 = some resp ∧
    resp.value = some bytes ∧ v ∈ (decodeLookupReply bytes).peers

end Serves

/-- What the read paths return is read as the announced record. -/
def LookupAgreement (env : HandlerEnv) (s : RpcHandlers) : Prop :=
  ∀ target v, FindPeerServes env s target v ∨ LookupServes env s target v → Agrees v

/-- The store is within its bounds, and what it holds can be put into an array. -/
structure Servable (s : RpcHandlers) : Prop where
  bounded : s.store.Bounded
  fits : s.store.Holds fun _ r => r.value ≠ [] ∧ r.value.length ≤ maxBufferDecode

variable {env : HandlerEnv} {s : RpcHandlers}

lemma handleLookup_value (h : Servable s) {req : Incoming} {target : NodeId}
    (htarget : req.target = some target) (hne : s.store.get target ≠ []) :
    ∃ resp bytes, (s.handleLookup env req).2 = some resp ∧ resp.value = some bytes ∧
      (decodeLookupReply bytes).peers = (s.store.get target).map (·.value) := by
  have hall : (s.store.get target).take maxPeersPerTarget = s.store.get target :=
    List.take_of_length_le (h.bounded target)
  have hread : (decodeLookupReply (encodeLookupPeers
      ((s.store.get target).map (·.value)))).peers = (s.store.get target).map (·.value) := by
    refine decodeLookupReply_encodeLookupPeers ?_ fun p hp => ?_
    · rw [List.length_map]
      exact (h.bounded target).trans (by decide)
    · obtain ⟨r, hr, rfl⟩ := List.mem_map.1 hp
      exact h.fits target r hr
  have hreply : (s.handleLookup env req).2 = some { s.makeQueryResponse env req with
      value := some (encodeLookupPeers ((s.store.get target).map (·.value))) } := by
    simp [RpcHandlers.handleLookup, htarget, hall, hne]
  exact ⟨_, _, hreply, rfl, hread⟩

lemma lookupAgreement_iff_holds (h : Servable s) :
    LookupAgreement env s ↔ s.store.Holds fun _ r => Agrees r.value := by
  constructor
  · intro hagree target r hr
    have hne : s.store.get target ≠ [] := List.ne_nil_of_mem hr
    obtain ⟨resp, bytes, hresp, hbytes, hpeers⟩ :=
      @handleLookup_value env s h (requestFor cmdLookup target) target rfl hne
    refine hagree target r.value (.inr ⟨_, resp, bytes, rfl, hresp, hbytes, ?_⟩)
    rw [hpeers]
    exact List.mem_map_of_mem hr
  · rintro hall target v (⟨req, resp, htarget, hrouter, hresp, hv⟩ |
      ⟨req, resp, bytes, htarget, hresp, hbytes, hv⟩)
    · -- the last record, if there is one
      simp only [RpcHandlers.handleFindPeer, htarget, hrouter] at hresp
      split at hresp
      · obtain rfl := Option.some.inj hresp
        simp [RpcHandlers.makeQueryResponse] at hv
      · next last hlast =>
        obtain rfl := Option.some.inj hresp
        obtain rfl := Option.some.inj hv
        exact hall target last (List.mem_of_getLast? hlast)
    · by_cases hne : s.store.get target = []
      · simp only [RpcHandlers.handleLookup, htarget, hne, List.take_nil, List.isEmpty_nil,
          if_true, Option.some.injEq] at hresp
        subst hresp
        simp [RpcHandlers.makeQueryResponse] at hbytes
      · obtain ⟨resp', bytes', hresp', hbytes', hpeers⟩ :=
          @handleLookup_value env s h req target htarget hne
        obtain rfl := Option.some.inj (hresp'.symm.trans hresp)
        obtain rfl := Option.some.inj (hbytes'.symm.trans hbytes)
        rw [hpeers] at hv
        obtain ⟨r, hr, rfl⟩ := List.mem_map.1 hv
        exact hall target r hr

/-- The announcement that a step stores. -/
def StoresAnnouncement (env : HandlerEnv) (s : RpcHandlers) (i : RpcHandlers.Input)
    (target : NodeId) (value : List UInt8) (peer : PeerRecord) : Prop :=
  ∃ now id req, i = .request now id req ∧ s.node.socket.closing = false ∧
    (s.heard env id req).Reaches req cmdAnnounce ∧
    RpcHandlers.AcceptsAnnounce env (s.heard env id req) req target value peer ∧
    s.store.hasRoom target = true

/-- If a step stores an announcement, its key repeats its flags. -/
def AnnouncesRepeating (env : HandlerEnv) (s : RpcHandlers) (i : RpcHandlers.Input) : Prop :=
  ∀ target value peer, StoresAnnouncement env s i target value peer → RepeatsFlags value peer

lemma agrees_of_accepts_iff {req : Incoming} {target : NodeId} {value : List UInt8}
    {peer : PeerRecord} (h : RpcHandlers.AcceptsAnnounce env s req target value peer) :
    Agrees value ↔ RepeatsFlags value peer := by
  obtain ⟨-, -, _, _, -, -, hpeer, hsignature, -⟩ := h
  exact agrees_iff_repeatsFlags hpeer hsignature

lemma fits_of_accepts {req : Incoming} {target : NodeId} {value : List UInt8} {peer : PeerRecord}
    (h : RpcHandlers.AcceptsAnnounce env s req target value peer) :
    value ≠ [] ∧ value.length ≤ maxBufferDecode := by
  obtain ⟨-, hvalue, _, _, -, -, hpeer, -, -⟩ := h
  refine ⟨?_, req.valueFits value hvalue⟩
  rintro rfl
  simp [decodeAnnounceMsg, State.forDecode, uintDecode, State.fail] at hpeer

lemma holds_step {P : NodeId → PeerAnnouncement → Prop} (hs : s.store.Holds P)
    {i : RpcHandlers.Input}
    (hann : ∀ now id req target value peer, i = .request now id req →
      StoresAnnouncement env s i target value peer →
      P target { fromAddr := req.fromAddr, value, createdAt := now, ttl := s.annTtlMs }) :
    (s.step env i).store.Holds P := by
  have hstep := RpcHandlers.step_storage env s i
  generalize (s.step env i).store = store', (s.step env i).mutables = mutables',
    (s.step env i).immutables = immutables' at hstep ⊢
  cases hstep with
  | same | mutableGet | mutablePut | immutableGet | immutablePut => exact hs
  | @announce now id req target value peer hopen hreaches haccepts =>
    by_cases hroom : s.store.hasRoom target = true
    · exact hs.put (hann now id req target value peer rfl
        ⟨now, id, req, rfl, hopen, hreaches, haccepts, hroom⟩)
    · rwa [AnnounceStore.put, if_neg hroom]
  | unannounce => exact hs.of_subset (AnnounceStore.remove_subset _ _ _)
  | gc now => exact hs.of_subset (AnnounceStore.gc_subset _ now)

lemma servable_step (hs : Servable s) (i : RpcHandlers.Input) : Servable (s.step env i) := by
  refine ⟨?_, holds_step hs.fits ?_⟩
  · have hstep := RpcHandlers.step_storage env s i
    generalize (s.step env i).store = store', (s.step env i).mutables = mutables',
      (s.step env i).immutables = immutables' at hstep ⊢
    cases hstep with
    | same | mutableGet | mutablePut | immutableGet | immutablePut => exact hs.bounded
    | announce => exact hs.bounded.put _ _
    | unannounce => exact hs.bounded.remove _ _
    | gc now => exact hs.bounded.gc now
  · rintro _ _ _ target value peer - ⟨_, _, _, -, -, -, haccepts, -⟩
    exact fits_of_accepts haccepts

lemma servable_init (localId : NodeId) (firstTid : UInt16) (tokens : TokenStore)
    (config : RpcHandlers.StorageCacheConfig) :
    Servable (.init localId firstTid tokens config) := by
  refine ⟨fun target => ?_, fun target r hr => ?_⟩
  · simp [RpcHandlers.init, AnnounceStore.get]
  · simp [RpcHandlers.init, AnnounceStore.get] at hr

/-- In a run, an announcement for the target with the message was accepted. -/
def Announced (env : HandlerEnv) (s₀ : RpcHandlers) (is : List RpcHandlers.Input) (target : NodeId)
    (value : List UInt8) : Prop :=
  ∃ before now id req after peer, is = before ++ .request now id req :: after ∧
    RpcHandlers.AcceptsAnnounce env
      ((Runs.run (RpcHandlers.step env) s₀ before).heard env id req) req target value peer

/-- The input is an announcement for the target with the message of the record, and it is
accepted. -/
def Announces (env : HandlerEnv) (s : RpcHandlers) (i : RpcHandlers.Input) (target : NodeId)
    (r : PeerAnnouncement) : Prop :=
  ∃ now id req peer, i = .request now id req ∧
    RpcHandlers.AcceptsAnnounce env (s.heard env id req) req target r.value peer

lemma holds_stored_or_announces (s : RpcHandlers) (i : RpcHandlers.Input) :
    (s.step env i).store.Holds fun target r =>
      r ∈ s.store.get target ∨ Announces env s i target r := by
  refine holds_step (fun _ _ hr => .inl hr) ?_
  rintro _ _ _ target value peer - ⟨now, id, req, rfl, -, -, haccepts, -⟩
  exact .inr ⟨now, id, req, peer, rfl, haccepts⟩

/-- **What is stored was announced**, for the target under which it is stored. -/
theorem stored_announced (env : HandlerEnv) (localId : NodeId) (firstTid : UInt16)
    (tokens : TokenStore) (config : RpcHandlers.StorageCacheConfig)
    (is : List RpcHandlers.Input) :
    (Runs.run (RpcHandlers.step env) (.init localId firstTid tokens config) is).store.Holds
      fun target r => Announced env (.init localId firstTid tokens config) is target r.value := by
  intro target r hr
  have horigin := @Runs.origin _ _ (RpcHandlers.step env) (NodeId × PeerAnnouncement)
    (fun s x => x.2 ∈ s.store.get x.1) (fun s i x => Announces env s i x.1 x.2)
    (fun s i x hx => holds_stored_or_announces s i x.1 x.2 hx)
    (.init localId firstTid tokens config) is (target, r) hr
  rcases horigin with hfirst | ⟨before, _, after, hsplit, now, id, req, peer, rfl, haccepts⟩
  · simp [RpcHandlers.init, AnnounceStore.get] at hfirst
  · exact ⟨before, now, id, req, after, peer, hsplit, haccepts⟩

lemma lookupAgreement_step_iff (hs : Servable s) (hagree : LookupAgreement env s)
    (i : RpcHandlers.Input) :
    LookupAgreement env (s.step env i) ↔ AnnouncesRepeating env s i := by
  rw [lookupAgreement_iff_holds (servable_step hs i)]
  rw [lookupAgreement_iff_holds hs] at hagree
  constructor
  · rintro hall target value peer ⟨now, id, req, rfl, hopen, hreaches, haccepts, hroom⟩
    refine (agrees_of_accepts_iff haccepts).1 (hall target
      { fromAddr := req.fromAddr, value, createdAt := now, ttl := s.annTtlMs } ?_)
    rw [RpcHandlers.step_store_of_accepts hopen hreaches haccepts, AnnounceStore.get_put,
      if_pos ⟨rfl, hroom⟩]
    exact AnnounceStore.mem_putPeer_self _ _
  · intro hrepeats
    refine holds_step hagree fun now id req target value peer _ hstores => ?_
    have hrepeat := hrepeats target value peer hstores
    obtain ⟨_, _, _, -, -, -, haccepts, -⟩ := hstores
    exact (agrees_of_accepts_iff haccepts).2 hrepeat

/-- **Lookups agree with announcements exactly when the keys repeat the flags.** In every state of a
run every byte string that a search or a lookup returns is read as the announced record, with at
most three relays, if and only if every announcement that is stored in the run is one without relays
whose key is its field of flags, in a long form, over and over.

**Proof sketch.** What is served is what is stored, and what is stored are the messages of the
accepted announcements; a message is read as the announced record exactly when its key repeats its
flags. -/
theorem lookupAgreement_iff (env : HandlerEnv) (localId : NodeId) (firstTid : UInt16)
    (tokens : TokenStore) (config : RpcHandlers.StorageCacheConfig)
    (is : List RpcHandlers.Input) :
    Runs.EveryState (RpcHandlers.step env) (LookupAgreement env)
        (.init localId firstTid tokens config) is ↔
      Runs.EveryStep (RpcHandlers.step env) (AnnouncesRepeating env)
        (.init localId firstTid tokens config) is := by
  have hinit := servable_init localId firstTid tokens config
  refine Runs.everyState_iff_everyStep (I := Servable) (fun s i hs => servable_step hs i)
    (fun s i hs hagree => lookupAgreement_step_iff hs hagree i) hinit ?_
  refine (lookupAgreement_iff_holds hinit).2 fun target r hr => ?_
  simp [RpcHandlers.init, AnnounceStore.get] at hr

/-! ## A persistent node and its announcers -/

def namedSignerEnv : HandlerEnv where
  toEnv := RpcNode.crowdedEnv
  keyedHash := fun secret _ => secret
  verify := fun signature _ publicKey => signature.toList.take 32 = publicKey.toList

def someTokens : TokenStore := ⟨List.Vector.replicate 32 1, List.Vector.replicate 32 2⟩

def freshHandlers : RpcHandlers := .init NodeId.zero 1 someTokens {}
def becomePersistent : List RpcHandlers.Input := RpcNode.persistentRun.map .node

/-- The peer whose key is a byte over and over, without relays. -/
def peerOf (key : UInt8) : PeerRecord where
  publicKey := List.Vector.replicate 32 key

def someTarget : NodeId := RpcNode.paddedDigest [7]

/-- The message that the peer of a key signs. -/
def signedMessage (key : UInt8) : List UInt8 :=
  encodeAnnounceMsg
    { peer := some (peerOf key), signature := some (List.Vector.replicate 64 key) }

lemma length_signedMessage (key : UInt8) : (signedMessage key).length = 98 := by
  have hflags : uintEncode (1 ||| 0 ||| 4 ||| 0) = [5] := by decide
  have hcount : uintEncode (UInt64.ofNat 0) = [0] := by decide
  have hbump : ¬ ((0 : UInt64) > 0) := by decide
  simp only [signedMessage, encodeAnnounceMsg, encodePeerRecord, arrayEncode, peerOf,
    Option.isSome_some, Option.isSome_none, if_true, Bool.false_eq_true, if_false, Option.map_some,
    Option.map_none, Option.getD_some, Option.getD_none, List.length_nil, List.flatMap_nil, hflags,
    hcount, hbump, List.length_append, List.Vector.toList_length, List.length_cons]

/-- An announcement, or its withdrawal, that the peer of a key signs and sends from an address. -/
def signedRequest (command : UInt32) (key : UInt8) (addr : Ipv4Address) : Incoming where
  fromAddr := addr
  token := some someTokens.current
  command := command
  target := some someTarget
  value := some (signedMessage key)
  valueFits := by
    intro v hv
    rw [← Option.some.inj hv, length_signedMessage]
    decide

def someAddr : Ipv4Address := .ofOctets 10 0 0 1 7
def otherAddr : Ipv4Address := .ofOctets 10 0 0 2 7

/-- The handlers of a persistent node to which the peer of a key has announced itself. -/
def announcedTo (key : UInt8) : RpcHandlers :=
  Runs.run (RpcHandlers.step namedSignerEnv) freshHandlers
    (becomePersistent ++ [.request 0 none (signedRequest cmdAnnounce key someAddr)])

set_option maxRecDepth 10000 in
lemma findPeerServes_announced :
    FindPeerServes namedSignerEnv (announcedTo 9) someTarget (signedMessage 9) := by
  have hrouter : ((announcedTo 9).router.bind fun record => record someTarget) = none := by
    decide +kernel
  have hvalue : (((announcedTo 9).handleFindPeer namedSignerEnv
      (requestFor cmdFindPeer someTarget)).2.bind (·.value)) = some (signedMessage 9) := by
    decide +kernel
  obtain ⟨resp, hresp, hbytes⟩ := Option.bind_eq_some_iff.1 hvalue
  exact ⟨_, resp, rfl, hrouter, hresp, hbytes⟩

/-- **A search returns a record with another key**: a peer with the key of nines is announced, and
the search for it returns bytes that are read as a peer with a five and then nines. -/
theorem not_lookupAgreement_of_announced :
    ¬ Runs.EveryState (RpcHandlers.step namedSignerEnv) (LookupAgreement namedSignerEnv)
      freshHandlers
      (becomePersistent ++ [.request 0 none (signedRequest cmdAnnounce 9 someAddr)]) := by
  intro hall
  have hagree : LookupAgreement namedSignerEnv (announcedTo 9) := hall.run
  obtain ⟨peer, hpeer, hread, -⟩ := hagree someTarget _ (.inl findPeerServes_announced)
  have hannounced : (decodeAnnounceMsg (signedMessage 9)).peer = some (peerOf 9) := by
    decide +kernel
  have hother : decodePeerRecord (signedMessage 9) ≠ peerOf 9 := by decide +kernel
  exact hother (hread.trans (Option.some.inj (hpeer.symm.trans hannounced)))

/-! ## Records of other senders -/

/-- **An announcement or a withdrawal leaves the records of other addresses**: after a request every
record of every target that was sent from another address is still there, or it is the oldest record
of a target that had as many as it may have and to which the request announced one more. -/
theorem other_senders_stay (env : HandlerEnv) (s : RpcHandlers) (now : UInt64) (id : Option NodeId)
    (req : Incoming) {target : NodeId} {r : PeerAnnouncement} (hr : r ∈ s.store.get target)
    (hne : r.fromAddr ≠ req.fromAddr) :
    r ∈ (s.step env (.request now id req)).store.get target ∨
      req.command = cmdAnnounce ∧ req.target = some target ∧ ∃ value,
        AnnounceStore.evicted (s.store.get target)
          { fromAddr := req.fromAddr, value, createdAt := now, ttl := s.annTtlMs } = some r := by
  have hstep := RpcHandlers.step_storage env s (.request now id req)
  generalize (s.step env (.request now id req)).store = store',
    (s.step env (.request now id req)).mutables = mutables',
    (s.step env (.request now id req)).immutables = immutables' at hstep ⊢
  cases hstep with
  | same | mutableGet | mutablePut | immutableGet | immutablePut => exact .inl hr
  | @announce _ _ _ target' value peer _ hreaches haccepts =>
    rw [AnnounceStore.get_put]
    split
    · next htarget =>
      obtain ⟨rfl, -⟩ := htarget
      have hkept := @AnnounceStore.mem_putPeer_of_ne _
        { fromAddr := req.fromAddr, value, createdAt := now, ttl := s.annTtlMs } r hr hne
      rcases hkept with hin | hevicted
      · exact .inl hin
      · exact .inr ⟨hreaches.2.2, haccepts.1, value, hevicted⟩
    · exact .inl hr
  | @unannounce _ _ _ target' htarget =>
    rw [AnnounceStore.get_remove]
    split
    · next heq =>
      subst heq
      refine .inl (List.mem_filter.2 ⟨hr, ?_⟩)
      simpa using fun hsent => hne ((AnnounceStore.sentFrom_iff _ _).1 hsent)
    · exact .inl hr

set_option maxRecDepth 10000 in
/-- The record that a peer announced stays when another peer announces itself from another
address. -/
theorem other_senders_stay_announced :
    ∃ r ∈ (announcedTo 9).store.get someTarget,
      r ∈ ((announcedTo 9).step namedSignerEnv
          (.request 1 none (signedRequest cmdAnnounce 8 otherAddr))).store.get someTarget ∨
        (signedRequest cmdAnnounce 8 otherAddr).command = cmdAnnounce ∧
          (signedRequest cmdAnnounce 8 otherAddr).target = some someTarget ∧ ∃ value,
          AnnounceStore.evicted ((announcedTo 9).store.get someTarget)
            { fromAddr := otherAddr, value, createdAt := 1, ttl := (announcedTo 9).annTtlMs } =
              some r := by
  have hsender : ∀ r ∈ (announcedTo 9).store.get someTarget, r.fromAddr ≠ otherAddr := by
    decide +kernel
  have hannounced : (announcedTo 9).store.get someTarget ≠ [] := by
    decide +kernel
  obtain ⟨r, hr⟩ := List.exists_mem_of_ne_nil _ hannounced
  exact ⟨r, hr, other_senders_stay namedSignerEnv (announcedTo 9) 1 none _ hr (hsender r hr)⟩

/-- The key that a record announces. -/
def announcedKey (r : PeerAnnouncement) : Option (List.Vector UInt8 32) :=
  (decodeAnnounceMsg r.value).peer.map (·.publicKey)

set_option maxRecDepth 10000 in
/-- **Peers that share an address replace and remove each other's records**: the record of one key,
the only one of its target, is gone after a peer with another key announces itself from the same
address, and after it withdraws. -/
theorem announced_key_replaced :
    ∃ r ∈ (announcedTo 9).store.get someTarget,
      announcedKey r ≠ some (peerOf 8).publicKey ∧
      ((announcedTo 9).store.get someTarget).length < maxPeersPerTarget ∧
      r ∉ ((announcedTo 9).step namedSignerEnv
        (.request 1 none (signedRequest cmdAnnounce 8 someAddr))).store.get someTarget ∧
      r ∉ ((announcedTo 9).step namedSignerEnv
        (.request 1 none (signedRequest cmdUnannounce 8 someAddr))).store.get someTarget := by
  decide +kernel

end HyperDHT.Handlers
