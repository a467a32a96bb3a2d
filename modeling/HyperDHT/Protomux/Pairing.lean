import Mathlib.Data.List.Perm.Basic
import HyperDHT.Protomux.Network

/-!
# Pairing many channels of one key

Both ends may create several channels with the same `(protocol, id)`. An OPEN that arrives is
paired with the *first* channel of the key, if that one waits, and is stored in the *one* slot of
the key otherwise; a channel that is opened takes the OPEN from the slot, if there is one. So the
channels pair one to one only if they are opened in turn: a channel other than the first is
opened when an OPEN waits, and no OPEN arrives while another one waits.

## Main definitions

* `Protomux.PairingBijection` — all channels are open and point at each other one to one.
* `Protomux.Settled` — both ends have as many channels, all of them opened, and no frame is on
  its way.
* `Protomux.OpensInTurn` — the condition on the steps.

## Main results

* `Protomux.pairingBijection_of_opensInTurn` — runs of such steps pair one to one.
* `Protomux.not_pairingBijection_of_two_each` — two channels at each end, opened at once.

## Design

The invariant `InTurn` compares the local ids of one end in the order in which they were opened
with the remote ids in the order in which they arrived: the first few are paired in this order,
and at most one of either kind is left over, a local id of the first channel or a remote id in
the slot.
-/

set_option autoImplicit false

namespace HyperDHT.Protomux

open Mux

/-- The step is one of a run in which all channels have one `(protocol, id)`. -/
def SameChannel (protocol id : Bytes) : Input → Prop
  | .create _ protocol' aliases id' _ => protocol' = protocol ∧ aliases = [] ∧ id' = id
  | _ => True

/-- Both ends have as many channels, all of them were opened, and all frames were delivered. -/
structure Settled (n : Net) : Prop where
  count : (n.mux .a).channels.length = (n.mux .b).channels.length
  opened : ∀ s, ∀ c ∈ (n.mux s).channels, c.openSent = true
  delivered : ∀ s, n.link s = []

/-- Every channel is open, and "holds the other's local id" is a one-to-one correspondence and
symmetric. -/
structure PairingBijection (n : Net) : Prop where
  opened : ∀ s, ∀ c ∈ (n.mux s).channels, c.opened = true
  target : ∀ s, ∀ c ∈ (n.mux s).channels,
    ∃! d, d ∈ (n.mux s.other).channels ∧ c.remoteId = d.localId
  source : ∀ s, ∀ d ∈ (n.mux s).channels,
    ∃! c, c ∈ (n.mux s.other).channels ∧ c.remoteId = d.localId
  symmetric : ∀ s, ∀ c ∈ (n.mux s).channels, ∀ d ∈ (n.mux s.other).channels,
    c.remoteId = d.localId → d.remoteId = c.localId

/-- The channels of the key are opened in turn: a channel is created with a protocol and before
the local ids wrap around; a channel that is opened is the first one of its end or finds an OPEN
that waits; and an OPEN that arrives finds the first channel waiting or the slot empty. -/
def OpensInTurn (key : Key) (n : Net) : Input → Prop
  | .create s protocol _ _ _ => protocol.1 ≠ [] ∧ (n.mux s).nextLocalId ≠ 0
  | .open s p _ => ((n.mux s).channels.head?.any (·.ptr = p)) ∨
      ((n.mux s).pendingRemote key).isSome ∨
      ∀ c ∈ (n.mux s).channels, c.ptr = p → c.openSent = true
  | .deliver s => opensOf ((n.link s).head?.toList.map (·.origin)) = [] ∨
      ((n.mux s.other).channels.head?.any fun c => c.openSent && !c.opened) ∨
      (n.mux s.other).pendingRemote key = none
  | .send .. => True

instance (key : Key) (n : Net) : (i : Input) → Decidable (OpensInTurn key n i)
  | .create s protocol _ _ _ =>
    inferInstanceAs (Decidable (protocol.1 ≠ [] ∧ (n.mux s).nextLocalId ≠ 0))
  | .open s p _ => inferInstanceAs (Decidable (_ ∨ _ ∨
      ∀ c ∈ (n.mux s).channels, c.ptr = p → c.openSent = true))
  | .deliver _ => inferInstanceAs (Decidable (_ ∨ _ ∨ _))
  | .send .. => .isTrue trivial

lemma OpensInTurn.noWrap {key : Key} {n : Net} {i : Input} (h : OpensInTurn key n i) :
    NoWrap n i := by
  cases i with
  | create => exact h.2
  | «open» => trivial
  | send => trivial
  | deliver => trivial

/-! ## The invariant -/

/-- The channels all have one `(protocol, id)`, with a protocol, and answer to its key. -/
def OneKey (protocol id : Bytes) (m : Mux) : Prop :=
  ∀ c ∈ m.channels, c.protocol = protocol ∧ c.id = id ∧
    c.pairKeys = [buildPairKey protocol.1 id.1] ∧ c.protocol.1 ≠ []

/-- What is left over of the local ids `own`, in the order in which they were opened, and of the
remote ids `received`, in the order in which they arrived: nothing, the first channel, which
waits, or an OPEN that waits. -/
inductive LeftOver (m : Mux) (key : Key) : List UInt32 → List UInt32 → Prop
  | none (hpending : m.pendingRemote key = none) : LeftOver m key [] []
  | waits {c : Channel} (hpending : m.pendingRemote key = none)
      (hhead : m.channels.head? = some c) (hopened : c.opened = false) :
      LeftOver m key [c.localId] []
  | stored {remote : PendingOpen} (hpending : m.pendingRemote key = some remote) :
      LeftOver m key [] [remote.remoteLocalId]

/-- The local ids in the order in which they were opened are paired, one by one, with the remote
ids in the order in which they arrived. -/
def InTurn (m : Mux) (key : Key) (own received : List UInt32) : Prop :=
  ∃ pairs : List (UInt32 × UInt32), ∃ left right,
    (∀ x ∈ pairs, ∃ c ∈ m.channels, c.localId = x.1 ∧ c.opened = true ∧ c.remoteId = x.2) ∧
    own = pairs.map (·.1) ++ left ∧ received = pairs.map (·.2) ++ right ∧
    LeftOver m key left right

lemma OneKey.findByPairKey {protocol id : Bytes} {m : Mux} (h : OneKey protocol id m)
    (hwf : m.Wf) : m.findByPairKey (buildPairKey protocol.1 id.1) = m.channels.head? := by
  cases hchannels : m.channels with
  | nil => simp [Mux.findByPairKey, hchannels]
  | cons c l =>
    have hc : c ∈ m.channels := by simp [hchannels]
    simp [Mux.findByPairKey, hchannels, (hwf.channels c hc).destroyed, (h c hc).2.2.1]

lemma paired_of_kept {m m' : Mux} (h : Kept m m') {pairs : List (UInt32 × UInt32)}
    (hpairs : ∀ x ∈ pairs, ∃ c ∈ m.channels, c.localId = x.1 ∧ c.opened = true ∧
      c.remoteId = x.2) :
    ∀ x ∈ pairs, ∃ c ∈ m'.channels, c.localId = x.1 ∧ c.opened = true ∧ c.remoteId = x.2 := by
  intro x hx
  obtain ⟨c, hc, hid, hopened, hremote⟩ := hpairs x hx
  obtain ⟨c', hc', -, hid', -, -, hstate⟩ := h c hc
  obtain ⟨hopened', hremote'⟩ := hstate hopened
  exact ⟨c', hc', hid'.trans hid, hopened', hremote'.trans hremote⟩

lemma paired_concat {m : Mux} {pairs : List (UInt32 × UInt32)} {c : Channel} {l r : UInt32}
    (hpairs : ∀ x ∈ pairs, ∃ c ∈ m.channels, c.localId = x.1 ∧ c.opened = true ∧
      c.remoteId = x.2)
    (hc : c ∈ m.channels) (hid : c.localId = l) (hopened : c.opened = true)
    (hremote : c.remoteId = r) :
    ∀ x ∈ pairs ++ [(l, r)], ∃ c ∈ m.channels, c.localId = x.1 ∧ c.opened = true ∧
      c.remoteId = x.2 := by
  intro x hx
  rcases List.mem_append.1 hx with hx | hx
  · exact hpairs x hx
  · obtain rfl := List.mem_singleton.1 hx
    exact ⟨c, hc, hid, hopened, hremote⟩

lemma InTurn.congr {m m' : Mux} {key : Key} {own received : List UInt32}
    (h : InTurn m key own received) (hchannels : m'.channels = m.channels)
    (hpending : m'.pendingRemote = m.pendingRemote) : InTurn m' key own received := by
  obtain ⟨pairs, left, right, hpairs, hown, hreceived, hleft⟩ := h
  refine ⟨pairs, left, right, by rw [hchannels]; exact hpairs, hown, hreceived, ?_⟩
  cases hleft with
  | none hnone => exact .none (by rw [hpending]; exact hnone)
  | waits hnone hhead hopened =>
    exact .waits (by rw [hpending]; exact hnone) (by rw [hchannels]; exact hhead) hopened
  | stored hsome => exact .stored (by rw [hpending]; exact hsome)

lemma InTurn.create {m : Mux} {key : Key} {own received : List UInt32}
    (h : InTurn m key own received) (protocol : Bytes) (aliases : List Bytes) (id : Bytes)
    (unique : Bool) : InTurn (m.createChannel protocol aliases id unique).1 key own received := by
  obtain ⟨pairs, left, right, hpairs, hown, hreceived, hleft⟩ := h
  refine ⟨pairs, left, right, paired_of_kept (kept_create m protocol aliases id unique) hpairs,
    hown, hreceived, ?_⟩
  have hpending : (m.createChannel protocol aliases id unique).1.pendingRemote =
      m.pendingRemote := by
    simp only [createChannel]
    split_ifs <;> rfl
  have hhead : ∀ {c}, m.channels.head? = some c →
      (m.createChannel protocol aliases id unique).1.channels.head? = some c := by
    intro c hc
    simp only [createChannel]
    split_ifs <;> simp [hc]
  cases hleft with
  | none hnone => exact .none (by rw [hpending]; exact hnone)
  | waits hnone hfirst hopened => exact .waits (by rw [hpending]; exact hnone) (hhead hfirst) hopened
  | stored hsome => exact .stored (by rw [hpending]; exact hsome)

lemma head?_modifyChannel {m : Mux} {c : Channel} (hhead : m.channels.head? = some c)
    (f : Channel → Channel) : (m.modifyChannel c.ptr f).channels.head? = some (f c) := by
  simp [modifyChannel, List.head?_map, hhead]

lemma InTurn.openFirst {m : Mux} {key : Key} {own received : List UInt32}
    (h : InTurn m key own received) (hready : Ready m)
    (hsends : ∀ r, r ∈ own ↔ ∃ c ∈ m.channels, c.localId = r ∧ c.openSent = true)
    {c : Channel} (hc : c ∈ m.channels) (hsent : c.openSent = false) (hopened : c.opened = false)
    (hhead : m.channels.head? = some c) (hpending : m.pendingRemote key = none) :
    InTurn (markSent m c) key (own ++ [c.localId]) received := by
  obtain ⟨pairs, left, right, hpairs, rfl, rfl, hleft⟩ := h
  cases hleft with
  | none =>
    refine ⟨pairs, [c.localId], [], paired_of_kept (kept_markSent hready.wf hc) hpairs, by simp,
      rfl, ?_⟩
    exact @LeftOver.waits (markSent m c) key { c with openSent := true } hpending
      (head?_modifyChannel hhead _) hopened
  | @waits d _ hfirst _ =>
    obtain rfl : d = c := Option.some.inj (hfirst.symm.trans hhead)
    obtain ⟨e, he, hid, hesent⟩ := (hsends d.localId).1 (by simp)
    rw [hready.eq_of_localId he hc hid, hsent] at hesent
    cases hesent
  | stored hsome =>
    rw [hsome] at hpending
    cases hpending

lemma InTurn.openPending {m : Mux} {key : Key} {own received : List UInt32}
    (h : InTurn m key own received) (hready : Ready m) {c : Channel} (hc : c ∈ m.channels)
    (hopened : c.opened = false) {remote : PendingOpen}
    (hpending : m.pendingRemote key = some remote) :
    InTurn ({ markSent m c with
      pendingRemote := Function.update m.pendingRemote key none }.link c.ptr remote) key
      (own ++ [c.localId]) received := by
  have hmem : { c with openSent := true } ∈ (markSent m c).channels :=
    (hready.wf.mem_modifyChannel hc _).2 (Or.inl rfl)
  have hwf := ((hready.markSent hc).takePending key).wf
  have hkept := (kept_markSent hready.wf hc).trans (kept_link hwf hmem hopened remote)
  obtain ⟨pairs, left, right, hpairs, rfl, rfl, hleft⟩ := h
  cases hleft with
  | none hnone =>
    rw [hnone] at hpending
    cases hpending
  | waits hnone =>
    rw [hnone] at hpending
    cases hpending
  | @stored remote' hsome =>
    obtain rfl : remote' = remote := Option.some.inj (hsome.symm.trans hpending)
    refine ⟨pairs ++ [(c.localId, remote'.remoteLocalId)], [], [], ?_, by simp, by simp, ?_⟩
    · exact paired_concat (paired_of_kept hkept hpairs)
        ((hwf.mem_link hmem remote').2 (Or.inl rfl)) rfl rfl rfl
    · exact .none (by simp [Mux.link])

lemma InTurn.arrivePaired {m : Mux} {key : Key} {own received : List UInt32}
    (h : InTurn m key own received) (hready : Ready m)
    (hsends : ∀ r, r ∈ own ↔ ∃ c ∈ m.channels, c.localId = r ∧ c.openSent = true)
    {c : Channel} (hc : c ∈ m.channels) (hhead : m.channels.head? = some c)
    (hsent : c.openSent = true) (hopened : c.opened = false) (remote : PendingOpen) :
    InTurn (m.link c.ptr remote) key own (received ++ [remote.remoteLocalId]) := by
  obtain ⟨pairs, left, right, hpairs, rfl, rfl, hleft⟩ := h
  -- a channel whose OPEN was sent and that is not open is not among the pairs
  have hnot : c.localId ∉ pairs.map (·.1) := by
    intro hin
    obtain ⟨x, hx, hid⟩ := List.mem_map.1 hin
    obtain ⟨d, hd, hdid, hdo, -⟩ := hpairs x hx
    rw [hready.eq_of_localId hd hc (hdid.trans hid), hopened] at hdo
    cases hdo
  have hin := (hsends c.localId).2 ⟨c, hc, rfl, hsent⟩
  cases hleft with
  | none => exact absurd (by simpa using hin) hnot
  | stored => exact absurd (by simpa using hin) hnot
  | @waits d hnone hfirst _ =>
    obtain rfl : d = c := Option.some.inj (hfirst.symm.trans hhead)
    refine ⟨pairs ++ [(d.localId, remote.remoteLocalId)], [], [], ?_, by simp, by simp,
      .none hnone⟩
    exact paired_concat (paired_of_kept (kept_link hready.wf hc hopened remote) hpairs)
      ((hready.wf.mem_link hc remote).2 (Or.inl rfl)) rfl rfl rfl

lemma InTurn.arriveStored {m : Mux} {key : Key} {own received : List UInt32}
    (h : InTurn m key own received)
    (hsends : ∀ r, r ∈ own ↔ ∃ c ∈ m.channels, c.localId = r ∧ c.openSent = true)
    (hready : Ready m) (hbusy : ∀ c, m.channels.head? = some c → c.openSent = true →
      c.opened = true)
    (hpending : m.pendingRemote key = none) (remote : PendingOpen) (events : List Event) :
    InTurn { m with
        pendingRemote := Function.update m.pendingRemote key (some remote)
        events := events } key own (received ++ [remote.remoteLocalId]) := by
  obtain ⟨pairs, left, right, hpairs, rfl, rfl, hleft⟩ := h
  cases hleft with
  | none =>
    exact ⟨pairs, [], [remote.remoteLocalId], hpairs, rfl, by simp, .stored (by simp)⟩
  | @waits c _ hfirst hopened =>
    have hc : c ∈ m.channels := List.mem_of_mem_head? hfirst
    obtain ⟨d, hd, hid, hdsent⟩ := (hsends c.localId).1 (by simp)
    obtain rfl := hready.eq_of_localId hd hc hid
    rw [hbusy d hfirst hdsent] at hopened
    cases hopened
  | stored hsome =>
    rw [hsome] at hpending
    cases hpending

/-! ## One step -/

/-- The invariant of runs in which the channels of one `(protocol, id)` are opened in turn. -/
structure TurnByTurn (protocol id : Bytes) (n : Net) : Prop where
  wf : n.Wf
  oneKey : ∀ s, OneKey protocol id (n.mux s)
  inTurn : ∀ s, InTurn (n.mux s) (buildPairKey protocol.1 id.1) (opensOf (n.history s))
    (n.deliveredOpens s.other)

section OneKey

variable {protocol id : Bytes} {m : Mux}

lemma OneKey.create (h : OneKey protocol id m) (hprotocol : protocol.1 ≠ []) (unique : Bool) :
    OneKey protocol id (m.createChannel protocol [] id unique).1 := by
  simp only [createChannel]
  split_ifs
  · exact h
  · exact h
  · intro c hc
    rcases List.mem_append.1 hc with hc | hc
    · exact h c hc
    · obtain rfl := List.mem_singleton.1 hc
      exact ⟨rfl, rfl, rfl, hprotocol⟩

lemma OneKey.markSent (h : OneKey protocol id m) (hwf : m.Wf) {c : Channel}
    (hc : c ∈ m.channels) : OneKey protocol id (markSent m c) := by
  intro d hd
  rcases (hwf.mem_modifyChannel hc _).1 hd with rfl | ⟨hd, -⟩
  · exact h c hc
  · exact h d hd

lemma OneKey.link (h : OneKey protocol id m) (hwf : m.Wf) {c : Channel} (hc : c ∈ m.channels)
    (remote : PendingOpen) : OneKey protocol id (m.link c.ptr remote) := by
  intro d hd
  rcases (hwf.mem_link hc remote).1 hd with rfl | ⟨hd, -⟩
  · exact h c hc
  · exact h d hd

end OneKey

lemma TurnByTurn.post {protocol id : Bytes} {n : Net} (h : TurnByTurn protocol id n) {t : Side}
    {m : Mux} {packet : Packet} (hwf : (n.post t m packet).Wf) (honeKey : OneKey protocol id m)
    (hturn : InTurn m (buildPairKey protocol.1 id.1)
      (opensOf (n.history t) ++ opensOf [packet.origin]) (n.deliveredOpens t.other)) :
    TurnByTurn protocol id (n.post t m packet) := by
  refine ⟨hwf, fun s => ?_, fun s => ?_⟩
  · rcases eq_or_ne s t with rfl | hne
    · simpa [Net.post] using honeKey
    · simpa [Net.post, hne] using h.oneKey s
  · rcases eq_or_ne s t with rfl | hne
    · simpa [Net.post, Net.deliveredOpens] using hturn
    · simpa [Net.post, Net.deliveredOpens, hne] using h.inTurn s

lemma TurnByTurn.open {protocol id : Bytes} {n : Net} (h : TurnByTurn protocol id n) (t : Side)
    (p : Ptr) (handshake : Bytes)
    (hturn : OpensInTurn (buildPairKey protocol.1 id.1) n (.open t p handshake)) :
    TurnByTurn protocol id (netStep n (.open t p handshake)) := by
  have hready := h.wf.ready t
  have hwf' := netWf_step h.wf (.open t p handshake) trivial
  have hsends := (h.wf.sends t).opens
  rcases Net.open_cases hready p handshake with
    heq | ⟨c, hc, rfl, hsent, hopened, ⟨hnone, heq⟩ | ⟨k, hk, remote, hremote, heq⟩⟩ <;>
    rw [heq] at hwf' ⊢
  · exact h
  · have hpending : (n.mux t).pendingRemote (buildPairKey protocol.1 id.1) = none :=
      hnone _ (by rw [(h.oneKey t c hc).2.2.1]; exact List.mem_singleton_self _)
    -- no OPEN waits, so the channel is the first one
    have hhead : (n.mux t).channels.head? = some c := by
      rcases hturn with hfirst | hwaits | hagain
      · cases hd : (n.mux t).channels.head? with
        | none => simp [hd] at hfirst
        | some d =>
          have hptr : d.ptr = c.ptr := by simpa [hd] using hfirst
          rw [hready.wf.eq_of_ptr (List.mem_of_mem_head? hd) hc hptr]
      · rw [hpending] at hwaits
        cases hwaits
      · rw [hagain c hc rfl] at hsent
        cases hsent
    refine h.post hwf' ((h.oneKey t).markSent hready.wf hc) ?_
    exact (h.inTurn t).openFirst hready hsends hc hsent hopened hhead hpending
  · obtain rfl : k = buildPairKey protocol.1 id.1 := by
      rw [(h.oneKey t c hc).2.2.1] at hk
      exact List.mem_singleton.1 hk
    have hmem : { c with openSent := true } ∈ (markSent (n.mux t) c).channels :=
      (hready.wf.mem_modifyChannel hc _).2 (Or.inl rfl)
    have hwf := ((hready.markSent hc).takePending (buildPairKey protocol.1 id.1)).wf
    have honeKey : OneKey protocol id { markSent (n.mux t) c with
        pendingRemote := Function.update (n.mux t).pendingRemote
          (buildPairKey protocol.1 id.1) none } :=
      (h.oneKey t).markSent hready.wf hc
    exact h.post hwf' (honeKey.link hwf hmem remote)
      ((h.inTurn t).openPending hready hc hopened hremote)

lemma TurnByTurn.arrive {protocol id : Bytes} {n : Net} (h : TurnByTurn protocol id n) {t : Side}
    {m : Mux} {rest : List Packet} {delivery : Delivery}
    (hwf : (n.arrive t m rest delivery).Wf) (honeKey : OneKey protocol id m)
    (hturn : InTurn m (buildPairKey protocol.1 id.1) (opensOf (n.history t.other))
      (n.deliveredOpens t ++ opensOf [delivery.origin])) :
    TurnByTurn protocol id (n.arrive t m rest delivery) := by
  refine ⟨hwf, fun s => ?_, fun s => ?_⟩
  · rcases eq_or_ne s t.other with rfl | hne
    · simpa [Net.arrive] using honeKey
    · simpa [Net.arrive, hne] using h.oneKey s
  · rcases eq_or_ne s t.other with rfl | hne
    · simpa [Net.arrive, Net.deliveredOpens] using hturn
    · have hs : s = t := by simpa using Side.eq_other_of_ne hne
      subst hs
      simpa [Net.arrive, Net.deliveredOpens] using h.inTurn s

lemma TurnByTurn.deliver {protocol id : Bytes} {n : Net} (h : TurnByTurn protocol id n) (t : Side)
    (hturn : OpensInTurn (buildPairKey protocol.1 id.1) n (.deliver t)) :
    TurnByTurn protocol id (netStep n (.deliver t)) := by
  have hready := h.wf.ready t.other
  have hwf' := netWf_step h.wf (.deliver t) trivial
  have hsends := (h.wf.sends t.other).opens
  have hold := h.inTurn t.other
  have honeKey := h.oneKey t.other
  have hfind := honeKey.findByPairKey hready.wf
  rw [Side.other_other] at hold
  rcases Net.deliver_cases h.wf t with
    ⟨-, heq⟩ | ⟨packet, rest, m, dispatches, hlink, harrival, heq⟩ <;> rw [heq] at hwf' ⊢
  · exact h
  · obtain ⟨origin, frame⟩ := packet
    cases harrival with
    | @dropped c hc hprotocol => exact absurd hprotocol (h.oneKey t c hc).2.2.2
    | @paired c d remote hc hd hid hkey hfirst hsent hopened =>
      rw [(h.oneKey t c hc).1, (h.oneKey t c hc).2.1, hfind] at hfirst
      refine h.arrive hwf' (honeKey.link hready.wf hd remote) ?_
      have hnext := hold.arrivePaired hready hsends hd hfirst hsent hopened remote
      rwa [hid] at hnext
    | @stored c remote events hc hid hbusy =>
      rw [(h.oneKey t c hc).1, (h.oneKey t c hc).2.1, hfind] at hbusy
      have hpending : (n.mux t.other).pendingRemote (buildPairKey protocol.1 id.1) = none := by
        rcases hturn with hmessage | hwaits | hnone
        · simp [hlink] at hmessage
        · cases hhead : (n.mux t.other).channels.head? with
          | none => simp [hhead] at hwaits
          | some d =>
            simp only [hhead, Option.any_some, Bool.and_eq_true, Bool.not_eq_true'] at hwaits
            rw [hbusy d hhead hwaits.1] at hwaits
            cases hwaits.2
        · exact hnone
      refine h.arrive hwf' honeKey ?_
      have hnext := hold.arriveStored hsends hready hbusy hpending remote events
      rw [hid] at hnext
      simpa [(h.oneKey t c hc).1, (h.oneKey t c hc).2.1] using hnext
    | lost => exact h.arrive hwf' honeKey (by simpa using hold)
    | @dispatched c type data q events =>
      refine h.arrive hwf' honeKey ?_
      simpa using @InTurn.congr _ { n.mux t.other with events := events } _ _ _ hold rfl rfl

lemma turnByTurn_step {protocol id : Bytes} (n : Net) (i : Input) (h : TurnByTurn protocol id n)
    (hstep : SameChannel protocol id i ∧ OpensInTurn (buildPairKey protocol.1 id.1) n i) :
    TurnByTurn protocol id (netStep n i) := by
  obtain ⟨hsame, hturn⟩ := hstep
  have hwf' := netWf_step h.wf i hturn.noWrap
  cases i with
  | create t protocol' aliases id' unique =>
    obtain ⟨rfl, rfl, rfl⟩ := hsame
    refine ⟨hwf', fun s => ?_, fun s => ?_⟩
    · rcases eq_or_ne s t with rfl | hne
      · simpa [netStep] using (h.oneKey s).create hturn.1 unique
      · simpa [netStep, hne] using h.oneKey s
    · rcases eq_or_ne s t with rfl | hne
      · simpa [netStep, Net.deliveredOpens] using (h.inTurn s).create protocol' [] id' unique
      · simpa [netStep, Net.deliveredOpens, hne] using h.inTurn s
  | «open» t p handshake => exact h.open t p handshake hturn
  | send t p messageType data =>
    rcases Net.send_cases (h.wf.ready t) p messageType data with heq | ⟨c, -, -, -, heq⟩ <;>
      rw [heq] at hwf' ⊢
    · exact h
    · exact h.post hwf' (h.oneKey t) (by simpa using h.inTurn t)
  | deliver t => exact h.deliver t hturn

lemma turnByTurn_init (protocol id : Bytes) : TurnByTurn protocol id {} where
  wf := netWf_init
  oneKey := fun _ => by simp [OneKey]
  inTurn := fun _ => ⟨[], [], [], by simp, rfl, rfl, .none rfl⟩

/-! ## The pairing -/

lemma Net.Wf.length_opens {n : Net} (h : n.Wf) {s : Side}
    (hopened : ∀ c ∈ (n.mux s).channels, c.openSent = true) :
    (opensOf (n.history s)).length = (n.mux s).channels.length := by
  have hnodup : ((n.mux s).channels.map (·.localId)).Nodup := by
    refine List.Nodup.map_on (fun c hc d hd hid => ?_) (List.Nodup.of_map _ (h.ready s).wf.nodup)
    exact (h.ready s).eq_of_localId hc hd hid
  have hperm : (opensOf (n.history s)).Perm ((n.mux s).channels.map (·.localId)) := by
    refine (List.perm_ext_iff_of_nodup (h.sends s).nodup hnodup).2 fun r => ?_
    rw [(h.sends s).opens, List.mem_map]
    constructor
    · rintro ⟨c, hc, hid, -⟩
      exact ⟨c, hc, hid⟩
    · rintro ⟨c, hc, hid⟩
      exact ⟨c, hc, hid, hopened c hc⟩
  rw [hperm.length_eq, List.length_map]

lemma TurnByTurn.exists_pairs {protocol id : Bytes} {n : Net} (h : TurnByTurn protocol id n)
    (hsettled : Settled n) (s : Side) :
    ∃ pairs : List (UInt32 × UInt32),
      (∀ x ∈ pairs, ∃ c ∈ (n.mux s).channels, c.localId = x.1 ∧ c.opened = true ∧
        c.remoteId = x.2) ∧
      opensOf (n.history s) = pairs.map (·.1) ∧ opensOf (n.history s.other) = pairs.map (·.2) := by
  have hlen : (opensOf (n.history s)).length = (opensOf (n.history s.other)).length := by
    rw [h.wf.length_opens (hsettled.opened s), h.wf.length_opens (hsettled.opened s.other)]
    cases s
    · exact hsettled.count
    · exact hsettled.count.symm
  have hdelivered : n.deliveredOpens s.other = opensOf (n.history s.other) := by
    rw [h.wf.fifo s.other, hsettled.delivered, List.map_nil, List.append_nil]
    rfl
  have hturn := h.inTurn s
  rw [hdelivered] at hturn
  obtain ⟨pairs, left, right, hpairs, hown, hreceived, hleft⟩ := hturn
  rw [hown, hreceived] at hlen
  cases hleft with
  | none => exact ⟨pairs, hpairs, by simpa using hown, by simpa using hreceived⟩
  | waits => simp at hlen
  | stored => simp at hlen

lemma TurnByTurn.pairing {protocol id : Bytes} {n : Net} (h : TurnByTurn protocol id n)
    (hsettled : Settled n) (s : Side) {c : Channel} (hc : c ∈ (n.mux s).channels) :
    c.opened = true ∧ ∃ d ∈ (n.mux s.other).channels, c.remoteId = d.localId ∧
      d.remoteId = c.localId := by
  obtain ⟨pairs, hpairs, hfst, hsnd⟩ := h.exists_pairs hsettled s
  obtain ⟨pairs', hpairs', hfst', hsnd'⟩ := h.exists_pairs hsettled s.other
  rw [Side.other_other] at hsnd'
  have hswap : pairs' = pairs.map Prod.swap := by
    refine List.ext_getElem ?_ fun j h₁ h₂ => ?_
    · have := congrArg List.length (hsnd'.symm.trans hfst)
      simpa using this
    · have hone : (pairs'.map (·.1))[j]? = (pairs.map (·.2))[j]? := by rw [← hfst', ← hsnd]
      have htwo : (pairs'.map (·.2))[j]? = (pairs.map (·.1))[j]? := by rw [← hsnd', ← hfst]
      have h₂' : j < pairs.length := by simpa using h₂
      simp only [List.getElem?_map, List.getElem?_eq_getElem h₁, List.getElem?_eq_getElem h₂',
        Option.map_some, Option.some.injEq] at hone htwo
      rw [List.getElem_map]
      exact Prod.ext hone htwo
  have hin : c.localId ∈ opensOf (n.history s) :=
    ((h.wf.sends s).opens _).2 ⟨c, hc, rfl, hsettled.opened s c hc⟩
  rw [hfst] at hin
  obtain ⟨x, hx, hid⟩ := List.mem_map.1 hin
  obtain ⟨e, he, heid, heo, her⟩ := hpairs x hx
  obtain rfl := (h.wf.ready s).eq_of_localId he hc (heid.trans hid)
  obtain ⟨d, hd, hdid, -, hdr⟩ := hpairs' x.swap (hswap ▸ List.mem_map_of_mem hx)
  exact ⟨heo, d, hd, her.trans hdid.symm, hdr.trans hid⟩

lemma TurnByTurn.bijection {protocol id : Bytes} {n : Net} (h : TurnByTurn protocol id n)
    (hsettled : Settled n) : PairingBijection n := by
  have hsymm : ∀ s, ∀ c ∈ (n.mux s).channels, ∀ d ∈ (n.mux s.other).channels,
      c.remoteId = d.localId → d.remoteId = c.localId := by
    intro s c hc d hd hcd
    obtain ⟨-, e, he, hce, hec⟩ := h.pairing hsettled s hc
    rwa [(h.wf.ready s.other).eq_of_localId hd he (hcd.symm.trans hce)]
  refine ⟨fun s c hc => (h.pairing hsettled s hc).1, fun s c hc => ?_, fun s d hd => ?_, hsymm⟩
  · obtain ⟨-, d, hd, hcd, -⟩ := h.pairing hsettled s hc
    refine ⟨d, ⟨hd, hcd⟩, fun e he => ?_⟩
    exact (h.wf.ready s.other).eq_of_localId he.1 hd (he.2.symm.trans hcd)
  · obtain ⟨-, c, hc, hdc, hcd⟩ := h.pairing hsettled s hd
    refine ⟨c, ⟨hc, hcd⟩, fun e he => ?_⟩
    have hback := hsymm s.other e he.1 d (by simpa using hd) he.2
    exact (h.wf.ready s.other).eq_of_localId he.1 hc (hback.symm.trans hdc)

/-- **Pairing is one to one when the channels are opened in turn**: in every run of two connected
muxes whose channels have one `(protocol, id)` and are opened in turn, every settled state has
all channels open and paired one to one. -/
theorem pairingBijection_of_opensInTurn (protocol id : Bytes) (is : List Input)
    (hsame : ∀ i ∈ is, SameChannel protocol id i)
    (hturn : Runs.EveryStep netStep (OpensInTurn (buildPairKey protocol.1 id.1)) {} is) :
    Runs.EveryState netStep (fun n => Settled n → PairingBijection n) {} is := by
  have hboth : Runs.EveryStep netStep (fun n i => SameChannel protocol id i ∧
      OpensInTurn (buildPairKey protocol.1 id.1) n i) {} is :=
    hturn.and_of_forall hsame
  exact (Runs.everyState_of_everyStep turnByTurn_step (turnByTurn_init protocol id) hboth).mono
    fun _ hn => hn.bijection

/-! ## Two channels at each end -/

/-- The protocol `p`. -/
def protocolP : Bytes := .single 112

def emptyBytes : Bytes := .nil

def createTwoEach : List Input :=
  [.create .a protocolP [] emptyBytes false, .create .a protocolP [] emptyBytes false,
    .create .b protocolP [] emptyBytes false, .create .b protocolP [] emptyBytes false]

def inTurnRun : List Input :=
  createTwoEach ++ [.open .a 0 emptyBytes, .deliver .a, .open .b 1 emptyBytes, .deliver .b,
    .open .b 0 emptyBytes, .deliver .b, .open .a 1 emptyBytes, .deliver .a]

/-- The channels that are opened in turn are paired one to one. -/
theorem pairingBijection_inTurnRun : PairingBijection (Runs.run netStep {} inTurnRun) := by
  have hsettled : Settled (Runs.run netStep {} inTurnRun) := by
    refine ⟨by decide +kernel, ?_, ?_⟩
    · rintro (_ | _) <;> decide +kernel
    · rintro (_ | _) <;> rfl
  exact (pairingBijection_of_opensInTurn protocolP emptyBytes inTurnRun
    (by simp [inTurnRun, createTwoEach, SameChannel]) (by decide +kernel)).run hsettled

def atOnceRun : List Input :=
  createTwoEach ++ [.open .a 0 emptyBytes, .open .a 1 emptyBytes, .open .b 0 emptyBytes,
    .open .b 1 emptyBytes, .deliver .a, .deliver .a, .deliver .b, .deliver .b]

/-- The second channels stay closed: the OPEN of the second channel of the other end waits for a
channel that opens later. -/
theorem not_pairingBijection_of_two_each :
    ¬ Runs.EveryState netStep (fun n => Settled n → PairingBijection n) {} atOnceRun := by
  intro hall
  have hsettled : Settled (Runs.run netStep {} atOnceRun) := by
    refine ⟨by decide +kernel, ?_, ?_⟩
    · rintro (_ | _) <;> decide +kernel
    · rintro (_ | _) <;> rfl
  have hclosed : ∃ c ∈ ((Runs.run netStep {} atOnceRun).mux .a).channels, c.opened = false := by
    decide +kernel
  obtain ⟨c, hc, hopened⟩ := hclosed
  have := (hall.run hsettled).opened .a c hc
  simp [hopened] at this

end HyperDHT.Protomux
