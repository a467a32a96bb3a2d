import HyperDHT.Protomux.Invariant

/-!
# Two muxes over FIFO links

Two muxes whose write functions feed each other's `on_data` over reliable FIFO links, with any
interleaving of the calls on both sides and of the deliveries.

## Main definitions

* `Protomux.Net` — the two muxes, the frames in flight, and a record of what was written and of
  what was delivered.
* `Protomux.Input`, `Protomux.netStep` — the calls and the deliveries.
* `Protomux.Net.Wf` — the invariant of the network as long as no local id wraps around.

## Main results

* `Protomux.netWf_step` — the invariant is kept.
* `Protomux.Net.deliver_cases` — what a delivery comes to.

## Design

The record is not read by the code: each frame in flight carries its `Origin` (the OPEN of a
channel, or an accepted `send`), `history` lists the origins a side has written and `delivered`
those that have arrived, each with the dispatches its frame caused.
-/

set_option autoImplicit false

namespace HyperDHT.Protomux

open Mux

/-- One of the two ends. -/
inductive Side where
  | a
  | b
  deriving DecidableEq

/-- The other end. -/
def Side.other : Side → Side
  | .a => .b
  | .b => .a

@[simp] lemma Side.other_other (s : Side) : s.other.other = s := by
  cases s <;> rfl

@[simp] lemma Side.other_ne (s : Side) : s.other ≠ s := by
  cases s <;> decide

@[simp] lemma Side.ne_other (s : Side) : s ≠ s.other := by
  cases s <;> decide

lemma Side.eq_other_of_ne {s t : Side} (h : s ≠ t) : s = t.other := by
  cases s <;> cases t <;> simp_all [Side.other]

/-- Why a frame was written: the OPEN of the channel with a local id, or a message sent on a
channel. -/
inductive Origin where
  | open (localId : UInt32)
  | message (channel : Ptr) (type : UInt32) (data : List UInt8)
  deriving DecidableEq

/-- The local ids of the OPENs among some origins, in order. -/
def opensOf (origins : List Origin) : List UInt32 :=
  origins.filterMap fun
    | .open localId => some localId
    | .message .. => none

/-- A frame in flight. -/
structure Packet where
  origin : Origin
  frame : List UInt8

/-- A call of `Channel::dispatch`. -/
structure Dispatch where
  channel : Ptr
  type : UInt32
  data : List UInt8
  deriving DecidableEq

/-- The dispatches among some events, in order. -/
def dispatchesOf (events : List Event) : List Dispatch :=
  events.filterMap fun
    | .dispatch p type data => some ⟨p, type, data⟩
    | _ => none

/-- A frame that has arrived, with the dispatches it caused. -/
structure Delivery where
  origin : Origin
  dispatches : List Dispatch

/-- The network. -/
structure Net where
  mux : Side → Mux := fun _ => {}
  /-- The frames on their way from a side, first in first out. -/
  link : Side → List Packet := fun _ => []
  /-- What a side has written. -/
  history : Side → List Origin := fun _ => []
  /-- What a side has written that has arrived at the other side. -/
  delivered : Side → List Delivery := fun _ => []

/-- The calls on both sides, and the delivery of the first frame that is on its way from a
side. -/
inductive Input where
  | create (side : Side) (protocol : Bytes) (aliases : List Bytes) (id : Bytes) (unique : Bool)
  | open (side : Side) (channel : Ptr) (handshake : Bytes)
  | send (side : Side) (channel : Ptr) (messageType : Int32) (data : List UInt8)
  | deliver (side : Side)

namespace Net

/-- Move the frames a mux has written to its link. -/
def flush (n : Net) (s : Side) (m : Mux) (origin : Origin) (written : List Origin) : Net :=
  { n with
    mux := Function.update n.mux s { m with outbox := [] }
    link := Function.update n.link s (n.link s ++ m.outbox.map (⟨origin, ·⟩))
    history := Function.update n.history s (n.history s ++ written) }

/-- The local id of the channel a pointer points at. -/
def localIdOf (m : Mux) (p : Ptr) : UInt32 := ((m.channel? p).map (·.localId)).getD 0

/-- Deliver the first frame on its way from a side. -/
def deliver (n : Net) (s : Side) : Net :=
  match n.link s with
  | [] => n
  | packet :: rest =>
    let m := n.mux s.other
    let m' := m.onData packet.frame
    { n with
      mux := Function.update n.mux s.other m'
      link := Function.update n.link s rest
      delivered := Function.update n.delivered s
        (n.delivered s ++ [⟨packet.origin, dispatchesOf (m'.events.drop m.events.length)⟩]) }

end Net

/-- The network takes a step. -/
def netStep (n : Net) : Input → Net
  | .create s protocol aliases id unique =>
    { n with
      mux := Function.update n.mux s
        ((n.mux s).createChannel protocol aliases id unique).1 }
  | .open s p handshake =>
    let m := (n.mux s).channelOpen p handshake
    let origin := .open (Net.localIdOf (n.mux s) p)
    n.flush s m origin (m.outbox.map fun _ => origin)
  | .send s p messageType data =>
    let (m, accepted) := (n.mux s).channelSend p messageType data
    let origin := .message p messageType.toUInt32 data
    n.flush s m origin (if accepted then [origin] else [])
  | .deliver s => n.deliver s

/-! ## Frames -/

lemma toUInt64_toUInt32 (r : UInt32) : r.toUInt64.toUInt32 = r := by
  simp

lemma not_gt_uint32Max (r : UInt32) : ¬ r.toUInt64 > uint32Max := by
  have hlt := r.toNat_lt
  rw [gt_iff_lt, UInt64.lt_iff_toNat_lt, UInt32.toNat_toUInt64]
  simp only [uint32Max, UInt64.reduceToNat]
  omega

lemma messageType_roundTrip (messageType : Int32) :
    messageType.toInt64.toUInt64.toUInt32 = messageType.toUInt32 := by
  apply UInt32.toBitVec_inj.1
  simp only [UInt64.toBitVec_toUInt32, Int64.toBitVec_toUInt64, Int32.toBitVec_toInt64,
    Int32.toBitVec_toUInt32]
  apply BitVec.eq_of_getLsbD_eq
  intro i hi
  simp only [BitVec.getLsbD_setWidth, BitVec.getLsbD_signExtend, hi, decide_true, Bool.true_and,
    if_true, Bool.and_eq_right_iff_imp]
  intro _
  simp
  omega

lemma onData_openFrame (m : Mux) {localId : UInt32} (hid : localId ≠ 0)
    (protocol id handshake : Bytes) :
    m.onData (openFrame localId protocol id handshake) =
      if protocol.1 = [] then m
      else m.receiveOpen ⟨localId, handshake.1, protocol.1, id.1⟩ := by
  have hid' : localId.toUInt64 ≠ 0 := by
    intro h
    exact hid (by simpa using congrArg UInt64.toUInt32 h)
  have hcalls : onDataCalls (openFrame localId protocol id handshake) =
      [.open (varintEncode localId.toUInt64 ++ bufferEncode protocol ++ bufferEncode id ++
        bufferEncode handshake)] := by
    simp only [openFrame, List.append_assoc, onDataCalls, varintDecode_varintEncode,
      controlCalls]
    simp [varintEncode_ne_nil, controlOpen, controlBatch]
  have hdecode : decodeOpen (varintEncode localId.toUInt64 ++ bufferEncode protocol ++
      bufferEncode id ++ bufferEncode handshake) =
      if protocol.1 = [] then none else some ⟨localId, handshake.1, protocol.1, id.1⟩ := by
    have hlast := bufferDecode_bufferEncode handshake []
    rw [List.append_nil] at hlast
    simp only [decodeOpen, List.append_assoc, varintDecode_varintEncode,
      bufferDecode_bufferEncode, hlast, hid', not_gt_uint32Max, or_self, if_false,
      toUInt64_toUInt32]
  rw [Mux.onData, hcalls, List.foldl_cons, List.foldl_nil, handle, handleOpen, hdecode]
  by_cases hprotocol : protocol.1 = [] <;> simp [hprotocol]

lemma onData_dataFrame {m : Mux} (hwf : m.Wf) {r : UInt32} (hid : r ≠ 0) (messageType : Int32)
    (data : List UInt8) :
    m.onData (dataFrame r messageType data) =
      match m.remoteToChannel r with
      | none => m
      | some p => m.dispatch p messageType.toUInt32 data := by
  have hid' : r.toUInt64 ≠ 0 := by
    intro h
    exact hid (by simpa using congrArg UInt64.toUInt32 h)
  have hcalls : onDataCalls (dataFrame r messageType data) =
      [.data r (varintEncode messageType.toInt64.toUInt64 ++ data)] := by
    simp only [dataFrame, List.append_assoc, onDataCalls, varintDecode_varintEncode]
    simp [varintEncode_ne_nil, hid', not_gt_uint32Max]
  rw [Mux.onData, hcalls, List.foldl_cons, List.foldl_nil, handle, hwf.handleData_eq]
  have hdecode : decodeMessage (varintEncode messageType.toInt64.toUInt64 ++ data) =
      (messageType.toUInt32, data) := by
    simp only [decodeMessage, varintDecode_varintEncode, messageType_roundTrip]
  cases m.remoteToChannel r with
  | none => rfl
  | some p => exact congrArg (fun message => m.dispatch p message.1 message.2) hdecode

/-! ## The mux at one end -/

/-- A mux of the network between two steps: it writes at once, its local ids count its channels,
and what it has learned of remote channels is in one place each: a remote id is mapped to the
channel that holds it, or waits under one key, and not both. -/
structure Ready (m : Mux) : Prop where
  wf : m.Wf
  uncorked : m.corkCount = 0
  live : m.destroyed = false
  outbox : m.outbox = []
  localId : ∀ c ∈ m.channels, c.localId.toNat = c.ptr + 1
  nextPtr : m.nextPtr < 2 ^ 32
  nextLocalId : m.nextLocalId.toNat = (m.nextPtr + 1) % 2 ^ 32
  mapped : ∀ c ∈ m.channels, c.opened = true → m.remoteToChannel c.remoteId = some c.ptr
  unmapped : ∀ k remote, m.pendingRemote k = some remote →
    m.remoteToChannel remote.remoteLocalId = none
  pending_inj : ∀ k k' remote remote', m.pendingRemote k = some remote →
    m.pendingRemote k' = some remote' → remote.remoteLocalId = remote'.remoteLocalId → k = k'

/-- The mux has learned nothing of the remote channel `r`. -/
structure Unknown (m : Mux) (r : UInt32) : Prop where
  unmapped : m.remoteToChannel r = none
  pending : ∀ k remote, m.pendingRemote k = some remote → remote.remoteLocalId ≠ r

lemma Ready.eq_of_localId {m : Mux} (h : Ready m) {c d : Channel} (hc : c ∈ m.channels)
    (hd : d ∈ m.channels) (hid : c.localId = d.localId) : c = d := by
  refine h.wf.eq_of_ptr hc hd ?_
  have hcid := h.localId c hc
  rw [hid, h.localId d hd] at hcid
  exact (Nat.succ.inj hcid).symm

lemma Ready.localId_ne_zero {m : Mux} (h : Ready m) {c : Channel} (hc : c ∈ m.channels) :
    c.localId ≠ 0 := by
  intro hzero
  have hid := h.localId c hc
  rw [hzero] at hid
  cases hid

lemma Mux.Wf.mem_modifyChannel {m : Mux} (h : m.Wf) {c : Channel} (hc : c ∈ m.channels)
    (f : Channel → Channel) {d : Channel} :
    d ∈ (m.modifyChannel c.ptr f).channels ↔ d = f c ∨ d ∈ m.channels ∧ d.ptr ≠ c.ptr := by
  simp only [Mux.modifyChannel, List.mem_map]
  constructor
  · rintro ⟨e, he, rfl⟩
    split_ifs with heq
    · rw [h.eq_of_ptr he hc heq]
      exact Or.inl rfl
    · exact Or.inr ⟨he, heq⟩
  · rintro (rfl | ⟨hd, hne⟩)
    · exact ⟨c, hc, if_pos rfl⟩
    · exact ⟨d, hd, if_neg hne⟩

lemma Mux.Wf.mem_link {m : Mux} (h : m.Wf) {c : Channel} (hc : c ∈ m.channels)
    (remote : PendingOpen) {d : Channel} :
    d ∈ (m.link c.ptr remote).channels ↔
      d = linked remote.remoteLocalId c ∨ d ∈ m.channels ∧ d.ptr ≠ c.ptr :=
  h.mem_modifyChannel hc (linked remote.remoteLocalId)

/-- The mux after it has recorded that the OPEN of a channel was sent. -/
def markSent (m : Mux) (c : Channel) : Mux :=
  m.modifyChannel c.ptr ({ · with openSent := true })

lemma Ready.writeFrame_eq {m : Mux} (h : Ready m) (frame : List UInt8) :
    m.writeFrame frame = { m with outbox := [frame] } := by
  simp [writeFrame, h.live, h.uncorked, h.outbox]

lemma Ready.sendOpen_eq {m : Mux} (h : Ready m) (c : Channel) (handshake : Bytes) :
    m.sendOpen c handshake =
      { markSent m c with outbox := [openFrame c.localId c.protocol c.id handshake] } := by
  simp [sendOpen, writeFrame, markSent, modifyChannel, h.live, h.uncorked, h.outbox]

lemma Ready.create {m : Mux} (h : Ready m) (hwrap : m.nextLocalId ≠ 0) (protocol : Bytes)
    (aliases : List Bytes) (id : Bytes) (unique : Bool) :
    Ready (m.createChannel protocol aliases id unique).1 := by
  have hwf := h.wf.createChannel protocol aliases id unique
  simp only [createChannel] at hwf ⊢
  split_ifs at hwf ⊢
  · exact h
  · exact h
  · have hne : m.nextLocalId.toNat ≠ 0 := fun h0 => hwrap (UInt32.toNat_inj.1 h0)
    have hnext := h.nextLocalId
    have hlt := h.nextPtr
    have hsmall : m.nextPtr + 1 < 2 ^ 32 := by
      by_contra hge
      have heq : m.nextPtr + 1 = 2 ^ 32 := Nat.le_antisymm hlt (Nat.not_lt.1 hge)
      rw [heq, Nat.mod_self] at hnext
      exact hne hnext
    refine ⟨hwf, h.uncorked, h.live, h.outbox, ?_, hsmall, ?_, ?_, h.unmapped, h.pending_inj⟩
    · intro c hc
      rcases List.mem_append.1 hc with hc | hc
      · exact h.localId c hc
      · obtain rfl := List.mem_singleton.1 hc
        exact hnext.trans (Nat.mod_eq_of_lt hsmall)
    · show (m.nextLocalId + 1).toNat = (m.nextPtr + 1 + 1) % 2 ^ 32
      rw [UInt32.toNat_add, hnext, Nat.mod_eq_of_lt hsmall]
      rfl
    · intro c hc hopened
      rcases List.mem_append.1 hc with hc | hc
      · exact h.mapped c hc hopened
      · obtain rfl := List.mem_singleton.1 hc
        cases hopened

lemma Ready.markSent {m : Mux} (h : Ready m) {c : Channel} (hc : c ∈ m.channels) :
    Ready (markSent m c) := by
  have hwf : (Protomux.markSent m c).Wf := by
    refine h.wf.modifyChannel c.ptr (fun _ => rfl) (fun _ => rfl) (fun _ => rfl) fun d hd => ?_
    exact ⟨hd.closed, hd.destroyed, fun _ => rfl, hd.remoteId, hd.pendingMessages⟩
  refine ⟨hwf, h.uncorked, h.live, h.outbox, ?_, h.nextPtr, h.nextLocalId, ?_, h.unmapped,
    h.pending_inj⟩
  · intro d hd
    rcases (h.wf.mem_modifyChannel hc _).1 hd with rfl | ⟨hd, -⟩
    · exact h.localId c hc
    · exact h.localId d hd
  · intro d hd hopened
    rcases (h.wf.mem_modifyChannel hc _).1 hd with rfl | ⟨hd, -⟩
    · exact h.mapped c hc hopened
    · exact h.mapped d hd hopened

lemma Ready.takePending {m : Mux} (h : Ready m) (k : Key) :
    Ready { m with pendingRemote := Function.update m.pendingRemote k none } := by
  have hold : ∀ {k' remote}, Function.update m.pendingRemote k none k' = some remote →
      m.pendingRemote k' = some remote := by
    intro k' remote hk'
    by_cases heq : k' = k
    · subst heq
      simp at hk'
    · simpa [heq] using hk'
  exact ⟨h.wf.updatePending k none (by simp), h.uncorked, h.live, h.outbox, h.localId, h.nextPtr,
    h.nextLocalId, h.mapped, fun k' remote hk' => h.unmapped k' remote (hold hk'),
    fun k₁ k₂ a b h₁ h₂ => h.pending_inj k₁ k₂ a b (hold h₁) (hold h₂)⟩

lemma Ready.unknown_takePending {m : Mux} (h : Ready m) {k : Key} {remote : PendingOpen}
    (hk : m.pendingRemote k = some remote) :
    Unknown { m with pendingRemote := Function.update m.pendingRemote k none }
      remote.remoteLocalId := by
  refine ⟨h.unmapped k remote hk, fun k' remote' hk' heq => ?_⟩
  by_cases hkk : k' = k
  · subst hkk
    simp at hk'
  · have hold : m.pendingRemote k' = some remote' := by simpa [hkk] using hk'
    exact hkk (h.pending_inj k' k remote' remote hold hk heq)

lemma Ready.link {m : Mux} (h : Ready m) {c : Channel} (hc : c ∈ m.channels)
    (hsent : c.openSent = true) (hopened : c.opened = false) {remote : PendingOpen}
    (hne : remote.remoteLocalId ≠ 0) (hunknown : Unknown m remote.remoteLocalId) :
    Ready (m.link c.ptr remote) := by
  refine ⟨h.wf.link hc hsent hopened hne, h.uncorked, h.live, h.outbox, ?_, h.nextPtr,
    h.nextLocalId, ?_, ?_, h.pending_inj⟩
  · intro d hd
    rcases (h.wf.mem_link hc remote).1 hd with rfl | ⟨hd, -⟩
    · exact h.localId c hc
    · exact h.localId d hd
  · intro d hd hdo
    rcases (h.wf.mem_link hc remote).1 hd with rfl | ⟨hd, -⟩
    · simp [Mux.link, linked]
    · have hmapped := h.mapped d hd hdo
      have hdr : d.remoteId ≠ remote.remoteLocalId := by
        intro heq
        rw [heq, hunknown.unmapped] at hmapped
        cases hmapped
      simpa [Mux.link, hdr] using hmapped
  · intro k remote' hk
    have hne' : remote'.remoteLocalId ≠ remote.remoteLocalId := hunknown.pending k remote' hk
    simpa [Mux.link, hne'] using h.unmapped k remote' hk

lemma Ready.store {m : Mux} (h : Ready m) {remote : PendingOpen}
    (hne : remote.remoteLocalId ≠ 0) (hunknown : Unknown m remote.remoteLocalId) (k : Key) :
    Ready { m with pendingRemote := Function.update m.pendingRemote k (some remote) } := by
  have hold : ∀ {k' remote'},
      Function.update m.pendingRemote k (some remote) k' = some remote' →
      (k' = k ∧ remote' = remote) ∨ m.pendingRemote k' = some remote' := by
    intro k' remote' hk'
    by_cases heq : k' = k
    · subst heq
      exact Or.inl ⟨rfl, by simpa using hk'.symm⟩
    · exact Or.inr (by simpa [heq] using hk')
  refine ⟨h.wf.updatePending k (some remote) (by rintro _ ⟨⟩; exact hne), h.uncorked, h.live,
    h.outbox, h.localId, h.nextPtr, h.nextLocalId, h.mapped, ?_, ?_⟩
  · intro k' remote' hk'
    rcases hold hk' with ⟨-, rfl⟩ | hk'
    · exact hunknown.unmapped
    · exact h.unmapped k' remote' hk'
  · intro k₁ k₂ a b h₁ h₂ hab
    rcases hold h₁ with ⟨hk₁, ha⟩ | h₁' <;> rcases hold h₂ with ⟨hk₂, hb⟩ | h₂'
    · rw [hk₁, hk₂]
    · exact absurd (ha ▸ hab.symm) (hunknown.pending k₂ b h₂')
    · exact absurd (hb ▸ hab) (hunknown.pending k₁ a h₁')
    · exact h.pending_inj k₁ k₂ a b h₁' h₂' hab

lemma Ready.withEvents {m : Mux} (h : Ready m) (events : List Event) :
    Ready { m with events := events } :=
  ⟨h.wf.congr rfl rfl rfl rfl h.wf.corked, h.uncorked, h.live, h.outbox, h.localId, h.nextPtr,
    h.nextLocalId, h.mapped, h.unmapped, h.pending_inj⟩

/-! ## What one end has written and what the other has learned -/

/-- A frame in flight is the OPEN of a channel of the sender, or a message on an open one. -/
def PacketOk (m : Mux) (packet : Packet) : Prop :=
  match packet.origin with
  | .open localId => ∃ c ∈ m.channels, c.localId = localId ∧
      ∃ handshake, packet.frame = openFrame localId c.protocol c.id handshake
  | .message p type data => ∃ c ∈ m.channels, c.ptr = p ∧ c.opened = true ∧
      ∃ messageType : Int32, messageType.toUInt32 = type ∧
        packet.frame = dataFrame c.remoteId messageType data

/-- The OPENs a side has written are those of the channels that were opened, one each. -/
structure Sends (m : Mux) (history : List Origin) (link : List Packet) : Prop where
  nodup : (opensOf history).Nodup
  opens : ∀ r, r ∈ opensOf history ↔ ∃ c ∈ m.channels, c.localId = r ∧ c.openSent = true
  frames : ∀ packet ∈ link, PacketOk m packet

/-- A side has learned of remote channels only what was delivered to it. -/
structure Knows (m : Mux) (opens : List UInt32) : Prop where
  mapped : ∀ c ∈ m.channels, c.opened = true → c.remoteId ∈ opens
  pending : ∀ k remote, m.pendingRemote k = some remote → remote.remoteLocalId ∈ opens

@[simp] lemma opensOf_append (l l' : List Origin) : opensOf (l ++ l') = opensOf l ++ opensOf l' :=
  List.filterMap_append

@[simp] lemma opensOf_open (r : UInt32) : opensOf [.open r] = [r] := rfl

@[simp] lemma opensOf_message (p : Ptr) (type : UInt32) (data : List UInt8) :
    opensOf [.message p type data] = [] := rfl

lemma Knows.unknown {m : Mux} {opens : List UInt32} (h : Knows m opens) (hwf : m.Wf) {r : UInt32}
    (hr : r ∉ opens) : Unknown m r := by
  refine ⟨?_, fun k remote hk heq => hr (heq ▸ h.pending k remote hk)⟩
  cases hmap : m.remoteToChannel r with
  | none => rfl
  | some p =>
    obtain ⟨c, hc, -, rfl, hopened⟩ := hwf.remote r p hmap
    exact absurd (h.mapped c hc hopened) hr

lemma Knows.mono {m : Mux} {opens opens' : List UInt32} (h : Knows m opens)
    (hsub : ∀ r ∈ opens, r ∈ opens') : Knows m opens' :=
  ⟨fun c hc ho => hsub _ (h.mapped c hc ho), fun k remote hk => hsub _ (h.pending k remote hk)⟩

lemma Knows.markSent {m : Mux} {opens : List UInt32} (h : Knows m opens) (hwf : m.Wf)
    {c : Channel} (hc : c ∈ m.channels) : Knows (markSent m c) opens := by
  refine ⟨fun d hd hdo => ?_, h.pending⟩
  rcases (hwf.mem_modifyChannel hc _).1 hd with rfl | ⟨hd, -⟩
  · exact h.mapped c hc hdo
  · exact h.mapped d hd hdo

lemma Knows.takePending {m : Mux} {opens : List UInt32} (h : Knows m opens) (k : Key) :
    Knows { m with pendingRemote := Function.update m.pendingRemote k none } opens := by
  refine ⟨h.mapped, fun k' remote hk' => ?_⟩
  by_cases heq : k' = k
  · subst heq
    simp at hk'
  · exact h.pending k' remote (by simpa [heq] using hk')

lemma Knows.link {m : Mux} {opens : List UInt32} (h : Knows m opens) (hwf : m.Wf) {c : Channel}
    (hc : c ∈ m.channels) {remote : PendingOpen} (hremote : remote.remoteLocalId ∈ opens) :
    Knows (m.link c.ptr remote) opens := by
  refine ⟨fun d hd hdo => ?_, h.pending⟩
  rcases (hwf.mem_link hc remote).1 hd with rfl | ⟨hd, -⟩
  · exact hremote
  · exact h.mapped d hd hdo

lemma Knows.store {m : Mux} {opens : List UInt32} (h : Knows m opens) {remote : PendingOpen}
    (hremote : remote.remoteLocalId ∈ opens) (k : Key) :
    Knows { m with pendingRemote := Function.update m.pendingRemote k (some remote) } opens := by
  refine ⟨h.mapped, fun k' remote' hk' => ?_⟩
  by_cases heq : k' = k
  · subst heq
    obtain rfl : remote = remote' := by simpa using hk'
    exact hremote
  · exact h.pending k' remote' (by simpa [heq] using hk')

/-- The channels stay, and an open channel stays open and keeps its remote id. -/
def Kept (m m' : Mux) : Prop :=
  ∀ c ∈ m.channels, ∃ c' ∈ m'.channels, c'.ptr = c.ptr ∧ c'.localId = c.localId ∧
    c'.protocol = c.protocol ∧ c'.id = c.id ∧
    (c.opened = true → c'.opened = true ∧ c'.remoteId = c.remoteId)

lemma Kept.of_subset {m m' : Mux} (h : ∀ c ∈ m.channels, c ∈ m'.channels) : Kept m m' :=
  fun c hc => ⟨c, h c hc, rfl, rfl, rfl, rfl, fun ho => ⟨ho, rfl⟩⟩

lemma Kept.trans {m m' m'' : Mux} (h : Kept m m') (h' : Kept m' m'') : Kept m m'' := by
  intro c hc
  obtain ⟨c', hc', hptr, hid, hprotocol, hcid, hstate⟩ := h c hc
  obtain ⟨c'', hc'', hptr', hid', hprotocol', hcid', hstate'⟩ := h' c' hc'
  refine ⟨c'', hc'', hptr'.trans hptr, hid'.trans hid, hprotocol'.trans hprotocol,
    hcid'.trans hcid, fun ho => ?_⟩
  obtain ⟨ho', hr'⟩ := hstate ho
  exact ⟨(hstate' ho').1, (hstate' ho').2.trans hr'⟩

lemma kept_create (m : Mux) (protocol : Bytes) (aliases : List Bytes) (id : Bytes)
    (unique : Bool) : Kept m (m.createChannel protocol aliases id unique).1 := by
  refine .of_subset fun c hc => ?_
  simp only [createChannel]
  split_ifs
  · exact hc
  · exact hc
  · exact List.mem_append_left _ hc

lemma kept_markSent {m : Mux} (hwf : m.Wf) {c : Channel} (hc : c ∈ m.channels) :
    Kept m (markSent m c) := by
  intro d hd
  by_cases hptr : d.ptr = c.ptr
  · obtain rfl := hwf.eq_of_ptr hd hc hptr
    exact ⟨_, (hwf.mem_modifyChannel hc _).2 (Or.inl rfl), rfl, rfl, rfl, rfl,
      fun ho => ⟨ho, rfl⟩⟩
  · exact ⟨d, (hwf.mem_modifyChannel hc _).2 (Or.inr ⟨hd, hptr⟩), rfl, rfl, rfl, rfl,
      fun ho => ⟨ho, rfl⟩⟩

lemma kept_link {m : Mux} (hwf : m.Wf) {c : Channel} (hc : c ∈ m.channels)
    (hopened : c.opened = false) (remote : PendingOpen) : Kept m (m.link c.ptr remote) := by
  intro d hd
  by_cases hptr : d.ptr = c.ptr
  · obtain rfl := hwf.eq_of_ptr hd hc hptr
    exact ⟨_, (hwf.mem_link hc remote).2 (Or.inl rfl), rfl, rfl, rfl, rfl,
      fun ho => by simp [hopened] at ho⟩
  · exact ⟨d, (hwf.mem_link hc remote).2 (Or.inr ⟨hd, hptr⟩), rfl, rfl, rfl, rfl,
      fun ho => ⟨ho, rfl⟩⟩

lemma PacketOk.mono {m m' : Mux} {packet : Packet} (h : PacketOk m packet)
    (hchannels : Kept m m') : PacketOk m' packet := by
  obtain ⟨origin, frame⟩ := packet
  cases origin with
  | «open» localId =>
    obtain ⟨c, hc, hid, handshake, hframe⟩ := h
    obtain ⟨c', hc', -, hid', hprotocol, hid'', -⟩ := hchannels c hc
    exact ⟨c', hc', hid'.trans hid, handshake, by rw [hprotocol, hid'']; exact hframe⟩
  | message p type data =>
    obtain ⟨c, hc, hptr, hopened, messageType, htype, hframe⟩ := h
    obtain ⟨c', hc', hptr', -, -, -, hstate⟩ := hchannels c hc
    exact ⟨c', hc', hptr'.trans hptr, (hstate hopened).1, messageType, htype,
      by rw [(hstate hopened).2]; exact hframe⟩

lemma Sends.create {m : Mux} {history : List Origin} {link : List Packet}
    (h : Sends m history link) (protocol : Bytes) (aliases : List Bytes) (id : Bytes)
    (unique : Bool) : Sends (m.createChannel protocol aliases id unique).1 history link := by
  simp only [createChannel]
  split_ifs
  · exact h
  · exact h
  · refine ⟨h.nodup, fun r => (h.opens r).trans ?_, fun packet hp => (h.frames packet hp).mono
      (.of_subset fun c hc => List.mem_append_left _ hc)⟩
    constructor
    · rintro ⟨c, hc, hrest⟩
      exact ⟨c, List.mem_append_left _ hc, hrest⟩
    · rintro ⟨c, hc, hid, hsent⟩
      rcases List.mem_append.1 hc with hc | hc
      · exact ⟨c, hc, hid, hsent⟩
      · obtain rfl := List.mem_singleton.1 hc
        cases hsent

lemma Sends.markSent {m : Mux} {history : List Origin} {link : List Packet}
    (h : Sends m history link) (hready : Ready m) {c : Channel} (hc : c ∈ m.channels)
    (hsent : c.openSent = false) (handshake : Bytes) :
    Sends (markSent m c) (history ++ [.open c.localId])
      (link ++ [⟨.open c.localId, openFrame c.localId c.protocol c.id handshake⟩]) := by
  have hmem : { c with openSent := true } ∈ (Protomux.markSent m c).channels :=
    (hready.wf.mem_modifyChannel hc _).2 (Or.inl rfl)
  have hnew : c.localId ∉ opensOf history := by
    intro hin
    obtain ⟨d, hd, hid, hdsent⟩ := (h.opens _).1 hin
    rw [hready.eq_of_localId hd hc hid, hsent] at hdsent
    cases hdsent
  refine ⟨?_, fun r => ?_, fun packet hp => ?_⟩
  · rw [opensOf_append, opensOf_open]
    exact h.nodup.append (List.nodup_singleton _) (by simpa using hnew)
  · rw [opensOf_append, List.mem_append, h.opens]
    constructor
    · rintro (⟨d, hd, hid, hdsent⟩ | hr)
      · refine ⟨d, (hready.wf.mem_modifyChannel hc _).2 (Or.inr ⟨hd, ?_⟩), hid, hdsent⟩
        intro hptr
        rw [hready.wf.eq_of_ptr hd hc hptr, hsent] at hdsent
        cases hdsent
      · obtain rfl : r = c.localId := by simpa [opensOf] using hr
        exact ⟨_, hmem, rfl, rfl⟩
    · rintro ⟨d, hd, hid, hdsent⟩
      rcases (hready.wf.mem_modifyChannel hc _).1 hd with rfl | ⟨hd, -⟩
      · exact Or.inr (by simp [opensOf, ← hid])
      · exact Or.inl ⟨d, hd, hid, hdsent⟩
  · rcases List.mem_append.1 hp with hp | hp
    · exact (h.frames packet hp).mono (kept_markSent hready.wf hc)
    · obtain rfl := List.mem_singleton.1 hp
      exact ⟨_, hmem, rfl, handshake, rfl⟩

lemma Sends.link {m : Mux} {history : List Origin} {link : List Packet}
    (h : Sends m history link) (hwf : m.Wf) {c : Channel} (hc : c ∈ m.channels)
    (hopened : c.opened = false) (remote : PendingOpen) :
    Sends (m.link c.ptr remote) history link := by
  have hmem : linked remote.remoteLocalId c ∈ (m.link c.ptr remote).channels :=
    (hwf.mem_link hc remote).2 (Or.inl rfl)
  refine ⟨h.nodup, fun r => (h.opens r).trans ?_,
    fun packet hp => (h.frames packet hp).mono (kept_link hwf hc hopened remote)⟩
  constructor
  · rintro ⟨d, hd, hid, hsent⟩
    by_cases hptr : d.ptr = c.ptr
    · obtain rfl := hwf.eq_of_ptr hd hc hptr
      exact ⟨_, hmem, hid, hsent⟩
    · exact ⟨d, (hwf.mem_link hc remote).2 (Or.inr ⟨hd, hptr⟩), hid, hsent⟩
  · rintro ⟨d, hd, hid, hsent⟩
    rcases (hwf.mem_link hc remote).1 hd with rfl | ⟨hd, -⟩
    · exact ⟨c, hc, hid, hsent⟩
    · exact ⟨d, hd, hid, hsent⟩

lemma Sends.message {m : Mux} {history : List Origin} {link : List Packet}
    (h : Sends m history link) {c : Channel} (hc : c ∈ m.channels) (hopened : c.opened = true)
    (messageType : Int32) (data : List UInt8) :
    Sends m (history ++ [.message c.ptr messageType.toUInt32 data])
      (link ++ [⟨.message c.ptr messageType.toUInt32 data,
        dataFrame c.remoteId messageType data⟩]) := by
  have hopens : opensOf (history ++ [.message c.ptr messageType.toUInt32 data]) =
      opensOf history := by
    simp [opensOf]
  refine ⟨by rw [hopens]; exact h.nodup, by rw [hopens]; exact h.opens, fun packet hp => ?_⟩
  rcases List.mem_append.1 hp with hp | hp
  · exact h.frames packet hp
  · obtain rfl := List.mem_singleton.1 hp
    exact ⟨c, hc, rfl, hopened, messageType, rfl, rfl⟩

lemma Sends.congr {m m' : Mux} {history : List Origin} {link link' : List Packet}
    (h : Sends m history link) (hchannels : m'.channels = m.channels)
    (hlink : ∀ packet ∈ link', packet ∈ link) : Sends m' history link' := by
  refine ⟨h.nodup, by rw [hchannels]; exact h.opens, fun packet hp => ?_⟩
  exact (h.frames packet (hlink packet hp)).mono (.of_subset fun c hc => hchannels ▸ hc)

/-! ## The network -/

namespace Net

/-- The OPENs of a side that have arrived at the other side. -/
def deliveredOpens (n : Net) (s : Side) : List UInt32 :=
  opensOf ((n.delivered s).map (·.origin))

/-- The invariant of the network. -/
structure Wf (n : Net) : Prop where
  ready : ∀ s, Ready (n.mux s)
  /-- What a side has written has arrived or is on its way, in this order. -/
  fifo : ∀ s, n.history s = (n.delivered s).map (·.origin) ++ (n.link s).map (·.origin)
  sends : ∀ s, Sends (n.mux s) (n.history s) (n.link s)
  knows : ∀ s, Knows (n.mux s.other) (n.deliveredOpens s)

/-- A side has changed its mux and written a frame. -/
def post (n : Net) (s : Side) (m : Mux) (packet : Packet) : Net :=
  { n with
    mux := Function.update n.mux s m
    link := Function.update n.link s (n.link s ++ [packet])
    history := Function.update n.history s (n.history s ++ [packet.origin]) }

/-- The first frame from a side has arrived and has changed the mux of the other side. -/
def arrive (n : Net) (s : Side) (m : Mux) (rest : List Packet) (delivery : Delivery) : Net :=
  { n with
    mux := Function.update n.mux s.other m
    link := Function.update n.link s rest
    delivered := Function.update n.delivered s (n.delivered s ++ [delivery]) }

lemma flush_self {n : Net} (s : Side) (hout : (n.mux s).outbox = []) (origin : Origin) :
    n.flush s (n.mux s) origin [] = n := by
  have hmux : { n.mux s with outbox := [] } = n.mux s := by rw [← hout]
  simp [flush, hmux, hout]

/-- **Opening a channel in the network**: nothing happens, or the OPEN is on its way, and a
remote OPEN that waits under a key of the channel is paired with it. -/
theorem open_cases {n : Net} {s : Side} (h : Ready (n.mux s)) (p : Ptr) (handshake : Bytes) :
    netStep n (.open s p handshake) = n ∨
    ∃ c ∈ (n.mux s).channels, c.ptr = p ∧ c.openSent = false ∧ c.opened = false ∧
      (((∀ k ∈ c.pairKeys, (n.mux s).pendingRemote k = none) ∧
          netStep n (.open s p handshake) = n.post s (markSent (n.mux s) c)
            ⟨.open c.localId, openFrame c.localId c.protocol c.id handshake⟩) ∨
        ∃ k ∈ c.pairKeys, ∃ remote, (n.mux s).pendingRemote k = some remote ∧
          netStep n (.open s p handshake) = n.post s
            ({ markSent (n.mux s) c with
              pendingRemote := Function.update (n.mux s).pendingRemote k none }.link p remote)
            ⟨.open c.localId, openFrame c.localId c.protocol c.id handshake⟩) := by
  rcases h.wf.channelOpen_cases p handshake with
    ⟨-, heq⟩ | ⟨c, hc, rfl, hsent, hopened, hcase⟩
  · refine Or.inl ?_
    simp only [netStep, heq, h.outbox, List.map_nil]
    exact flush_self s h.outbox _
  · have hid : localIdOf (n.mux s) c.ptr = c.localId := by
      simp [localIdOf, h.wf.channel? hc]
    have hout : (markSent (n.mux s) c).outbox = [] := h.outbox
    refine Or.inr ⟨c, hc, rfl, hsent, hopened, ?_⟩
    rcases hcase with ⟨hnone, heq⟩ | ⟨k, hk, remote, hremote, heq⟩
    · refine Or.inl ⟨hnone, ?_⟩
      simp only [netStep, heq, h.sendOpen_eq, flush, post, hid, List.map_cons, List.map_nil]
      simp only [← hout]
    · refine Or.inr ⟨k, hk, remote, hremote, ?_⟩
      simp only [netStep, heq, h.sendOpen_eq, flush, post, hid, Mux.link, List.map_cons,
        List.map_nil]
      simp only [← hout]

/-- **Sending in the network**: nothing happens, or the channel is open and the message is on its
way. -/
theorem send_cases {n : Net} {s : Side} (h : Ready (n.mux s)) (p : Ptr) (messageType : Int32)
    (data : List UInt8) :
    netStep n (.send s p messageType data) = n ∨
    ∃ c ∈ (n.mux s).channels, c.ptr = p ∧ c.opened = true ∧
      netStep n (.send s p messageType data) = n.post s (n.mux s)
        ⟨.message c.ptr messageType.toUInt32 data, dataFrame c.remoteId messageType data⟩ := by
  cases hget : (n.mux s).channel? p with
  | none =>
    refine Or.inl ?_
    simp only [netStep, channelSend, hget, Bool.false_eq_true, if_false]
    exact flush_self s h.outbox _
  | some c =>
    obtain ⟨hc, rfl⟩ := mem_of_channel? hget
    cases hopened : c.opened with
    | false =>
      refine Or.inl ?_
      simp only [netStep, channelSend, hget, hopened, Bool.not_false, true_or, if_true,
        Bool.false_eq_true, if_false]
      exact flush_self s h.outbox _
    | true =>
      have hwf := h.wf.channels c hc
      have hne : c.remoteId ≠ 0 := hwf.remoteId.1 hopened
      refine Or.inr ⟨c, hc, rfl, hopened, ?_⟩
      simp only [netStep, channelSend, hget, hopened, hwf.closed, hne, Bool.not_true,
        Bool.false_eq_true, or_self, if_false, if_true, flush, post, h.writeFrame_eq,
        List.map_cons, List.map_nil]
      simp only [← h.outbox]

/-- What the arrival of a frame of the mux `m` makes of the mux `m'` at the other end, and the
dispatches it causes. -/
inductive Arrival (m m' : Mux) : Origin → Mux → List Dispatch → Prop
  /-- An OPEN without a protocol does nothing. -/
  | dropped {c : Channel} (hc : c ∈ m.channels) (hprotocol : c.protocol.1 = []) :
      Arrival m m' (.open c.localId) m' []
  /-- An OPEN is paired with the first channel that answers to its key, if that one waits. -/
  | paired {c d : Channel} {remote : PendingOpen} (hc : c ∈ m.channels) (hd : d ∈ m'.channels)
      (hid : remote.remoteLocalId = c.localId)
      (hkey : buildPairKey remote.protocol remote.id = buildPairKey c.protocol.1 c.id.1)
      (hfind : m'.findByPairKey (buildPairKey c.protocol.1 c.id.1) = some d)
      (hsent : d.openSent = true) (hopened : d.opened = false) :
      Arrival m m' (.open c.localId) (m'.link d.ptr remote) []
  /-- Any other OPEN is stored under its key. -/
  | stored {c : Channel} {remote : PendingOpen} {events : List Event} (hc : c ∈ m.channels)
      (hid : remote.remoteLocalId = c.localId)
      (hnone : ∀ d, m'.findByPairKey (buildPairKey c.protocol.1 c.id.1) = some d →
        d.openSent = true → d.opened = true) :
      Arrival m m' (.open c.localId)
        { m' with
          pendingRemote := Function.update m'.pendingRemote
            (buildPairKey c.protocol.1 c.id.1) (some remote)
          events := events } []
  /-- A message for an id that is not mapped is dropped. -/
  | lost {c : Channel} {type : UInt32} {data : List UInt8} (hc : c ∈ m.channels)
      (hopened : c.opened = true) (hmap : m'.remoteToChannel c.remoteId = none) :
      Arrival m m' (.message c.ptr type data) m' []
  /-- A message for an id that is mapped is dispatched. -/
  | dispatched {c : Channel} {type : UInt32} {data : List UInt8} {q : Ptr} {events : List Event}
      (hc : c ∈ m.channels) (hopened : c.opened = true)
      (hmap : m'.remoteToChannel c.remoteId = some q) :
      Arrival m m' (.message c.ptr type data) { m' with events := events } [⟨q, type, data⟩]

lemma arrival_onData {m m' : Mux} (h : Ready m) (hwf : m'.Wf) {packet : Packet}
    (hok : PacketOk m packet) :
    Arrival m m' packet.origin (m'.onData packet.frame)
      (dispatchesOf ((m'.onData packet.frame).events.drop m'.events.length)) := by
  obtain ⟨origin, frame⟩ := packet
  cases origin with
  | «open» r =>
    obtain ⟨c, hc, rfl, handshake, rfl⟩ := hok
    simp only [onData_openFrame m' (h.localId_ne_zero hc)]
    by_cases hprotocol : c.protocol.1 = []
    · simpa [hprotocol, dispatchesOf] using Arrival.dropped hc hprotocol
    · simp only [hprotocol, if_false]
      rcases hwf.receiveOpen_cases ⟨c.localId, handshake.1, c.protocol.1, c.id.1⟩ with
        ⟨d, hd, hfind, hsent, hopened, heq⟩ | ⟨hnone, heq⟩ <;> rw [heq]
      · simpa [Mux.link, dispatchesOf] using
          @Arrival.paired m m' c d ⟨c.localId, handshake.1, c.protocol.1, c.id.1⟩ hc hd rfl rfl
            hfind hsent hopened
      · have hstored : ∀ events, Arrival m m' (.open c.localId) _ _ := fun events =>
          @Arrival.stored m m' c ⟨c.localId, handshake.1, c.protocol.1, c.id.1⟩ events hc rfl hnone
        rcases dispatchNotify_eq { m' with
            pendingRemote := Function.update m'.pendingRemote
              (buildPairKey c.protocol.1 c.id.1)
              (some ⟨c.localId, handshake.1, c.protocol.1, c.id.1⟩) }
          c.protocol.1 c.id.1 handshake.1 with heq' | ⟨slot, heq'⟩ <;> rw [heq']
        · simpa [dispatchesOf] using hstored m'.events
        · simpa [dispatchesOf] using
            hstored (m'.events ++ [.notify slot c.protocol.1 c.id.1 handshake.1])
  | message p type data =>
    obtain ⟨c, hc, rfl, hopened, messageType, rfl, rfl⟩ := hok
    have hne : c.remoteId ≠ 0 := (h.wf.channels c hc).remoteId.1 hopened
    simp only [onData_dataFrame hwf hne]
    cases hmap : m'.remoteToChannel c.remoteId with
    | none => simpa [dispatchesOf] using Arrival.lost hc hopened hmap
    | some q =>
      rcases dispatch_eq m' q messageType.toUInt32 data with heq | heq <;> simp only [heq]
      · simpa [dispatchesOf] using
          @Arrival.dispatched m m' c messageType.toUInt32 data q
            (m'.events ++ [.dispatch q messageType.toUInt32 data]) hc hopened hmap
      · simpa [dispatchesOf] using
          @Arrival.dispatched m m' c messageType.toUInt32 data q
            (m'.events ++ [.dispatch q messageType.toUInt32 data,
              .onMessage q messageType.toUInt32 data]) hc hopened hmap

/-- **A delivery**: there is nothing to deliver, or the first frame arrives. -/
theorem deliver_cases {n : Net} (h : n.Wf) (s : Side) :
    (n.link s = [] ∧ netStep n (.deliver s) = n) ∨
    ∃ packet rest m dispatches, n.link s = packet :: rest ∧
      Arrival (n.mux s) (n.mux s.other) packet.origin m dispatches ∧
      netStep n (.deliver s) = n.arrive s m rest ⟨packet.origin, dispatches⟩ := by
  cases hlink : n.link s with
  | nil => exact Or.inl ⟨rfl, by simp [netStep, deliver, hlink]⟩
  | cons packet rest =>
    have hok : PacketOk (n.mux s) packet := (h.sends s).frames packet (by simp [hlink])
    refine Or.inr ⟨packet, rest, _, _, rfl, arrival_onData (h.ready s) (h.ready s.other).wf hok, ?_⟩
    simp [netStep, deliver, hlink, arrive]

/-! ## The invariant is kept -/

lemma Wf.not_mem_deliveredOpens {n : Net} (h : n.Wf) {s : Side} {packet : Packet}
    {rest : List Packet} (hlink : n.link s = packet :: rest) {r : UInt32}
    (horigin : packet.origin = .open r) : r ∉ n.deliveredOpens s := by
  intro hin
  have hnodup := (h.sends s).nodup
  rw [h.fifo s, hlink, List.map_cons, opensOf_append, horigin] at hnodup
  exact (List.nodup_append.1 hnodup).2.2 r hin r (by simp [opensOf]) rfl

lemma Wf.post {n : Net} (h : n.Wf) {s : Side} {m : Mux} {packet : Packet} (hready : Ready m)
    (hsends : Sends m (n.history s ++ [packet.origin]) (n.link s ++ [packet]))
    (hknows : Knows m (n.deliveredOpens s.other)) : (n.post s m packet).Wf := by
  refine ⟨fun t => ?_, fun t => ?_, fun t => ?_, fun t => ?_⟩
  · rcases eq_or_ne t s with rfl | hne
    · simpa [Net.post] using hready
    · simpa [Net.post, hne] using h.ready t
  · rcases eq_or_ne t s with rfl | hne
    · simp [Net.post, h.fifo t]
    · simpa [Net.post, hne] using h.fifo t
  · rcases eq_or_ne t s with rfl | hne
    · simpa [Net.post] using hsends
    · simpa [Net.post, hne] using h.sends t
  · rcases eq_or_ne t.other s with rfl | hne
    · simpa [Net.post, deliveredOpens] using hknows
    · simpa [Net.post, deliveredOpens, hne] using h.knows t

lemma Wf.setMux {n : Net} (h : n.Wf) {s : Side} {m : Mux} (hready : Ready m)
    (hsends : Sends m (n.history s) (n.link s)) (hknows : Knows m (n.deliveredOpens s.other)) :
    { n with mux := Function.update n.mux s m }.Wf := by
  refine ⟨fun t => ?_, h.fifo, fun t => ?_, fun t => ?_⟩
  · rcases eq_or_ne t s with rfl | hne
    · simpa using hready
    · simpa [hne] using h.ready t
  · rcases eq_or_ne t s with rfl | hne
    · simpa using hsends
    · simpa [hne] using h.sends t
  · rcases eq_or_ne t.other s with rfl | hne
    · simpa [deliveredOpens] using hknows
    · simpa [deliveredOpens, hne] using h.knows t

lemma Wf.arrive {n : Net} (h : n.Wf) {s : Side} {m : Mux} {packet : Packet} {rest : List Packet}
    {dispatches : List Dispatch} (hlink : n.link s = packet :: rest) (hready : Ready m)
    (hsends : Sends m (n.history s.other) (n.link s.other))
    (hknows : Knows m (n.deliveredOpens s ++ opensOf [packet.origin])) :
    (n.arrive s m rest ⟨packet.origin, dispatches⟩).Wf := by
  refine ⟨fun t => ?_, fun t => ?_, fun t => ?_, fun t => ?_⟩
  · rcases eq_or_ne t s.other with rfl | hne
    · simpa [Net.arrive] using hready
    · simpa [Net.arrive, hne] using h.ready t
  · rcases eq_or_ne t s with rfl | hne
    · simp [Net.arrive, h.fifo t, hlink]
    · simpa [Net.arrive, hne] using h.fifo t
  · rcases eq_or_ne t s with rfl | hne
    · refine (h.sends t).congr (by simp [Net.arrive]) fun packet' hp => ?_
      rw [hlink]
      exact List.mem_cons_of_mem _ (by simpa [Net.arrive] using hp)
    · obtain rfl := Side.eq_other_of_ne hne
      simpa [Net.arrive] using hsends
  · rcases eq_or_ne t s with rfl | hne
    · simpa [Net.arrive, deliveredOpens] using hknows
    · have hother : t.other ≠ s.other := fun heq => hne (by
        rw [← Side.other_other t, heq, Side.other_other])
      simpa [Net.arrive, deliveredOpens, hne, hother] using h.knows t

lemma knows_create {m : Mux} {opens : List UInt32} (h : Knows m opens) (protocol : Bytes)
    (aliases : List Bytes) (id : Bytes) (unique : Bool) :
    Knows (m.createChannel protocol aliases id unique).1 opens := by
  simp only [createChannel]
  split_ifs
  · exact h
  · exact h
  · refine ⟨fun c hc hopened => ?_, h.pending⟩
    rcases List.mem_append.1 hc with hc | hc
    · exact h.mapped c hc hopened
    · obtain rfl := List.mem_singleton.1 hc
      cases hopened

lemma Wf.open {n : Net} (h : n.Wf) (s : Side) (p : Ptr) (handshake : Bytes) :
    (netStep n (.open s p handshake)).Wf := by
  have hready := h.ready s
  have hknows : Knows (n.mux s) (n.deliveredOpens s.other) := by
    simpa using h.knows s.other
  rcases open_cases hready p handshake with
    heq | ⟨c, hc, rfl, hsent, hopened, ⟨-, heq⟩ | ⟨k, -, remote, hk, heq⟩⟩ <;> rw [heq]
  · exact h
  · exact h.post (hready.markSent hc) ((h.sends s).markSent hready hc hsent handshake)
      (hknows.markSent hready.wf hc)
  · -- the OPEN that waits is taken out and then paired
    have hmem : { c with openSent := true } ∈ (markSent (n.mux s) c).channels :=
      (hready.wf.mem_modifyChannel hc _).2 (Or.inl rfl)
    have hready' := (hready.markSent hc).takePending k
    have hsends' := @Sends.congr _ { markSent (n.mux s) c with
        pendingRemote := Function.update (n.mux s).pendingRemote k none } _ _ _
      ((h.sends s).markSent hready hc hsent handshake) rfl fun _ => id
    have hremote := hknows.pending k remote hk
    refine h.post ?_ ?_ ?_
    · exact hready'.link hmem rfl hopened (hready.wf.pending k remote hk)
        ((hready.markSent hc).unknown_takePending hk)
    · exact hsends'.link hready'.wf hmem hopened remote
    · exact ((hknows.markSent hready.wf hc).takePending k).link hready'.wf hmem hremote

lemma Wf.deliver {n : Net} (h : n.Wf) (s : Side) : (netStep n (.deliver s)).Wf := by
  have hready := h.ready s.other
  have hsends := h.sends s.other
  have hknows := h.knows s
  have hmono : ∀ {m opens}, Knows m (n.deliveredOpens s) → Knows m (n.deliveredOpens s ++ opens) :=
    fun hm => hm.mono fun r hr => List.mem_append_left _ hr
  rcases deliver_cases h s with ⟨-, heq⟩ | ⟨packet, rest, m, dispatches, hlink, harrival, heq⟩ <;>
    rw [heq]
  · exact h
  · have hunknown : ∀ {r}, packet.origin = .open r → Unknown (n.mux s.other) r := fun hr =>
      hknows.unknown hready.wf (h.not_mem_deliveredOpens hlink hr)
    obtain ⟨origin, frame⟩ := packet
    cases harrival with
    | dropped hc hprotocol => exact h.arrive hlink hready hsends (hmono hknows)
    | paired hc hd hid hkey hfind hsent hopened =>
      have hne := hid ▸ (h.ready s).localId_ne_zero hc
      refine h.arrive hlink (hready.link hd hsent hopened hne (hid ▸ hunknown rfl))
        (hsends.link hready.wf hd hopened _) ?_
      exact (hmono hknows).link hready.wf hd (by simp [hid, opensOf])
    | @stored c remote events hc hid hnone =>
      have hne := hid ▸ (h.ready s).localId_ne_zero hc
      have hmem : remote.remoteLocalId ∈ n.deliveredOpens s ++ opensOf [.open c.localId] := by
        simp [hid, opensOf]
      have hstored := (hmono hknows).store hmem (buildPairKey c.protocol.1 c.id.1)
      exact h.arrive hlink ((hready.store hne (hid ▸ hunknown rfl) _).withEvents _)
        (hsends.congr rfl fun _ => id) ⟨hstored.mapped, hstored.pending⟩
    | lost hc hopened hmap => exact h.arrive hlink hready hsends (hmono hknows)
    | dispatched hc hopened hmap =>
      exact h.arrive hlink (hready.withEvents _) (hsends.congr rfl fun _ => id)
        ⟨(hmono hknows).mapped, (hmono hknows).pending⟩

end Net

/-- The step creates no channel after the local ids have wrapped around. -/
def NoWrap (n : Net) : Input → Prop
  | .create s .. => (n.mux s).nextLocalId ≠ 0
  | _ => True

instance (n : Net) : (i : Input) → Decidable (NoWrap n i)
  | .create s _ _ _ _ => inferInstanceAs (Decidable ((n.mux s).nextLocalId ≠ 0))
  | .open _ _ _ => .isTrue trivial
  | .send _ _ _ _ => .isTrue trivial
  | .deliver _ => .isTrue trivial

lemma netWf_init : ({} : Net).Wf where
  ready := fun _ => ⟨wf_init, rfl, rfl, rfl, by simp, Nat.two_pow_pos 32, rfl, by simp, by simp,
    by simp⟩
  fifo := fun _ => rfl
  sends := fun _ => ⟨List.nodup_nil, by simp [opensOf], by simp⟩
  knows := fun _ => ⟨by simp, by simp⟩

/-- Every step keeps the invariant, as long as no local id wraps around. -/
theorem netWf_step {n : Net} (h : n.Wf) (i : Input) (hwrap : NoWrap n i) : (netStep n i).Wf := by
  cases i with
  | create s protocol aliases id unique =>
    refine h.setMux ((h.ready s).create hwrap protocol aliases id unique)
      ((h.sends s).create protocol aliases id unique) ?_
    exact Net.knows_create (by simpa using h.knows s.other) protocol aliases id unique
  | «open» s p handshake => exact h.open s p handshake
  | send s p messageType data =>
    rcases Net.send_cases (h.ready s) p messageType data with heq | ⟨c, hc, -, hopened, heq⟩ <;>
      rw [heq]
    · exact h
    · exact h.post (h.ready s) ((h.sends s).message hc hopened messageType data)
        (by simpa using h.knows s.other)
  | deliver s => exact h.deliver s

lemma Net.Arrival.kept {m m' m'' : Mux} {origin : Origin} {dispatches : List Dispatch}
    (h : Net.Arrival m m' origin m'' dispatches) (hwf : m'.Wf) : Kept m' m'' := by
  cases h with
  | dropped => exact .of_subset fun _ => id
  | paired _ hd _ _ _ _ hopened => exact kept_link hwf hd hopened _
  | stored => exact .of_subset fun _ => id
  | lost => exact .of_subset fun _ => id
  | dispatched => exact .of_subset fun _ => id

/-- Every step keeps the channels of both ends. -/
theorem kept_step {n : Net} (h : n.Wf) (i : Input) (t : Side) :
    Kept (n.mux t) ((netStep n i).mux t) := by
  have hset : ∀ s m, Kept (n.mux s) m → Kept (n.mux t) (Function.update n.mux s m t) := by
    intro s m hm
    rcases eq_or_ne t s with rfl | hne
    · simpa using hm
    · simpa [hne] using Kept.of_subset (m := n.mux t) fun _ => id
  cases i with
  | create s protocol aliases id unique =>
    exact hset s _ (kept_create _ protocol aliases id unique)
  | «open» s p handshake =>
    have hwf := (h.ready s).wf
    rcases Net.open_cases (h.ready s) p handshake with
      heq | ⟨c, hc, rfl, -, hopened, ⟨-, heq⟩ | ⟨k, -, remote, -, heq⟩⟩ <;> rw [heq]
    · exact .of_subset fun _ => id
    · exact hset s _ (kept_markSent hwf hc)
    · refine hset s _ ((kept_markSent hwf hc).trans ?_)
      have hmem : { c with openSent := true } ∈ (markSent (n.mux s) c).channels :=
        (hwf.mem_modifyChannel hc _).2 (Or.inl rfl)
      exact kept_link (((h.ready s).markSent hc).takePending k).wf hmem hopened remote
  | send s p messageType data =>
    rcases Net.send_cases (h.ready s) p messageType data with heq | ⟨c, -, -, -, heq⟩ <;> rw [heq]
    · exact .of_subset fun _ => id
    · exact hset s _ (.of_subset fun _ => id)
  | deliver s =>
    rcases Net.deliver_cases h s with ⟨-, heq⟩ | ⟨packet, rest, m, dispatches, -, harrival, heq⟩ <;>
      rw [heq]
    · exact .of_subset fun _ => id
    · exact hset s.other m (harrival.kept (h.ready s.other).wf)

end HyperDHT.Protomux
