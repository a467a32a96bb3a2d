import HyperDHT.Protomux.ByKey
import HyperDHT.Protomux.Pairing

/-!
# Channels that are opened again

Two muxes over FIFO links whose channels are created, opened and closed, each with at most one channel at a time for
a protocol and an id. A CLOSE leaves the OPEN of the same channel where it waits, and an OPEN that answers a channel
which is gone is taken for an answer to the next one. So a channel may be paired with one that is gone, unless
channels are closed only after they were paired, or before they were opened while no OPEN waits for them.

## Main definitions

* `Protomux.Line`, `LineInput`, `lineStep` — the two muxes and the frames between them.
* `Protomux.OneAtATime` — at most one channel at a time for a protocol and an id.
* `Protomux.ClosesPaired` — the condition on the steps.
* `Protomux.Reopened` — what holds once all frames are delivered.
* `Protomux.Line.Follows` — the muxes do, under each key, what two ends of a `Meeting` do.

## Main results

* `Protomux.Line.follows_step` — a step of the muxes is a turn under one key, or none.
* `Protomux.reopened_of_closesPaired` — in a run whose steps meet the condition, channels are paired whenever all
  frames are delivered.
* `Protomux.not_reopened_crossing` — a run that closes a channel too early.

## Design

Each frame in flight carries the key and the letter it stands for, which the muxes do not read. `create` is the
overload of `create_channel` that names no aliases.
-/

set_option autoImplicit false

namespace HyperDHT.Protomux

open Mux
open Function (update)

/-! ## The machine -/

/-- A frame in flight, with the key and the letter it stands for: a message stands for none. -/
structure NotedFrame where
  note : Option (Key × Letter UInt32)
  frame : List UInt8

/-- The two muxes, and the frames on their way from each. -/
structure Line where
  mux : Side → Mux := fun _ => {}
  link : Side → List NotedFrame := fun _ => []

/-- The calls on both sides, and the delivery of the first frame that is on its way from a side. -/
inductive LineInput where
  | create (side : Side) (protocol id : Bytes) (unique : Bool)
  | open (side : Side) (channel : Ptr) (handshake : Bytes)
  | send (side : Side) (channel : Ptr) (messageType : Int32) (data : List UInt8)
  | close (side : Side) (channel : Ptr)
  | deliver (side : Side)

namespace Line

/-- Move the frames a mux has written to its link. -/
def flush (n : Line) (s : Side) (m : Mux) (note : Option (Key × Letter UInt32)) : Line where
  mux := update n.mux s { m with outbox := [] }
  link := update n.link s (n.link s ++ m.outbox.map (⟨note, ·⟩))

/-- What a frame about the channel a pointer points at stands for. -/
def noteOf (m : Mux) (p : Ptr) (letter : UInt32 → Letter UInt32) : Option (Key × Letter UInt32) :=
  (m.channel? p).map fun c => (c.key, letter c.localId)

/-- Deliver the first frame on its way from a side. -/
def deliver (n : Line) (s : Side) : Line :=
  match n.link s with
  | [] => n
  | f :: rest =>
    { mux := update n.mux s.other ((n.mux s.other).onData f.frame)
      link := update n.link s rest }

end Line

/-- The line takes a step. -/
def lineStep (n : Line) : LineInput → Line
  | .create s protocol id unique =>
    { n with mux := update n.mux s ((n.mux s).createChannel protocol [] id unique).1 }
  | .open s p handshake => n.flush s ((n.mux s).channelOpen p handshake) (Line.noteOf (n.mux s) p .open)
  | .send s p messageType data => n.flush s ((n.mux s).channelSend p messageType data).1 none
  | .close s p => n.flush s ((n.mux s).channelClose p) (Line.noteOf (n.mux s) p .close)
  | .deliver s => n.deliver s

/-- A channel is created when its side has no live one for the protocol and the id. -/
def OneAtATime (n : Line) : LineInput → Prop
  | .create s protocol id _ => ∀ c ∈ (n.mux s).channels, c.protocol = protocol → c.id ≠ id
  | _ => True

/-- A channel has a protocol, and its local id has not wrapped around; a channel is closed after it was paired, or
before it was opened while no OPEN waits under its key. -/
def ClosesPaired (n : Line) : LineInput → Prop
  | .create s protocol _ _ => protocol.1 ≠ [] ∧ (n.mux s).nextLocalId ≠ 0
  | .close s p => ∀ c ∈ (n.mux s).channel? p,
      c.opened = true ∨ c.openSent = false ∧ (n.mux s).pendingRemote c.key = none
  | _ => True

/-- What holds once all frames are delivered: two channels that were opened are paired with each other, and no channel
is paired with one that is gone. -/
structure Reopened (n : Line) : Prop where
  paired : (∀ s, n.link s = []) → ∀ c ∈ (n.mux .a).channels, ∀ d ∈ (n.mux .b).channels,
    c.protocol = d.protocol → c.id = d.id → c.openSent = true → d.openSent = true →
      c.opened = true ∧ d.opened = true ∧ c.remoteId = d.localId ∧ d.remoteId = c.localId
  alive : (∀ s, n.link s = []) → ∀ s, ∀ c ∈ (n.mux s).channels, c.opened = true →
    ∃ d ∈ (n.mux s.other).channels, d.protocol = c.protocol ∧ d.id = c.id ∧ d.localId = c.remoteId

/-! ## Frames -/

/-- A frame is what it stands for. -/
inductive NotedFrame.Faithful : NotedFrame → Prop
  | opens (r : UInt32) (protocol id handshake : Bytes) (hr : r ≠ 0) (hprotocol : protocol.1 ≠ []) :
    Faithful ⟨some (buildPairKey protocol.1 id.1, .open r), openFrame r protocol id handshake⟩
  | closes (k : Key) (r : UInt32) (hr : r ≠ 0) : Faithful ⟨some (k, .close r), closeFrame r⟩
  | message (r : UInt32) (messageType : Int32) (data : List UInt8) (hr : r ≠ 0) :
    Faithful ⟨none, dataFrame r messageType data⟩

/-- The letter under a key that a frame stands for. -/
def NotedFrame.under (k : Key) (f : NotedFrame) : Option (Letter UInt32) :=
  f.note.bind fun note => if note.1 = k then some note.2 else none

/-- The letters under a key. -/
def letters (k : Key) (link : List NotedFrame) : List (Letter UInt32) := link.filterMap (·.under k)

@[simp] lemma letters_nil (k : Key) : letters k [] = [] := rfl

@[simp] lemma letters_append (k : Key) (link link' : List NotedFrame) :
    letters k (link ++ link') = letters k link ++ letters k link' :=
  List.filterMap_append

lemma letters_cons (k : Key) (f : NotedFrame) (link : List NotedFrame) :
    letters k (f :: link) = letters k [f] ++ letters k link :=
  letters_append k [f] link

@[simp] lemma letters_note (k k' : Key) (letter : Letter UInt32) (frame : List UInt8) :
    letters k [⟨some (k', letter), frame⟩] = if k' = k then [letter] else [] := by
  by_cases h : k' = k <;> simp [letters, NotedFrame.under, h]

@[simp] lemma letters_none (k : Key) (frame : List UInt8) : letters k [⟨none, frame⟩] = [] := by
  simp [letters, NotedFrame.under]

lemma onData_closeFrame (m : Mux) {r : UInt32} (hr : r ≠ 0) :
    m.onData (closeFrame r) =
      match m.remoteToChannel r with
      | none => m
      | some p => m.remoteClose p := by
  have hr' : r.toUInt64 ≠ 0 := by
    intro h
    exact hr (by simpa using congrArg UInt64.toUInt32 h)
  have hlast := varintDecode_varintEncode r.toUInt64 []
  rw [List.append_nil] at hlast
  have hcalls : onDataCalls (closeFrame r) = [.close (varintEncode r.toUInt64)] := by
    simp only [closeFrame, List.append_assoc, onDataCalls, varintDecode_varintEncode, controlCalls]
    simp [varintEncode_ne_nil, controlOpen, controlReject, controlClose, controlBatch]
  have hdecode : decodeId (varintEncode r.toUInt64) = some r := by
    simp only [decodeId, hlast, hr', not_gt_uint32Max, or_self, if_false, toUInt64_toUInt32]
  rw [Mux.onData, hcalls, List.foldl_cons, List.foldl_nil, handle, handleClose, hdecode]
  rfl

/-! ## The ends under each key -/

/-- The muxes do, under each key, what the two ends of `w` under that key do. -/
structure Line.Follows (n : Line) (w : Key → Meeting UInt32) : Prop where
  keyed : ∀ s, Keyed (n.mux s)
  slot : ∀ s k, (n.mux s).slot k = ⟨(w k).channel s, (w k).pending s⟩
  link : ∀ s k, letters k (n.link s) = (w k).link s
  frames : ∀ s, ∀ f ∈ n.link s, f.Faithful
  sound : ∀ k s, Meeting.Sound (w k) s
  /-- The ids are used in turn, and each under one key. -/
  used_le : ∀ s k, ∀ r ∈ (w k).used s, r.toNat ≤ (n.mux s).nextPtr
  apart : ∀ s k k' r, r ∈ (w k).used s → r ∈ (w k').used s → k = k'

namespace Line

variable {n : Line} {w : Key → Meeting UInt32}

lemma Follows.idle (h : n.Follows w) (s : Side) {m : Mux} (hkeyed : Keyed m)
    (hptr : m.nextPtr = (n.mux s).nextPtr) (hslot : m.slot = (n.mux s).slot)
    {link : Side → List NotedFrame} (hframes : ∀ t, ∀ f ∈ link t, f.Faithful)
    (hletters : ∀ t k, letters k (link t) = letters k (n.link t)) :
    Follows ⟨update n.mux s m, link⟩ w := by
  refine ⟨fun t => ?_, fun t k => ?_, fun t k => (hletters t k).trans (h.link t k), hframes, h.sound,
    fun t k r hr => ?_, h.apart⟩
  all_goals
    rcases eq_or_ne t s with rfl | hne
    · simp only [Function.update_self]
      first
        | exact hkeyed
        | rw [hslot]; exact h.slot t k
        | rw [hptr]; exact h.used_le t k r hr
    · simp only [Function.update_of_ne hne]
      first
        | exact h.keyed t
        | exact h.slot t k
        | exact h.used_le t k r hr

lemma Follows.turn (h : n.Follows w) (k : Key) (turn : Turn UInt32)
    (hallowed : Meeting.Allowed (w k) turn) (s : Side) {w' : Meeting UInt32}
    (hw' : (w k).step turn = w') {m : Mux} (hkeyed : Keyed m)
    (hptr : (n.mux s).nextPtr ≤ m.nextPtr)
    (hslot : m.slot = update (n.mux s).slot k ⟨w'.channel s, w'.pending s⟩)
    (hchannel : w'.channel s.other = (w k).channel s.other)
    (hpending : w'.pending s.other = (w k).pending s.other)
    {link : Side → List NotedFrame} (hframes : ∀ t, ∀ f ∈ link t, f.Faithful)
    (hletters : ∀ t, letters k (link t) = w'.link t)
    (hothers : ∀ t k', k' ≠ k → letters k' (link t) = letters k' (n.link t))
    (hused : ∀ t, ∀ r ∈ w'.used t, r ∈ (w k).used t ∨
      t = s ∧ (n.mux s).nextPtr < r.toNat ∧ r.toNat ≤ m.nextPtr) :
    Follows ⟨update n.mux s m, link⟩ (update w k w') := by
  have hle (t : Side) : (n.mux t).nextPtr ≤ (update n.mux s m t).nextPtr := by
    rcases eq_or_ne t s with rfl | hne
    · simpa using hptr
    · simp [hne]
  -- an id that is new was not used under another key
  have hapart {t : Side} {k' : Key} {r : UInt32} (hr : r ∈ w'.used t) (hr' : r ∈ (w k').used t) :
      k = k' := by
    rcases hused t r hr with hold | ⟨rfl, hlt, -⟩
    · exact h.apart t k k' r hold hr'
    · exact absurd (h.used_le t k' r hr') (Nat.not_le.2 hlt)
  refine ⟨fun t => ?_, fun t k' => ?_, fun t k' => ?_, hframes, fun k' t => ?_, fun t k' r hr => ?_,
    fun t k₁ k₂ r hr₁ hr₂ => ?_⟩
  · rcases eq_or_ne t s with rfl | hne
    · simpa using hkeyed
    · simpa [hne] using h.keyed t
  · rcases eq_or_ne t s with rfl | hne
    · simp only [Function.update_self, hslot]
      rcases eq_or_ne k' k with rfl | hk
      · simp
      · simpa [hk] using h.slot t k'
    · simp only [Function.update_of_ne hne]
      rcases eq_or_ne k' k with rfl | hk
      · obtain rfl := Side.eq_other_of_ne hne
        simp [hchannel, hpending, h.slot]
      · simpa [hk] using h.slot t k'
  · rcases eq_or_ne k' k with rfl | hk
    · simpa using hletters t
    · simpa [hk] using (hothers t k' hk).trans (h.link t k')
  · rcases eq_or_ne k' k with rfl | hk
    · simpa [hw'] using Meeting.sound_step (h.sound k') hallowed t
    · simpa [hk] using h.sound k' t
  · rcases eq_or_ne k' k with rfl | hk
    · rw [Function.update_self] at hr
      rcases hused t r hr with hold | ⟨rfl, -, hnew⟩
      · exact (h.used_le t k' r hold).trans (hle t)
      · simpa using hnew
    · rw [Function.update_of_ne hk] at hr
      exact (h.used_le t k' r hr).trans (hle t)
  · by_cases hk₁ : k₁ = k <;> by_cases hk₂ : k₂ = k
    · rw [hk₁, hk₂]
    · rw [hk₁, Function.update_self] at hr₁
      rw [Function.update_of_ne hk₂] at hr₂
      exact hk₁.trans (hapart hr₁ hr₂)
    · rw [Function.update_of_ne hk₁] at hr₁
      rw [hk₂, Function.update_self] at hr₂
      exact (hk₂.trans (hapart hr₂ hr₁)).symm
    · rw [Function.update_of_ne hk₁] at hr₁
      rw [Function.update_of_ne hk₂] at hr₂
      exact h.apart t k₁ k₂ r hr₁ hr₂

end Line

/-! ## One step -/

lemma Ready.nextLocalId_toNat {m : Mux} (h : Ready m) (hwrap : m.nextLocalId ≠ 0) :
    m.nextLocalId.toNat = m.nextPtr + 1 := by
  have hne : m.nextLocalId.toNat ≠ 0 := fun h0 => hwrap (UInt32.toNat_inj.1 h0)
  have hnext : m.nextLocalId.toNat = (Nat.succ m.nextPtr) % 2 ^ 32 := h.nextLocalId
  have hlt : Nat.lt m.nextPtr (2 ^ 32) := h.nextPtr
  show m.nextLocalId.toNat = Nat.succ m.nextPtr
  rcases Nat.lt_or_eq_of_le (Nat.succ_le_of_lt hlt) with hsmall | heq
  · rw [hnext, Nat.mod_eq_of_lt hsmall]
  · rw [heq, Nat.mod_self] at hnext
    exact absurd hnext hne

namespace Line

variable {n : Line} {w : Key → Meeting UInt32}

lemma Follows.create (h : n.Follows w) (s : Side) {protocol id : Bytes}
    (hprotocol : protocol.1 ≠ []) (hwrap : (n.mux s).nextLocalId ≠ 0)
    (hone : ∀ c ∈ (n.mux s).channels, c.protocol = protocol → c.id ≠ id) (unique : Bool) :
    ∃ w', (lineStep n (.create s protocol id unique)).Follows w' := by
  have hnew : ∀ c ∈ (n.mux s).channels, c.key ≠ buildPairKey protocol.1 id.1 := by
    intro c hc hkey
    obtain ⟨hp, hid⟩ := buildPairKey_inj.1 hkey
    exact hone c hc (Subtype.ext hp) (Subtype.ext hid)
  obtain ⟨hkeyed, hptr, hslot⟩ := (h.keyed s).createChannel hwrap hprotocol hnew unique
  have hnext := (h.keyed s).ready.nextLocalId_toNat hwrap
  have hold := h.slot s (buildPairKey protocol.1 id.1)
  have hnone : (w (buildPairKey protocol.1 id.1)).channel s = none := by
    simpa [hold] using (h.keyed s).slot_channel_eq_none hnew
  refine ⟨_, h.turn (buildPairKey protocol.1 id.1) (.create s (n.mux s).nextLocalId)
    ⟨hnone, fun hin => ?_⟩ s rfl hkeyed (by rw [hptr]; exact Nat.le_succ _) ?_
    (by simp [Meeting.step]) rfl h.frames (fun t => h.link t _) (fun _ _ _ => rfl) ?_⟩
  · have hle := h.used_le s _ _ hin
    rw [hnext] at hle
    exact absurd hle (Nat.not_succ_le_self _)
  · rw [hslot, hold]
    simp [Meeting.step]
  · intro t r hr
    rcases eq_or_ne t s with rfl | hne
    · rcases Set.mem_insert_iff.1 (by simpa [Meeting.step] using hr) with rfl | hr
      · rw [hnext, hptr]
        exact .inr ⟨rfl, Nat.lt_succ_self _, le_rfl⟩
      · exact .inl hr
    · exact .inl (by simpa [Meeting.step, hne] using hr)

lemma Follows.written (h : n.Follows w) (s : Side) {f : NotedFrame} (hf : f.Faithful) (t : Side) :
    ∀ g ∈ update n.link s (n.link s ++ [f]) t, g.Faithful := by
  intro g hg
  rcases eq_or_ne t s with rfl | hne
  · rw [Function.update_self, List.mem_append, List.mem_singleton] at hg
    rcases hg with hg | rfl
    · exact h.frames t g hg
    · exact hf
  · rw [Function.update_of_ne hne] at hg
    exact h.frames t g hg

lemma flush_self (s : Side) (hout : (n.mux s).outbox = []) (note : Option (Key × Letter UInt32)) :
    n.flush s (n.mux s) note = n := by
  have hmux : { n.mux s with outbox := [] } = n.mux s := by rw [← hout]
  simp [flush, hmux, hout]

lemma letters_written (s t : Side) (k k' : Key) (letter : Letter UInt32) (frame : List UInt8) :
    letters k' (update n.link s (n.link s ++ [⟨some (k, letter), frame⟩]) t) =
      if t = s ∧ k' = k then letters k' (n.link t) ++ [letter] else letters k' (n.link t) := by
  rcases eq_or_ne t s with rfl | hne
  · by_cases hk : k' = k
    · simp [hk]
    · simp [hk, Ne.symm hk]
  · simp [hne]

lemma Follows.open (h : n.Follows w) (s : Side) (p : Ptr) (handshake : Bytes) :
    ∃ w', (lineStep n (.open s p handshake)).Follows w' := by
  rcases (h.keyed s).channelOpen p handshake with
    heq | ⟨c, hc, hget, hsent, m, heq, hkeyed, hptr, hslot⟩
  · refine ⟨w, ?_⟩
    rw [lineStep, heq, flush_self s (h.keyed s).ready.outbox]
    exact h
  · have hstate : lineStep n (.open s p handshake) =
        ⟨update n.mux s m, update n.link s (n.link s ++
          [⟨some (c.key, .open c.localId), openFrame c.localId c.protocol c.id handshake⟩])⟩ := by
      have hm : { m with outbox := [] } = m := by rw [← hkeyed.ready.outbox]
      simp [lineStep, flush, noteOf, heq, hget, hm]
    have hold := h.slot s c.key
    have hchannel : (w c.key).channel s = some c.seen := by
      simpa [hold] using (h.keyed s).slot_channel hc
    have hunsent : c.seen.sent = false := hsent
    have hturn : (w c.key).step (.open s) = { w c.key with
        channel := update (w c.key).channel s
          (some { c.seen with sent := true, remote := (w c.key).pending s })
        pending := update (w c.key).pending s none
        opened := update (w c.key).opened s ((w c.key).opened s ++ [c.localId])
        link := update (w c.key).link s ((w c.key).link s ++ [.open c.localId]) } := by
      simp only [Meeting.step, hchannel, hunsent, Meeting.write]
      rfl
    rw [hstate]
    refine ⟨_, h.turn c.key (.open s) trivial s hturn hkeyed hptr.ge ?_
      (by simp) (by simp)
      (h.written s (.opens _ _ _ _ ((h.keyed s).ready.localId_ne_zero hc) ((h.keyed s).named c hc)))
      ?_ ?_ fun _ _ => .inl⟩
    · rw [hslot, hold]
      simp
    · intro t
      rw [letters_written, h.link]
      rcases eq_or_ne t s with rfl | hne
      · simp
      · simp [hne]
    · intro t k' hk'
      rw [letters_written, if_neg fun hboth => hk' hboth.2]

lemma Follows.close (h : n.Follows w) (s : Side) (p : Ptr)
    (hcloses : ClosesPaired n (.close s p)) :
    ∃ w', (lineStep n (.close s p)).Follows w' := by
  rcases (h.keyed s).channelClose p with ⟨-, heq⟩ | ⟨c, hc, hget, m, heq, hkeyed, hptr, hslot⟩
  · refine ⟨w, ?_⟩
    rw [lineStep, heq, flush_self s (h.keyed s).ready.outbox]
    exact h
  · have hstate : lineStep n (.close s p) = ⟨update n.mux s m, update n.link s (n.link s ++
        [⟨some (c.key, .close c.localId), closeFrame c.localId⟩])⟩ := by
      have hm : { m with outbox := [] } = m := by rw [← hkeyed.ready.outbox]
      simp [lineStep, flush, noteOf, heq, hget, hm]
    have hold := h.slot s c.key
    have hchannel : (w c.key).channel s = some c.seen := by
      simpa [hold] using (h.keyed s).slot_channel hc
    have hallowed : Meeting.Allowed (w c.key) (.close s) := by
      intro d hd
      obtain rfl := Option.some.inj (hchannel.symm.trans hd)
      refine (hcloses c hget).imp (fun hopened => ?_) fun ⟨hsent, hnone⟩ => ⟨hsent, ?_⟩
      · simp [Channel.seen, hopened]
      · have hpending := congrArg KeySlot.pending hold
        simpa [Mux.slot, hnone] using hpending.symm
    have hturn : (w c.key).step (.close s) = { w c.key with
        channel := update (w c.key).channel s none
        pending := update (w c.key).pending s none
        link := update (w c.key).link s ((w c.key).link s ++ [.close c.localId]) } := by
      simp only [Meeting.step, hchannel, Meeting.remove, Meeting.write]
      rfl
    rw [hstate]
    refine ⟨_, h.turn c.key (.close s) hallowed s hturn hkeyed hptr.ge (by simp [hslot]) (by simp)
      (by simp) (h.written s (.closes _ _ ((h.keyed s).ready.localId_ne_zero hc))) ?_ ?_
      fun _ _ => .inl⟩
    · intro t
      rw [letters_written, h.link]
      rcases eq_or_ne t s with rfl | hne
      · simp
      · simp [hne]
    · intro t k' hk'
      rw [letters_written, if_neg fun hboth => hk' hboth.2]

lemma Follows.received_of_known (h : n.Follows w) {s : Side} {k : Key} {r : UInt32}
    (hknown : (∃ c ∈ (n.mux s).channels, c.key = k ∧ c.opened = true ∧ c.remoteId = r) ∨
      ∃ remote, (n.mux s).pendingRemote k = some remote ∧ remote.remoteLocalId = r) :
    r ∈ (w k).received s ∧ r ∈ (w k).used s.other := by
  have hin : r ∈ (w k).received s := by
    rcases hknown with ⟨c, hc, rfl, hopened, rfl⟩ | ⟨remote, hremote, rfl⟩
    · have hchannel : (w c.key).channel s = some c.seen := by
        simpa [h.slot s c.key] using (h.keyed s).slot_channel hc
      exact Meeting.received_of_remote (h.sound c.key s) hchannel (by simp [Channel.seen, hopened])
    · have hpending := congrArg KeySlot.pending (h.slot s k)
      exact Meeting.received_of_pending (h.sound k) (by simpa [Mux.slot, hremote] using hpending.symm)
  exact ⟨hin, Meeting.used_of_received (h.sound k) hin⟩

lemma Follows.unknown (h : n.Follows w) {t : Side} {k : Key} {r : UInt32} {rest : List (Letter UInt32)}
    (hlink : (w k).link t.other = .open r :: rest) : Unknown (n.mux t) r := by
  obtain ⟨hused, hnot⟩ := Meeting.used_of_link (h.sound k t.other) hlink
  rw [Side.other_other] at hnot
  have hfresh {k' : Key} (hr : r ∈ (w k').received t ∧ r ∈ (w k').used t.other) : False :=
    hnot (h.apart t.other k' k r hr.2 hused ▸ hr.1)
  refine ⟨?_, fun k' remote hremote heq => hfresh (h.received_of_known (.inr ⟨remote, hremote, heq⟩))⟩
  cases hmap : (n.mux t).remoteToChannel r with
  | none => rfl
  | some p =>
    obtain ⟨c, hc, -, hr, hopened⟩ := (h.keyed t).ready.wf.remote r p hmap
    exact (hfresh (h.received_of_known (.inl ⟨c, hc, rfl, hopened, hr⟩))).elim

lemma Follows.delivered (h : n.Follows w) {s : Side} {f : NotedFrame} {rest : List NotedFrame}
    (hlink : n.link s = f :: rest) (t : Side) : ∀ g ∈ update n.link s rest t, g.Faithful := by
  intro g hg
  rcases eq_or_ne t s with rfl | hne
  · rw [Function.update_self] at hg
    exact h.frames t g (by rw [hlink]; exact List.mem_cons_of_mem _ hg)
  · rw [Function.update_of_ne hne] at hg
    exact h.frames t g hg

lemma letters_delivered {s : Side} {f : NotedFrame} {rest : List NotedFrame}
    (hlink : n.link s = f :: rest) {k : Key} (hf : letters k [f] = []) (t : Side) :
    letters k (update n.link s rest t) = letters k (n.link t) := by
  rcases eq_or_ne t s with rfl | hne
  · rw [Function.update_self, hlink, letters_cons, hf, List.nil_append]
  · rw [Function.update_of_ne hne]

lemma Follows.deliver (h : n.Follows w) (t : Side) :
    ∃ w', (lineStep n (.deliver t.other)).Follows w' := by
  cases hlink : n.link t.other with
  | nil => exact ⟨w, by simpa [lineStep, Line.deliver, hlink] using h⟩
  | cons f rest =>
    have hstate : lineStep n (.deliver t.other) =
        ⟨update n.mux t ((n.mux t).onData f.frame), update n.link t.other rest⟩ := by
      simp [lineStep, Line.deliver, hlink]
    have hf := h.frames t.other f (by simp [hlink])
    have hwf := (h.keyed t).ready.wf
    rw [hstate]
    cases hf with
    | message r messageType data hr =>
      have hidle (events : List Event) :
          Follows ⟨update n.mux t { n.mux t with events := events }, update n.link t.other rest⟩ w :=
        h.idle t ((h.keyed t).withEvents events) rfl rfl (h.delivered hlink)
          fun t' k => letters_delivered hlink (letters_none k _) t'
      refine ⟨w, ?_⟩
      rw [onData_dataFrame hwf hr]
      split
      · exact hidle (n.mux t).events
      · next p _ =>
        rcases dispatch_eq (n.mux t) p messageType.toUInt32 data with heq | heq <;> rw [heq]
        · exact hidle _
        · exact hidle _
    | opens r protocol id handshake hr hprotocol =>
      have hhead : (w (buildPairKey protocol.1 id.1)).link t.other =
          .open r :: letters (buildPairKey protocol.1 id.1) rest := by
        rw [← h.link, hlink, letters_cons, letters_note, if_pos rfl]
        rfl
      obtain ⟨hkeyed, hptr, hslot⟩ := @Keyed.receiveOpen _ (h.keyed t)
        ⟨r, handshake.1, protocol.1, id.1⟩ hr (h.unknown hhead)
      rw [onData_openFrame _ hr, if_neg hprotocol]
      generalize hw' : (w (buildPairKey protocol.1 id.1)).step (.deliver t.other) = w'
      have hstep := hw'
      simp only [Meeting.step, hhead, Side.other_other] at hstep
      obtain ⟨hletters, hused, hchannel, hpending⟩ := hstep ▸ Meeting.receiveOpen_frame
        { w (buildPairKey protocol.1 id.1) with
          link := update (w (buildPairKey protocol.1 id.1)).link t.other
            (letters (buildPairKey protocol.1 id.1) rest)
          received := update (w (buildPairKey protocol.1 id.1)).received t
            ((w (buildPairKey protocol.1 id.1)).received t ++ [r]) } t r
      refine ⟨_, h.turn (buildPairKey protocol.1 id.1) (.deliver t.other) trivial t hw' hkeyed hptr.ge ?_
        hchannel hpending (h.delivered hlink) (fun t' => ?_) (fun t' k hk => ?_) ?_⟩
      · rw [hslot, h.slot, ← hstep]
        refine congrArg _ ?_
        dsimp only [Meeting.receiveOpen]
        cases ((w (buildPairKey protocol.1 id.1)).channel t).filter Meeting.waiting <;> simp
      · rw [hletters]
        rcases eq_or_ne t' t.other with rfl | hne
        · simp
        · simp [hne, h.link]
      · exact letters_delivered hlink (by simp [hk.symm]) t'
      · rw [hused]
        exact fun _ _ => .inl
    | closes k r hr =>
      have hhead : (w k).link t.other = .close r :: letters k rest := by
        rw [← h.link, hlink, letters_cons, letters_note, if_pos rfl]
        rfl
      have hstep : (w k).step (.deliver t.other) =
          { w k with link := update (w k).link t.other (letters k rest) }.receiveClose t r := by
        simp only [Meeting.step, hhead, Side.other_other]
      rw [onData_closeFrame _ hr]
      cases hmap : (n.mux t).remoteToChannel r with
      | none =>
        -- no channel is paired with the id
        have hfree : ((w k).channel t).bind (·.remote) ≠ some r := by
          intro hpaired
          obtain ⟨l, hl, hremote⟩ := Option.bind_eq_some_iff.1 hpaired
          obtain ⟨c, hc, -, rfl⟩ := (h.keyed t).exists_of_slot (by rw [h.slot]; exact hl)
          have hopened : c.opened = true ∧ c.remoteId = r := by
            simpa [Channel.seen] using hremote
          have hmapped := (h.keyed t).ready.mapped c hc hopened.1
          rw [hopened.2, hmap] at hmapped
          cases hmapped
        rw [Meeting.receiveClose, if_neg hfree] at hstep
        refine ⟨_, h.turn k (.deliver t.other) trivial t hstep (h.keyed t) le_rfl ?_ rfl rfl
          (h.delivered hlink) (fun t' => ?_) (fun t' k' hk => ?_) fun _ _ => .inl⟩
        · funext k'
          rw [Function.update_apply]
          split_ifs with hk
          · rw [hk]
            exact h.slot t k
          · rfl
        · rcases eq_or_ne t' t.other with rfl | hne
          · simp
          · simp [hne, h.link]
        · exact letters_delivered hlink (by simp [hk.symm]) t'
      | some p =>
        obtain ⟨c, hc, rfl, hremote, hopened⟩ := hwf.remote r p hmap
        -- the id was used under one key, so that it is the key of the channel
        have hused := (h.received_of_known (.inl ⟨c, hc, rfl, hopened, hremote⟩)).2
        obtain rfl : c.key = k := h.apart t.other c.key k r hused
          ((h.sound k t.other).used_close r (by simp [hhead]))
        have hchannel : (w c.key).channel t = some c.seen := by
          simpa [h.slot t c.key] using (h.keyed t).slot_channel hc
        have hpaired : ((w c.key).channel t).bind (·.remote) = some r := by
          simp [hchannel, Channel.seen, hopened, hremote]
        rw [Meeting.receiveClose, if_pos hpaired] at hstep
        obtain ⟨hkeyed, hptr, hslot⟩ := (h.keyed t).remoteClose hc
        refine ⟨_, h.turn c.key (.deliver t.other) trivial t hstep hkeyed hptr.ge ?_ ?_ ?_
          (h.delivered hlink) (fun t' => ?_) (fun t' k' hk => ?_) fun _ _ => .inl⟩
        · rw [hslot]
          simp [Meeting.remove]
        · simp [Meeting.remove]
        · simp [Meeting.remove]
        · rcases eq_or_ne t' t.other with rfl | hne
          · simp [Meeting.remove]
          · simp [Meeting.remove, hne, h.link]
        · exact letters_delivered hlink (by simp [hk.symm]) t'

lemma Follows.send (h : n.Follows w) (s : Side) (p : Ptr) (messageType : Int32)
    (data : List UInt8) : (lineStep n (.send s p messageType data)).Follows w := by
  have hready := (h.keyed s).ready
  cases hget : (n.mux s).channel? p with
  | none =>
    simp only [lineStep, channelSend, hget, flush_self s hready.outbox]
    exact h
  | some c =>
    obtain ⟨hc, rfl⟩ := mem_of_channel? hget
    cases hopened : c.opened with
    | false =>
      simp only [lineStep, channelSend, hget, hopened, Bool.not_false, true_or, if_true,
        flush_self s hready.outbox]
      exact h
    | true =>
      have hne : c.remoteId ≠ 0 := (hready.wf.channels c hc).remoteId.1 hopened
      have hstate : lineStep n (.send s c.ptr messageType data) =
          ⟨update n.mux s (n.mux s), update n.link s
            (n.link s ++ [⟨none, dataFrame c.remoteId messageType data⟩])⟩ := by
        have hm : { n.mux s with outbox := [] } = n.mux s := by rw [← hready.outbox]
        simp [lineStep, flush, channelSend, hget, hopened, (hready.wf.channels c hc).closed, hne,
          hready.writeFrame_eq, hm]
      rw [hstate]
      refine h.idle s (h.keyed s) rfl rfl (h.written s (.message _ _ _ hne)) fun t k => ?_
      rcases eq_or_ne t s with rfl | hts
      · simp
      · simp [hts]

/-- **A step of the muxes** is a turn under one key, or none. -/
theorem follows_step (h : n.Follows w) {i : LineInput} (hone : OneAtATime n i)
    (hcloses : ClosesPaired n i) : ∃ w', (lineStep n i).Follows w' := by
  cases i with
  | create s protocol id unique => exact h.create s hcloses.1 hcloses.2 hone unique
  | «open» s p handshake => exact h.open s p handshake
  | send s p messageType data => exact ⟨w, h.send s p messageType data⟩
  | close s p => exact h.close s p hcloses
  | deliver s =>
    obtain ⟨t, rfl⟩ : ∃ t : Side, t.other = s := ⟨s.other, s.other_other⟩
    exact h.deliver t

lemma follows_init : ({} : Line).Follows fun _ => {} where
  keyed _ := ⟨⟨wf_init, rfl, rfl, rfl, by simp, Nat.two_pow_pos 32, rfl, by simp, by simp, by simp⟩,
    by simp, by simp, by simp⟩
  slot _ _ := rfl
  link _ _ := rfl
  frames := by simp
  sound _ := Meeting.sound_init
  used_le := by simp
  apart := by simp

lemma Follows.reopened (h : n.Follows w) : Reopened n := by
  have hchannel {s : Side} {c : Channel} (hc : c ∈ (n.mux s).channels) :
      (w c.key).channel s = some c.seen := by
    simpa [h.slot s c.key] using (h.keyed s).slot_channel hc
  have hletters (hlink : ∀ s, n.link s = []) (k : Key) (s : Side) : (w k).link s = [] := by
    rw [← h.link, hlink, letters_nil]
  refine ⟨fun hlink c hc d hd hprotocol hid hsent hsent' => ?_, fun hlink s c hc hopened => ?_⟩
  · have hkey : d.key = c.key := by rw [Channel.key, Channel.key, hprotocol, hid]
    have hd' : (w c.key).channel .b = some d.seen := hkey ▸ hchannel hd
    have hremote {s : Side} {c d : Channel} (hmeets : c.seen.remote = some d.seen.id) :
        c.opened = true ∧ c.remoteId = d.localId := by
      simpa [Channel.seen] using hmeets
    obtain ⟨hopened, hdid⟩ := @hremote .a c d (Meeting.meets (h.sound c.key) (hletters hlink c.key)
      (hchannel hc) hd' hsent hsent')
    obtain ⟨hopened', hcid⟩ := @hremote .b d c (Meeting.meets (h.sound c.key) (hletters hlink c.key)
      hd' (hchannel hc) hsent' hsent)
    exact ⟨hopened, hopened', hdid, hcid⟩
  · obtain ⟨l, hl, hid⟩ := Meeting.lives_of_remote (h.sound c.key) (hletters hlink c.key)
      (hchannel hc) (show c.seen.remote = some c.remoteId by simp [Channel.seen, hopened])
    obtain ⟨d, hd, hkey, rfl⟩ := (h.keyed s.other).exists_of_slot (by rw [h.slot]; exact hl)
    obtain ⟨hp, hi⟩ := buildPairKey_inj.1 hkey
    exact ⟨d, hd, Subtype.ext hp, Subtype.ext hi, hid⟩

end Line

/-! ## Whole runs -/

/-- **Channels are opened again**: in every run whose steps meet the condition, two channels that were opened are
paired with each other whenever all frames are delivered, and no channel is paired with one that is gone. -/
theorem reopened_of_closesPaired (is : List LineInput)
    (hone : Runs.EveryStep lineStep OneAtATime {} is)
    (hcloses : Runs.EveryStep lineStep ClosesPaired {} is) :
    Runs.EveryState lineStep Reopened {} is := by
  have hfollows : Runs.EveryState lineStep (fun n => ∃ w, n.Follows w) {} is :=
    Runs.everyState_of_everyStep (fun _ _ ⟨_, h⟩ hi => Line.follows_step h hi.1 hi.2)
      ⟨_, Line.follows_init⟩ (hone.and hcloses)
  exact hfollows.mono fun _ ⟨_, h⟩ => h.reopened

instance (n : Line) : (i : LineInput) → Decidable (OneAtATime n i)
  | .create s protocol id _ =>
    inferInstanceAs (Decidable (∀ c ∈ (n.mux s).channels, c.protocol = protocol → c.id ≠ id))
  | .open .. => .isTrue trivial
  | .send .. => .isTrue trivial
  | .close .. => .isTrue trivial
  | .deliver _ => .isTrue trivial

instance (n : Line) : (i : LineInput) → Decidable (ClosesPaired n i)
  | .create s protocol _ _ =>
    inferInstanceAs (Decidable (protocol.1 ≠ [] ∧ (n.mux s).nextLocalId ≠ 0))
  | .open .. => .isTrue trivial
  | .send .. => .isTrue trivial
  | .close s p => inferInstanceAs (Decidable (∀ c ∈ (n.mux s).channel? p, _ ∨ _))
  | .deliver _ => .isTrue trivial

/-- A channel is opened at each end and paired, one of them is closed, and both are opened again. -/
def reopenRun : List LineInput :=
  [.create .a protocolP emptyBytes true, .open .a 0 emptyBytes, .create .b protocolP emptyBytes true,
    .open .b 0 emptyBytes, .deliver .a, .deliver .b, .close .a 0, .create .a protocolP emptyBytes true,
    .open .a 1 emptyBytes, .deliver .a, .create .b protocolP emptyBytes true, .deliver .a,
    .open .b 1 emptyBytes, .deliver .b]

/-- The channels that were opened again are paired. -/
theorem reopened_reopenRun : Reopened (Runs.run lineStep {} reopenRun) :=
  (reopened_of_closesPaired reopenRun (by decide +kernel) (by decide +kernel)).run

def crossingRun : List LineInput :=
  [.create .a protocolP emptyBytes true, .open .a 0 emptyBytes, .deliver .a, .close .a 0, .deliver .a,
    .create .b protocolP emptyBytes true, .open .b 0 emptyBytes, .deliver .b,
    .create .a protocolP emptyBytes true, .open .a 1 emptyBytes, .deliver .a]

/-- The OPEN of the channel that is gone is answered, and the answer is taken for one to the next channel. -/
theorem not_reopened_crossing :
    Runs.EveryStep lineStep OneAtATime {} crossingRun ∧
      ¬ Runs.EveryState lineStep Reopened {} crossingRun := by
  refine ⟨by decide +kernel, fun hall => ?_⟩
  have hlink : ∀ s, (Runs.run lineStep {} crossingRun).link s = [] := by
    rintro (_ | _) <;> rfl
  have hgone : ∃ c ∈ ((Runs.run lineStep {} crossingRun).mux .b).channels, c.opened = true ∧
      ∀ d ∈ ((Runs.run lineStep {} crossingRun).mux .a).channels, d.localId ≠ c.remoteId := by
    decide +kernel
  obtain ⟨c, hc, hopened, hnone⟩ := hgone
  obtain ⟨d, hd, -, -, hid⟩ := hall.run.alive hlink .b c hc hopened
  exact hnone d hd hid

end HyperDHT.Protomux
