import Mathlib.Data.List.Nodup
import HyperDHT.Lib.Runs
import HyperDHT.Protomux.Mux

/-!
# What a mux keeps

The invariant of a mux over all calls and all incoming frames, and for each operation a normal
form under the invariant.

## Main definitions

* `Protomux.Mux.Wf` — the invariant: the channels a mux owns are live, and a remote id is mapped
  to an open channel only.
* `Protomux.Mux.link` — what pairing a channel comes to under the invariant.

## Main results

* `Protomux.wf_step`, `Protomux.wf_run` — the invariant holds in every reachable mux.
* `Protomux.Mux.channelOpen_cases`, `receiveOpen_cases`, `handleData_eq` — the operations under the
  invariant.

## Design

Nothing is buffered in a well-formed mux: `remote_to_channel_` gets its entries in `try_pair`,
which opens the channel in the same call, so that `handle_data` never meets a channel that is
mapped and not open.
-/

set_option autoImplicit false

namespace HyperDHT.Protomux

/-- A channel between two calls: it is live, it is open exactly when it has a remote id, only
after its OPEN was sent, and it buffers nothing. -/
structure Channel.Wf (c : Channel) : Prop where
  closed : c.closed = false
  destroyed : c.destroyed = false
  openSent : c.opened = true → c.openSent = true
  remoteId : c.opened = true ↔ c.remoteId ≠ 0
  pendingMessages : c.pendingMessages = []

namespace Mux

/-- The invariant of a mux. -/
structure Wf (m : Mux) : Prop where
  channels : ∀ c ∈ m.channels, c.Wf
  ptr_lt : ∀ c ∈ m.channels, c.ptr < m.nextPtr
  nodup : (m.channels.map (·.ptr)).Nodup
  /-- A remote id is mapped to an open channel with that remote id. -/
  remote : ∀ r p, m.remoteToChannel r = some p →
    ∃ c ∈ m.channels, c.ptr = p ∧ c.remoteId = r ∧ c.opened = true
  pending : ∀ k remote, m.pendingRemote k = some remote → remote.remoteLocalId ≠ 0
  corked : m.corkCount ≤ 0 → m.batch = []

/-! ## Channels by pointer -/

lemma mem_of_channel? {m : Mux} {p : Ptr} {c : Channel} (h : m.channel? p = some c) :
    c ∈ m.channels ∧ c.ptr = p :=
  ⟨List.mem_of_find?_eq_some h, by simpa using List.find?_some h⟩

lemma Wf.eq_of_ptr {m : Mux} (h : m.Wf) {c d : Channel} (hc : c ∈ m.channels)
    (hd : d ∈ m.channels) (hptr : c.ptr = d.ptr) : c = d :=
  List.inj_on_of_nodup_map h.nodup hc hd hptr

lemma Wf.channel? {m : Mux} (h : m.Wf) {c : Channel} (hc : c ∈ m.channels) :
    m.channel? c.ptr = some c := by
  cases hfind : m.channel? c.ptr with
  | none =>
    have hnone := List.find?_eq_none.1 hfind c hc
    simp at hnone
  | some d =>
    obtain ⟨hd, hptr⟩ := mem_of_channel? hfind
    rw [h.eq_of_ptr hd hc hptr]

lemma channel?_modifyChannel {m : Mux} {p : Ptr} {c : Channel} (f : Channel → Channel)
    (hf : ∀ c, (f c).ptr = c.ptr) (h : m.channel? p = some c) :
    (m.modifyChannel p f).channel? p = some (f c) := by
  have hpred : ((fun c : Channel => decide (c.ptr = p)) ∘ fun c => if c.ptr = p then f c else c) =
      fun c => decide (c.ptr = p) := by
    funext c
    simp only [Function.comp_apply]
    split_ifs with h <;> simp [hf]
  have hptr := (mem_of_channel? h).2
  simp only [channel?] at h
  simp only [channel?, modifyChannel, List.find?_map, hpred, h, Option.map_some, if_pos hptr]

lemma modifyChannel_eq_self {m : Mux} {p : Ptr} {f : Channel → Channel}
    (h : ∀ c ∈ m.channels, c.ptr = p → f c = c) : m.modifyChannel p f = m := by
  have hmap : (m.channels.map fun c => if c.ptr = p then f c else c) = m.channels := by
    refine (List.map_congr_left (g := id) fun c hc => ?_).trans (List.map_id _)
    split_ifs with hp
    · exact h c hc hp
    · rfl
  simp [modifyChannel, hmap]

/-! ## Pairing -/

/-- The channel after it was paired with the remote id `r`. -/
def linked (r : UInt32) (c : Channel) : Channel := { c with remoteId := r, opened := true }

/-- What pairing a channel comes to when nothing was buffered for it. -/
def link (m : Mux) (p : Ptr) (remote : PendingOpen) : Mux :=
  { m with
    channels := m.channels.map fun c => if c.ptr = p then linked remote.remoteLocalId c else c
    remoteToChannel := Function.update m.remoteToChannel remote.remoteLocalId (some p)
    events := m.events ++ [.onOpen p remote.handshake] }

lemma drainPending_eq_self {m : Mux} {p : Ptr}
    (h : ∀ c ∈ m.channels, c.ptr = p → c.pendingMessages = []) : m.drainPending p = m := by
  cases hget : m.channel? p with
  | none => simp [drainPending, hget]
  | some c =>
    obtain ⟨hc, hptr⟩ := mem_of_channel? hget
    simp only [drainPending, hget, h c hc hptr, List.foldl_nil]
    refine modifyChannel_eq_self fun d hd hp => ?_
    have hd := h d hd hp
    cases d
    simp_all

lemma fullyOpen_eq {m : Mux} {c : Channel} (hget : m.channel? c.ptr = some c)
    (hopened : c.opened = false) (hdestroyed : c.destroyed = false)
    (h : ∀ d ∈ m.channels, d.ptr = c.ptr → d.pendingMessages = []) (hs : List UInt8) :
    m.fullyOpen c.ptr hs =
      (m.modifyChannel c.ptr ({ · with opened := true })).log (.onOpen c.ptr hs) := by
  simp only [fullyOpen, hget, hopened, hdestroyed, Bool.false_eq_true, or_self, if_false]
  refine drainPending_eq_self fun d hd hp => ?_
  obtain ⟨e, he, rfl⟩ := List.mem_map.1 hd
  split_ifs at hp ⊢ with heq
  · exact h e he heq
  · exact absurd hp heq

lemma tryPair_eq {m : Mux} {c : Channel} (hget : m.channel? c.ptr = some c)
    (hopened : c.opened = false) (hdestroyed : c.destroyed = false)
    (h : ∀ d ∈ m.channels, d.ptr = c.ptr → d.pendingMessages = []) (remote : PendingOpen) :
    m.tryPair c.ptr remote = m.link c.ptr remote := by
  have hget' := channel?_modifyChannel ({ · with remoteId := remote.remoteLocalId })
    (fun _ => rfl) hget
  have hopen := @fullyOpen_eq
    { m.modifyChannel c.ptr ({ · with remoteId := remote.remoteLocalId }) with
      remoteToChannel := Function.update m.remoteToChannel remote.remoteLocalId (some c.ptr) }
    { c with remoteId := remote.remoteLocalId } hget' hopened hdestroyed (fun d hd hp => ?_)
    remote.handshake
  · refine hopen.trans ?_
    simp only [modifyChannel, log, link, List.map_map]
    congr 1
    refine List.map_congr_left fun d _ => ?_
    simp only [Function.comp_apply]
    split_ifs <;> simp_all [linked]
  · obtain ⟨e, he, rfl⟩ := List.mem_map.1 hd
    split_ifs at hp ⊢ with heq
    · exact h e he heq
    · exact absurd hp heq

/-! ## What writing a frame leaves alone -/

section WriteFrame

variable (m : Mux) (frame : List UInt8)

@[simp] lemma writeFrame_channels : (m.writeFrame frame).channels = m.channels := by
  simp only [writeFrame]; split_ifs <;> rfl

@[simp] lemma writeFrame_nextPtr : (m.writeFrame frame).nextPtr = m.nextPtr := by
  simp only [writeFrame]; split_ifs <;> rfl

@[simp] lemma writeFrame_remoteToChannel :
    (m.writeFrame frame).remoteToChannel = m.remoteToChannel := by
  simp only [writeFrame]; split_ifs <;> rfl

@[simp] lemma writeFrame_pendingRemote :
    (m.writeFrame frame).pendingRemote = m.pendingRemote := by
  simp only [writeFrame]; split_ifs <;> rfl

@[simp] lemma writeFrame_events : (m.writeFrame frame).events = m.events := by
  simp only [writeFrame]; split_ifs <;> rfl

lemma writeFrame_corked (h : m.corkCount ≤ 0 → m.batch = []) :
    (m.writeFrame frame).corkCount ≤ 0 → (m.writeFrame frame).batch = [] := by
  simp only [writeFrame]
  split_ifs with h1 h2 h3
  · exact h
  · exact h
  · intro hle
    exact absurd h2 (by simpa using hle)
  · exact h

lemma writeFrame_modifyChannel (p : Ptr) (f : Channel → Channel) :
    (m.modifyChannel p f).writeFrame frame = (m.writeFrame frame).modifyChannel p f := by
  simp only [writeFrame, modifyChannel]
  by_cases hd : m.destroyed = true
  · simp [hd]
  · by_cases hc : m.corkCount > 0
    · by_cases hf : frame = [] <;> simp [hd, hc, hf]
    · simp [hd, hc]

end WriteFrame

/-! ## The operations under the invariant -/

lemma Wf.tryPair_eq {m : Mux} (h : m.Wf) {c : Channel} (hc : c ∈ m.channels)
    (hopened : c.opened = false) (remote : PendingOpen) :
    m.tryPair c.ptr remote = m.link c.ptr remote :=
  Mux.tryPair_eq (h.channel? hc) hopened (h.channels c hc).destroyed
    (fun d hd _ => (h.channels d hd).pendingMessages) remote

/-- The mux after a channel has sent its OPEN. -/
def sendOpen (m : Mux) (c : Channel) (handshake : Bytes) : Mux :=
  (m.modifyChannel c.ptr ({ · with openSent := true })).writeFrame
    (openFrame c.localId c.protocol c.id handshake)

lemma Wf.channelOpen_eq {m : Mux} (h : m.Wf) {c : Channel} (hc : c ∈ m.channels)
    (hsent : c.openSent = false) (handshake : Bytes) :
    m.channelOpen c.ptr handshake =
      match c.pairKeys.findSome? fun k => (m.pendingRemote k).map (k, ·) with
      | none => m.sendOpen c handshake
      | some (k, pending) =>
        { m.sendOpen c handshake with
          pendingRemote := Function.update m.pendingRemote k none }.tryPair c.ptr pending := by
  simp only [channelOpen, h.channel? hc, hsent, (h.channels c hc).closed,
    (h.channels c hc).destroyed, Bool.false_eq_true, or_self, if_false, writeFrame_pendingRemote]
  rfl

/-- **Opening a channel**: nothing happens, or the OPEN is sent, and if a remote OPEN waits
under a key of the channel, the channel is paired with it. -/
theorem Wf.channelOpen_cases {m : Mux} (h : m.Wf) (p : Ptr) (handshake : Bytes) :
    ((∀ c ∈ m.channels, c.ptr = p → c.openSent = true) ∧ m.channelOpen p handshake = m) ∨
    ∃ c ∈ m.channels, c.ptr = p ∧ c.openSent = false ∧ c.opened = false ∧
      (((∀ k ∈ c.pairKeys, m.pendingRemote k = none) ∧
          m.channelOpen p handshake = m.sendOpen c handshake) ∨
        ∃ k ∈ c.pairKeys, ∃ remote, m.pendingRemote k = some remote ∧
          m.channelOpen p handshake =
            ({ m.sendOpen c handshake with
              pendingRemote := Function.update m.pendingRemote k none }.link p remote)) := by
  cases hget : m.channel? p with
  | none =>
    refine Or.inl ⟨fun c hc hp => ?_, by simp [channelOpen, hget]⟩
    rw [← hp, h.channel? hc] at hget
    cases hget
  | some c =>
    obtain ⟨hc, rfl⟩ := mem_of_channel? hget
    cases hsent : c.openSent with
    | true =>
      refine Or.inl ⟨fun d hd hp => ?_, by simp [channelOpen, hget, hsent]⟩
      rw [h.eq_of_ptr hd hc hp, hsent]
    | false =>
      have hopened : c.opened = false := by
        by_contra hopen
        have := (h.channels c hc).openSent (by simpa using hopen)
        simp [hsent] at this
      refine Or.inr ⟨c, hc, rfl, hsent, hopened, ?_⟩
      rw [h.channelOpen_eq hc hsent]
      cases hfind : c.pairKeys.findSome? fun k => (m.pendingRemote k).map (k, ·) with
      | none =>
        refine Or.inl ⟨fun k hk => ?_, rfl⟩
        simpa using List.findSome?_eq_none_iff.1 hfind k hk
      | some found =>
        obtain ⟨k, remote⟩ := found
        obtain ⟨k', hk', hmap⟩ := List.exists_of_findSome?_eq_some hfind
        obtain ⟨remote', hremote, heq⟩ := Option.map_eq_some_iff.1 hmap
        obtain ⟨rfl, rfl⟩ := Prod.mk.inj heq
        refine Or.inr ⟨k', hk', remote', hremote, ?_⟩
        -- the channel that is paired is the one whose `openSent` was just set
        refine @Mux.tryPair_eq _ { c with openSent := true } ?_ hopened
          (h.channels c hc).destroyed (fun d hd _ => ?_) remote'
        · simpa [Mux.channel?, sendOpen] using
            channel?_modifyChannel ({ · with openSent := true }) (fun _ => rfl) hget
        · obtain ⟨e, he, rfl⟩ : ∃ e ∈ m.channels,
              (if e.ptr = c.ptr then { e with openSent := true } else e) = d := by
            simpa [sendOpen, modifyChannel] using hd
          split_ifs <;> exact (h.channels e he).pendingMessages

/-- **Receiving an OPEN**: it is paired with the first channel that answers to its key, if that
channel waits for it, and is stored otherwise. -/
theorem Wf.receiveOpen_cases {m : Mux} (h : m.Wf) (remote : PendingOpen) :
    (∃ c ∈ m.channels, m.findByPairKey (buildPairKey remote.protocol remote.id) = some c ∧
      c.openSent = true ∧ c.opened = false ∧ m.receiveOpen remote = m.link c.ptr remote) ∨
    ((∀ c, m.findByPairKey (buildPairKey remote.protocol remote.id) = some c →
        c.openSent = true → c.opened = true) ∧
      m.receiveOpen remote =
        { m with
          pendingRemote := Function.update m.pendingRemote
            (buildPairKey remote.protocol remote.id) (some remote) }.dispatchNotify
          remote.protocol remote.id remote.handshake) := by
  simp only [receiveOpen]
  cases hfind : (m.findByPairKey (buildPairKey remote.protocol remote.id)).filter
      fun c => c.openSent && !c.opened with
  | none =>
    refine Or.inr ⟨fun c hc hsent => ?_, rfl⟩
    simpa [hc, hsent] using hfind
  | some c =>
    obtain ⟨hc, hstate⟩ := Option.filter_eq_some_iff.1 hfind
    simp only [Bool.and_eq_true, Bool.not_eq_true'] at hstate
    have hmem : c ∈ m.channels := List.mem_of_find?_eq_some hc
    exact Or.inl ⟨c, hmem, hc, hstate.1, hstate.2, h.tryPair_eq hmem hstate.2 remote⟩

/-- **Receiving data**: nothing is ever buffered. A message for a remote id that is mapped is
dispatched at once, and a message for any other id is dropped. -/
theorem Wf.handleData_eq {m : Mux} (h : m.Wf) (channelId : UInt32) (data : List UInt8) :
    m.handleData channelId data =
      match m.remoteToChannel channelId with
      | none => m
      | some p => m.dispatch p (decodeMessage data).1 (decodeMessage data).2 := by
  cases hmap : m.remoteToChannel channelId with
  | none => simp [handleData, hmap]
  | some p =>
    obtain ⟨c, hc, rfl, -, hopened⟩ := h.remote _ _ hmap
    simp [handleData, hmap, h.channel? hc, (h.channels c hc).destroyed, hopened]

lemma dispatch_eq (m : Mux) (p : Ptr) (type : UInt32) (data : List UInt8) :
    m.dispatch p type data = { m with events := m.events ++ [.dispatch p type data] } ∨
    m.dispatch p type data =
      { m with events := m.events ++ [.dispatch p type data, .onMessage p type data] } := by
  simp only [dispatch, log]
  split
  · split_ifs
    · exact Or.inr (by simp)
    · exact Or.inl rfl
  · exact Or.inl rfl

lemma dispatchNotify_eq (m : Mux) (protocol id handshake : List UInt8) :
    m.dispatchNotify protocol id handshake = m ∨
    ∃ slot, m.dispatchNotify protocol id handshake =
      { m with events := m.events ++ [.notify slot protocol id handshake] } := by
  simp only [dispatchNotify, log]
  split_ifs
  · exact Or.inr ⟨_, rfl⟩
  · exact Or.inr ⟨_, rfl⟩
  · exact Or.inr ⟨_, rfl⟩
  · exact Or.inl rfl

/-! ## The invariant is kept -/

lemma Wf.congr {m m' : Mux} (h : m.Wf) (hchannels : m'.channels = m.channels)
    (hptr : m'.nextPtr = m.nextPtr) (hremote : m'.remoteToChannel = m.remoteToChannel)
    (hpending : m'.pendingRemote = m.pendingRemote)
    (hcorked : m'.corkCount ≤ 0 → m'.batch = []) : m'.Wf where
  channels := by rw [hchannels]; exact h.channels
  ptr_lt := by rw [hchannels, hptr]; exact h.ptr_lt
  nodup := by rw [hchannels]; exact h.nodup
  remote := by rw [hchannels, hremote]; exact h.remote
  pending := by rw [hpending]; exact h.pending
  corked := hcorked

lemma Wf.log {m : Mux} (h : m.Wf) (e : Event) : (m.log e).Wf :=
  h.congr rfl rfl rfl rfl h.corked

lemma Wf.writeFrame {m : Mux} (h : m.Wf) (frame : List UInt8) : (m.writeFrame frame).Wf :=
  h.congr (by simp) (by simp) (by simp) (by simp) (writeFrame_corked m frame h.corked)

lemma Wf.dispatch {m : Mux} (h : m.Wf) (p : Ptr) (type : UInt32) (data : List UInt8) :
    (m.dispatch p type data).Wf := by
  rcases dispatch_eq m p type data with heq | heq <;> rw [heq] <;>
    exact h.congr rfl rfl rfl rfl h.corked

lemma Wf.dispatchNotify {m : Mux} (h : m.Wf) (protocol id handshake : List UInt8) :
    (m.dispatchNotify protocol id handshake).Wf := by
  rcases dispatchNotify_eq m protocol id handshake with heq | ⟨slot, heq⟩ <;> rw [heq]
  · exact h
  · exact h.congr rfl rfl rfl rfl h.corked

lemma Wf.modifyChannel {m : Mux} (h : m.Wf) (p : Ptr) {f : Channel → Channel}
    (hptr : ∀ c, (f c).ptr = c.ptr) (hremote : ∀ c, (f c).remoteId = c.remoteId)
    (hopened : ∀ c, (f c).opened = c.opened) (hwf : ∀ c, c.Wf → (f c).Wf) :
    (m.modifyChannel p f).Wf := by
  have hptrs : (m.modifyChannel p f).channels.map (·.ptr) = m.channels.map (·.ptr) := by
    simp only [Mux.modifyChannel, List.map_map]
    refine List.map_congr_left fun c _ => ?_
    simp only [Function.comp_apply]
    split_ifs
    · exact hptr c
    · rfl
  refine ⟨?_, ?_, by rw [hptrs]; exact h.nodup, ?_, h.pending, h.corked⟩
  · intro d hd
    obtain ⟨c, hc, rfl⟩ := List.mem_map.1 hd
    split_ifs
    · exact hwf c (h.channels c hc)
    · exact h.channels c hc
  · intro d hd
    obtain ⟨c, hc, rfl⟩ := List.mem_map.1 hd
    split_ifs
    · exact (hptr c).symm ▸ h.ptr_lt c hc
    · exact h.ptr_lt c hc
  · intro r q hq
    obtain ⟨c, hc, rfl, hr, ho⟩ := h.remote r q hq
    refine ⟨_, List.mem_map_of_mem hc, ?_⟩
    split_ifs
    · exact ⟨hptr c, (hremote c).trans hr, (hopened c).trans ho⟩
    · exact ⟨rfl, hr, ho⟩

lemma Wf.sendOpen {m : Mux} (h : m.Wf) (c : Channel) (handshake : Bytes) :
    (m.sendOpen c handshake).Wf := by
  have hsent : (m.modifyChannel c.ptr ({ · with openSent := true })).Wf := by
    refine h.modifyChannel c.ptr (fun _ => rfl) (fun _ => rfl) (fun _ => rfl) fun c hc => ?_
    exact ⟨hc.closed, hc.destroyed, fun _ => rfl, hc.remoteId, hc.pendingMessages⟩
  exact hsent.writeFrame _

lemma Wf.updatePending {m : Mux} (h : m.Wf) (k : Key) (slot : Option PendingOpen)
    (hslot : ∀ remote, slot = some remote → remote.remoteLocalId ≠ 0) :
    { m with pendingRemote := Function.update m.pendingRemote k slot }.Wf := by
  refine ⟨h.channels, h.ptr_lt, h.nodup, h.remote, ?_, h.corked⟩
  intro k' remote hk'
  by_cases hk : k' = k
  · subst hk
    exact hslot remote (by simpa using hk')
  · exact h.pending k' remote (by simpa [hk] using hk')

/-- **Pairing keeps the invariant.** A remote id that is mapped again loses its old channel, and
no mapped channel changes its remote id, because a mapped channel is open. -/
theorem Wf.link {m : Mux} (h : m.Wf) {c : Channel} (hc : c ∈ m.channels)
    (hsent : c.openSent = true) (hopened : c.opened = false) {remote : PendingOpen}
    (hremote : remote.remoteLocalId ≠ 0) : (m.link c.ptr remote).Wf := by
  have hptrs : (m.link c.ptr remote).channels.map (·.ptr) = m.channels.map (·.ptr) := by
    simp only [Mux.link, List.map_map]
    refine List.map_congr_left fun d _ => ?_
    simp only [Function.comp_apply]
    split_ifs <;> rfl
  refine ⟨?_, ?_, by rw [hptrs]; exact h.nodup, ?_, h.pending, h.corked⟩
  · intro d hd
    obtain ⟨e, he, rfl⟩ := List.mem_map.1 hd
    split_ifs with heq
    · obtain rfl := h.eq_of_ptr he hc heq
      have hwf := h.channels e he
      exact ⟨hwf.closed, hwf.destroyed, fun _ => hsent, by simp [linked, hremote],
        hwf.pendingMessages⟩
    · exact h.channels e he
  · intro d hd
    obtain ⟨e, he, rfl⟩ := List.mem_map.1 hd
    split_ifs <;> exact h.ptr_lt e he
  · intro r q hq
    by_cases hr : r = remote.remoteLocalId
    · subst hr
      obtain rfl : c.ptr = q := by simpa [Mux.link] using hq
      exact ⟨linked remote.remoteLocalId c, List.mem_map.2 ⟨c, hc, by simp⟩, rfl, rfl, rfl⟩
    · obtain ⟨d, hd, rfl, hdr, hdo⟩ := h.remote r q (by simpa [Mux.link, hr] using hq)
      have hne : d.ptr ≠ c.ptr := by
        intro heq
        rw [h.eq_of_ptr hd hc heq, hopened] at hdo
        cases hdo
      exact ⟨d, List.mem_map.2 ⟨d, hd, by simp [hne]⟩, rfl, hdr, hdo⟩

/-- Removing a channel keeps the invariant: an open channel leaves the map with its remote
id. -/
theorem Wf.removeChannel {m : Mux} (h : m.Wf) (p : Ptr) : (m.removeChannel p).Wf := by
  cases hget : m.channel? p with
  | none => simpa [Mux.removeChannel, hget] using h
  | some c =>
    obtain ⟨hc, rfl⟩ := mem_of_channel? hget
    have hsub : ∀ d ∈ (m.removeChannel c.ptr).channels, d ∈ m.channels ∧ d.ptr ≠ c.ptr := by
      intro d hd
      simpa [Mux.removeChannel, hget] using hd
    refine ⟨?_, ?_, ?_, ?_, ?_, ?_⟩
    · exact fun d hd => h.channels d (hsub d hd).1
    · intro d hd
      simpa [Mux.removeChannel, hget] using h.ptr_lt d (hsub d hd).1
    · simp only [Mux.removeChannel, hget]
      exact h.nodup.sublist (List.filter_sublist.map _)
    · intro r q hq
      have hold : m.remoteToChannel r = some q ∧ (c.remoteId ≠ 0 → r ≠ c.remoteId) := by
        simp only [Mux.removeChannel, hget] at hq
        split_ifs at hq with hzero
        · by_cases hr : r = c.remoteId
          · simp [hr] at hq
          · exact ⟨by simpa [hr] using hq, fun _ => hr⟩
        · exact ⟨hq, fun hne => absurd hne hzero⟩
      obtain ⟨d, hd, rfl, hdr, hdo⟩ := h.remote r q hold.1
      have hne : d.ptr ≠ c.ptr := by
        intro heq
        obtain rfl := h.eq_of_ptr hd hc heq
        exact hold.2 ((h.channels d hd).remoteId.1 hdo) hdr.symm
      exact ⟨d, by simp [Mux.removeChannel, hget, hd, hne], rfl, hdr, hdo⟩
    · intro k remote hk
      simp only [Mux.removeChannel, hget] at hk
      split_ifs at hk
      exact h.pending k remote hk
    · simpa [Mux.removeChannel, hget] using h.corked

lemma removeChannel_modifyChannel {m : Mux} {p : Ptr} {c : Channel} (hget : m.channel? p = some c)
    {f : Channel → Channel} (hptr : ∀ c, (f c).ptr = c.ptr)
    (hremote : ∀ c, (f c).remoteId = c.remoteId) (hlocal : ∀ c, (f c).localId = c.localId)
    (hkeys : ∀ c, (f c).pairKeys = c.pairKeys) :
    (m.modifyChannel p f).removeChannel p = m.removeChannel p := by
  have hfilter : ((m.channels.map fun c => if c.ptr = p then f c else c).filter
      fun c => decide (c.ptr ≠ p)) = m.channels.filter fun c => decide (c.ptr ≠ p) := by
    induction m.channels with
    | nil => rfl
    | cons d l ih =>
      simp only [ne_eq, decide_not] at ih
      by_cases hd : d.ptr = p <;> simp [hd, hptr, ih]
  simp only [removeChannel, hget, channel?_modifyChannel f hptr hget, hremote, hlocal, hkeys]
  simp only [modifyChannel, hfilter]
  rfl

lemma channelDestroy_eq {m : Mux} {p : Ptr} {c : Channel} (hget : m.channel? p = some c)
    (hlive : c.destroyed = false) :
    m.channelDestroy p = (m.log (.onDestroy p)).removeChannel p := by
  simp only [channelDestroy, hget, hlive, Bool.false_eq_true, if_false]
  exact @removeChannel_modifyChannel (m.log (.onDestroy p)) p c hget
    ({ · with destroyed := true, opened := false }) (fun _ => rfl) (fun _ => rfl) (fun _ => rfl)
    (fun _ => rfl)

lemma channelDestroy_closed {m : Mux} {p : Ptr} {c : Channel} (hget : m.channel? p = some c)
    (hlive : c.destroyed = false) :
    (m.modifyChannel p ({ · with closed := true })).channelDestroy p =
      (m.log (.onDestroy p)).removeChannel p := by
  have hget' := channel?_modifyChannel ({ · with closed := true }) (fun _ => rfl) hget
  rw [channelDestroy_eq hget' hlive]
  exact @removeChannel_modifyChannel (m.log (.onDestroy p)) p c hget ({ · with closed := true })
    (fun _ => rfl) (fun _ => rfl) (fun _ => rfl) (fun _ => rfl)

lemma Wf.remoteClose_eq {m : Mux} (h : m.Wf) {c : Channel} (hc : c ∈ m.channels) :
    m.remoteClose c.ptr = ((m.log (.onDestroy c.ptr)).removeChannel c.ptr).log (.onClose c.ptr) := by
  have hlive := (h.channels c hc).destroyed
  simp only [Mux.remoteClose, h.channel? hc, hlive, Bool.false_eq_true, if_false]
  rw [channelDestroy_closed (h.channel? hc) hlive]

lemma Wf.channelClose_eq {m : Mux} (h : m.Wf) {c : Channel} (hc : c ∈ m.channels) :
    m.channelClose c.ptr =
      (((m.writeFrame (closeFrame c.localId)).log (.onClose c.ptr)).log
        (.onDestroy c.ptr)).removeChannel c.ptr := by
  have hwf := h.channels c hc
  have hget : ((m.writeFrame (closeFrame c.localId)).log (.onClose c.ptr)).channel? c.ptr =
      some c := by
    simpa [Mux.channel?, Mux.log] using h.channel? hc
  have hclose := channelDestroy_closed hget hwf.destroyed
  simp only [Mux.channelClose, h.channel? hc, hwf.closed, hwf.destroyed, Bool.false_eq_true,
    or_self, if_false, writeFrame_modifyChannel]
  rw [show ((m.writeFrame (closeFrame c.localId)).modifyChannel c.ptr
      ({ · with closed := true })).log (.onClose c.ptr) =
    ((m.writeFrame (closeFrame c.localId)).log (.onClose c.ptr)).modifyChannel c.ptr
      ({ · with closed := true }) from rfl, hclose]

lemma Wf.remoteClose {m : Mux} (h : m.Wf) (p : Ptr) : (m.remoteClose p).Wf := by
  cases hget : m.channel? p with
  | none => simpa [Mux.remoteClose, hget] using h
  | some c =>
    obtain ⟨hc, rfl⟩ := mem_of_channel? hget
    rw [h.remoteClose_eq hc]
    exact ((h.log _).removeChannel _).log _

lemma Wf.channelClose {m : Mux} (h : m.Wf) (p : Ptr) : (m.channelClose p).Wf := by
  cases hget : m.channel? p with
  | none => simpa [Mux.channelClose, hget] using h
  | some c =>
    obtain ⟨hc, rfl⟩ := mem_of_channel? hget
    rw [h.channelClose_eq hc]
    exact (((h.writeFrame _).log _).log _).removeChannel _

lemma Wf.createChannel {m : Mux} (h : m.Wf) (protocol : Bytes) (aliases : List Bytes)
    (id : Bytes) (unique : Bool) : (m.createChannel protocol aliases id unique).1.Wf := by
  simp only [Mux.createChannel]
  split_ifs
  · exact h
  · exact h
  · refine ⟨?_, ?_, ?_, ?_, h.pending, h.corked⟩
    · intro c hc
      rcases List.mem_append.1 hc with hc | hc
      · exact h.channels c hc
      · obtain rfl := List.mem_singleton.1 hc
        exact ⟨rfl, rfl, by simp, by simp, rfl⟩
    · intro c hc
      rcases List.mem_append.1 hc with hc | hc
      · exact Nat.lt_succ_of_lt (h.ptr_lt c hc)
      · obtain rfl := List.mem_singleton.1 hc
        exact Nat.lt_succ_self _
    · rw [List.map_append, List.nodup_append]
      refine ⟨h.nodup, by simp, ?_⟩
      intro p hp q hq
      obtain ⟨c, hc, rfl⟩ := List.mem_map.1 hp
      obtain rfl : q = m.nextPtr := by simpa using hq
      exact Nat.ne_of_lt (h.ptr_lt c hc)
    · intro r p hp
      obtain ⟨c, hc, hrest⟩ := h.remote r p hp
      exact ⟨c, List.mem_append_left _ hc, hrest⟩

lemma Wf.sendOpen_taken {m : Mux} (h : m.Wf) {c : Channel} (hc : c ∈ m.channels)
    (handshake : Bytes) (k : Key) :
    { m.sendOpen c handshake with
      pendingRemote := Function.update m.pendingRemote k none }.Wf ∧
    { c with openSent := true } ∈ (m.sendOpen c handshake).channels := by
  constructor
  · have := (h.sendOpen c handshake).updatePending k none (by simp)
    simpa [Mux.sendOpen, Mux.modifyChannel] using this
  · simpa [Mux.sendOpen, Mux.modifyChannel] using ⟨c, hc, by simp⟩

lemma Wf.channelOpen {m : Mux} (h : m.Wf) (p : Ptr) (handshake : Bytes) :
    (m.channelOpen p handshake).Wf := by
  rcases h.channelOpen_cases p handshake with
    ⟨-, heq⟩ | ⟨c, hc, rfl, -, hopened, ⟨-, heq⟩ | ⟨k, -, remote, hk, heq⟩⟩
  · rw [heq]; exact h
  · rw [heq]; exact h.sendOpen c handshake
  · rw [heq]
    obtain ⟨htaken, hmem⟩ := h.sendOpen_taken hc handshake k
    exact htaken.link hmem rfl hopened (h.pending k remote hk)

lemma decodeOpen_ne_zero {data : List UInt8} {remote : PendingOpen}
    (h : decodeOpen data = some remote) : remote.remoteLocalId ≠ 0 := by
  simp only [decodeOpen] at h
  split_ifs at h with hid hprotocol
  obtain rfl := Option.some.inj h
  rw [not_or] at hid
  intro hzero
  have hle : (varintDecode data).1.toNat ≤ uint32Max.toNat := by
    simpa [UInt64.le_iff_toNat_le] using hid.2
  have hmod := congrArg UInt32.toNat hzero
  rw [UInt64.toNat_toUInt32] at hmod
  refine hid.1 (UInt64.toNat_inj.1 ?_)
  simp only [uint32Max, UInt64.reduceToNat, UInt32.reduceToNat] at hle hmod ⊢
  omega

lemma Wf.receiveOpen {m : Mux} (h : m.Wf) {remote : PendingOpen}
    (hremote : remote.remoteLocalId ≠ 0) : (m.receiveOpen remote).Wf := by
  rcases h.receiveOpen_cases remote with ⟨c, hc, -, hsent, hopened, heq⟩ | ⟨-, heq⟩
  · rw [heq]
    exact h.link hc hsent hopened hremote
  · rw [heq]
    exact (h.updatePending _ (some remote) (by rintro _ ⟨⟩; exact hremote)).dispatchNotify _ _ _

lemma Wf.handle {m : Mux} (h : m.Wf) (call : Call) : (m.handle call).Wf := by
  cases call with
  | «open» data =>
    simp only [Mux.handle, handleOpen]
    split
    · exact h
    · exact h.receiveOpen (decodeOpen_ne_zero ‹_›)
  | reject data =>
    simp only [Mux.handle, handleReject]
    split
    · exact h
    · exact h.remoteClose _
  | close data =>
    simp only [Mux.handle, handleClose]
    split
    · exact h
    · exact h.remoteClose _
  | data channelId data =>
    rw [Mux.handle, h.handleData_eq]
    split
    · exact h
    · exact h.dispatch _ _ _

lemma Wf.onData {m : Mux} (h : m.Wf) (frame : List UInt8) : (m.onData frame).Wf := by
  rw [Mux.onData]
  induction onDataCalls frame generalizing m with
  | nil => exact h
  | cons call calls ih => exact ih (h.handle call)

lemma Wf.closeAll {m : Mux} (h : m.Wf) (n : ℕ) : (closeAll n m).Wf := by
  induction n generalizing m with
  | zero => exact h
  | succ n ih =>
    simp only [Mux.closeAll]
    split
    · exact h
    · exact ih (h.remoteClose _)

lemma Wf.uncork {m : Mux} (h : m.Wf) : m.uncork.Wf := by
  simp only [Mux.uncork]
  split_ifs with h1 h2 h3
  · exact h.congr rfl rfl rfl rfl fun _ => h.corked h1
  · exact h.congr rfl rfl rfl rfl fun hle => absurd h2 (Int.not_lt.2 hle)
  · exact h.congr rfl rfl rfl rfl fun _ => h3
  · exact h.congr rfl rfl rfl rfl fun _ => rfl

end Mux

/-! ## Runs -/

lemma wf_init : ({} : Mux).Wf where
  channels := by simp
  ptr_lt := by simp
  nodup := by simp
  remote := by simp
  pending := by simp
  corked := fun _ => rfl

/-- Every call keeps the invariant. -/
theorem wf_step (m : Mux) (op : Op) (h : m.Wf) : (step m op).Wf := by
  cases op with
  | createChannel protocol aliases id unique => exact h.createChannel protocol aliases id unique
  | addMessage p handler =>
    exact h.modifyChannel p (fun _ => rfl) (fun _ => rfl) (fun _ => rfl)
      fun c hc => ⟨hc.closed, hc.destroyed, hc.openSent, hc.remoteId, hc.pendingMessages⟩
  | «open» p handshake => exact h.channelOpen p handshake
  | send p messageType data =>
    simp only [step, Mux.channelSend]
    split
    · exact h
    · split_ifs
      · exact h
      · exact h.writeFrame _
  | close p => exact h.channelClose p
  | cork =>
    refine h.congr rfl rfl rfl rfl fun hle => h.corked ?_
    simp only [step, Mux.cork] at hle
    omega
  | uncork => exact h.uncork
  | onData frame => exact h.onData frame
  | pair protocol id => exact h.congr rfl rfl rfl rfl h.corked
  | unpair protocol id => exact h.congr rfl rfl rfl rfl h.corked
  | onNotify callback => exact h.congr rfl rfl rfl rfl h.corked
  | destroy =>
    simp only [step, Mux.destroy]
    split_ifs
    · exact h
    · have hmarked : { m with destroyed := true }.Wf := h.congr rfl rfl rfl rfl h.corked
      exact (hmarked.closeAll _).congr rfl rfl rfl rfl fun _ => rfl

/-- The invariant holds in every reachable mux. -/
theorem wf_run (ops : List Op) : (Runs.run step {} ops).Wf :=
  Runs.run_invariant wf_step wf_init ops

end HyperDHT.Protomux
