import HyperDHT.Protomux.Meeting

/-!
# A mux, key by key

What a mux has under each key when its channels have different keys, and what its methods and the frames it receives
change: nothing but what it has under the key of the channel they concern.

## Main definitions

* `Protomux.KeySlot`, `Protomux.Mux.slot` — what a mux has under a key.
* `Protomux.Keyed` — the mux between two steps.

## Main results

* `Protomux.buildPairKey_inj` — different protocols or ids have different keys.
* `Protomux.Keyed.createChannel`, `channelOpen`, `channelClose`, `remoteClose`, `receiveOpen` — what each of them
  changes.
-/

set_option autoImplicit false

namespace HyperDHT.Protomux

open Mux

/-! ## Keys -/

lemma hexDigit_inj : ∀ a < 16, ∀ b < 16, hexDigit a = hexDigit b → a = b := by decide

lemma hexDigit_ne : ∀ a < 16, hexDigit a ≠ 35 := by decide

lemma digits_lt (b : UInt8) : b.toNat / 16 < 16 ∧ b.toNat % 16 < 16 := by
  have hlt := b.toNat_lt
  omega

lemma ne_of_mem_toHex {data : List UInt8} {c : UInt8} (h : c ∈ toHex data) : c ≠ 35 := by
  obtain ⟨b, -, hc⟩ := List.mem_flatMap.1 h
  obtain ⟨hhigh, hlow⟩ := digits_lt b
  rcases List.mem_pair.1 hc with rfl | rfl
  · exact hexDigit_ne _ hhigh
  · exact hexDigit_ne _ hlow

lemma toHex_injective : Function.Injective toHex := by
  intro data
  induction data with
  | nil =>
    intro data' h
    cases data' with
    | nil => rfl
    | cons b data' => simp [toHex] at h
  | cons a data ih =>
    intro data' h
    cases data' with
    | nil => simp [toHex] at h
    | cons b data' =>
      simp only [toHex, List.flatMap_cons, List.cons_append, List.nil_append, List.cons.injEq] at h
      obtain ⟨hhigh, hlow, hrest⟩ := h
      have hhigh' := hexDigit_inj _ (digits_lt a).1 _ (digits_lt b).1 hhigh
      have hlow' := hexDigit_inj _ (digits_lt a).2 _ (digits_lt b).2 hlow
      have hab : a = b := UInt8.toNat_inj.1 (by omega)
      rw [hab, ih hrest]

/-- **Different protocols or ids have different keys**: the digits of the id are what follows the last `#`. -/
theorem buildPairKey_inj {protocol id protocol' id' : List UInt8} :
    buildPairKey protocol id = buildPairKey protocol' id' ↔ protocol = protocol' ∧ id = id' := by
  have hdigits (protocol id : List UInt8) :
      (buildPairKey protocol id).reverse.takeWhile (· ≠ 35) = (toHex id).reverse := by
    rw [buildPairKey, List.reverse_append, List.takeWhile_append_of_pos fun c hc => ?_]
    · simp
    · simpa using ne_of_mem_toHex (List.mem_reverse.1 hc)
  constructor
  · intro h
    have hid : id = id' := toHex_injective (List.reverse_injective (by
      rw [← hdigits protocol, h, hdigits]))
    subst hid
    exact ⟨List.append_cancel_right (List.append_cancel_right h), rfl⟩
  · rintro ⟨rfl, rfl⟩
    rfl

/-! ## What a mux has under a key -/

/-- The key of a channel. -/
def Channel.key (c : Channel) : Key := buildPairKey c.protocol.1 c.id.1

/-- A channel as its end sees it. -/
def Channel.seen (c : Channel) : Local UInt32 where
  id := c.localId
  sent := c.openSent
  remote := if c.opened then some c.remoteId else none

/-- The channel and the OPEN that waits. -/
@[ext]
structure KeySlot where
  channel : Option (Local UInt32)
  pending : Option UInt32

/-- What a mux has under a key. -/
def Mux.slot (m : Mux) (k : Key) : KeySlot where
  channel := (m.findByPairKey k).map Channel.seen
  pending := (m.pendingRemote k).map (·.remoteLocalId)

/-- The mux between two steps: its channels have different keys, and no other names. -/
structure Keyed (m : Mux) : Prop where
  ready : Ready m
  keys : ∀ c ∈ m.channels, c.pairKeys = [c.key]
  named : ∀ c ∈ m.channels, c.protocol.1 ≠ []
  lone : ∀ c ∈ m.channels, ∀ d ∈ m.channels, c.key = d.key → c = d

variable {m m' : Mux} {c : Channel} {k : Key}

namespace Keyed

lemma find_iff (h : Keyed m) : m.findByPairKey k = some c ↔ c ∈ m.channels ∧ c.key = k := by
  have hanswers {d : Channel} (hd : d ∈ m.channels) :
      (!d.destroyed && d.pairKeys.contains k) = true ↔ d.key = k := by
    simp [(h.ready.wf.channels d hd).destroyed, h.keys d hd, eq_comm]
  constructor
  · intro hfind
    have hc := List.mem_of_find?_eq_some hfind
    exact ⟨hc, (hanswers hc).1 (List.find?_eq_some_iff_append.1 hfind).1⟩
  · rintro ⟨hc, rfl⟩
    cases hfind : m.findByPairKey c.key with
    | none => exact absurd ((hanswers hc).2 rfl) (List.find?_eq_none.1 hfind c hc)
    | some d =>
      have hd := List.mem_of_find?_eq_some hfind
      rw [h.lone d hd c hc ((hanswers hd).1 (List.find?_eq_some_iff_append.1 hfind).1)]

lemma slot_channel (h : Keyed m) (hc : c ∈ m.channels) : (m.slot c.key).channel = some c.seen := by
  rw [Mux.slot, h.find_iff.2 ⟨hc, rfl⟩, Option.map_some]

lemma slot_channel_eq_none (h : Keyed m) (hnone : ∀ c ∈ m.channels, c.key ≠ k) :
    (m.slot k).channel = none := by
  rw [Mux.slot, Option.map_eq_none_iff, Option.eq_none_iff_forall_ne_some]
  exact fun c hc => hnone c (h.find_iff.1 hc).1 (h.find_iff.1 hc).2

lemma exists_of_slot (h : Keyed m) {l : Local UInt32} (hl : (m.slot k).channel = some l) :
    ∃ c ∈ m.channels, c.key = k ∧ c.seen = l := by
  obtain ⟨c, hfind, hseen⟩ := Option.map_eq_some_iff.1 hl
  obtain ⟨hc, hkey⟩ := h.find_iff.1 hfind
  exact ⟨c, hc, hkey, hseen⟩

lemma slot_channel_congr (h : Keyed m) (h' : Keyed m')
    (hchannels : ∀ c, c.key = k → (c ∈ m'.channels ↔ c ∈ m.channels)) :
    (m'.slot k).channel = (m.slot k).channel := by
  have hfind : m'.findByPairKey k = m.findByPairKey k := by
    ext c
    rw [h'.find_iff, h.find_iff]
    exact and_congr_left (hchannels c)
  simp only [Mux.slot, hfind]

lemma congr (h : Keyed m) (hready : Ready m') (hchannels : m'.channels = m.channels) : Keyed m' :=
  ⟨hready, hchannels ▸ h.keys, hchannels ▸ h.named, hchannels ▸ h.lone⟩

lemma modify (h : Keyed m) (hready : Ready m') (hc : c ∈ m.channels) (d : Channel)
    (hkeys : d.pairKeys = c.pairKeys) (hprotocol : d.protocol = c.protocol) (hid : d.id = c.id)
    (hchannels : ∀ e, e ∈ m'.channels ↔ e = d ∨ e ∈ m.channels ∧ e.ptr ≠ c.ptr)
    (hpending : m'.pendingRemote = m.pendingRemote) :
    Keyed m' ∧ m'.slot = Function.update m.slot c.key ⟨some d.seen, (m.slot c.key).pending⟩ := by
  have hkey : d.key = c.key := by rw [Channel.key, hprotocol, hid, Channel.key]
  -- another channel has another key
  have hother {e : Channel} (he : e ∈ m.channels) (hne : e.ptr ≠ c.ptr) : e.key ≠ c.key :=
    fun heq => hne (congrArg Channel.ptr (h.lone e he c hc heq))
  have hkeyed : Keyed m' := by
    refine ⟨hready, fun e he => ?_, fun e he => ?_, fun e he e' he' heq => ?_⟩
    · rcases (hchannels e).1 he with rfl | ⟨he, -⟩
      · rw [hkeys, h.keys c hc, hkey]
      · exact h.keys e he
    · rcases (hchannels e).1 he with rfl | ⟨he, -⟩
      · rw [hprotocol]
        exact h.named c hc
      · exact h.named e he
    · rcases (hchannels e).1 he with rfl | ⟨he, hne⟩ <;>
        rcases (hchannels e').1 he' with rfl | ⟨he', hne'⟩
      · rfl
      · exact absurd (heq.symm.trans hkey) (hother he' hne')
      · exact absurd (heq.trans hkey) (hother he hne)
      · exact h.lone e he e' he' heq
  refine ⟨hkeyed, funext fun k => KeySlot.ext ?_ ?_⟩
  · rw [Function.update_apply]
    split_ifs with heq
    · rw [heq, ← hkey]
      exact hkeyed.slot_channel ((hchannels d).2 (.inl rfl))
    · refine h.slot_channel_congr hkeyed fun e he => ?_
      rw [hchannels]
      constructor
      · rintro (rfl | ⟨he', -⟩)
        · exact absurd (he.symm.trans hkey) heq
        · exact he'
      · intro he'
        refine .inr ⟨he', fun hptr => heq ?_⟩
        rw [← he, h.ready.wf.eq_of_ptr he' hc hptr]
  · rw [Function.update_apply]
    split_ifs with heq <;> simp [Mux.slot, hpending, heq]

end Keyed

/-! ## The methods and the frames -/

lemma Ready.removeChannel (h : Ready m) (hc : c ∈ m.channels) : Ready (m.removeChannel c.ptr) := by
  have hget := h.wf.channel? hc
  have hwf := h.wf.removeChannel c.ptr
  have hmem {d : Channel} (hd : d ∈ (m.removeChannel c.ptr).channels) :
      d ∈ m.channels ∧ d.ptr ≠ c.ptr := by
    simpa [Mux.removeChannel, hget] using hd
  have hpending {k : Key} {remote : PendingOpen}
      (hk : (m.removeChannel c.ptr).pendingRemote k = some remote) :
      m.pendingRemote k = some remote := by
    simp only [Mux.removeChannel, hget] at hk
    split_ifs at hk
    exact hk
  have hmap (r : UInt32) (hr : c.remoteId ≠ 0 → r ≠ c.remoteId) :
      (m.removeChannel c.ptr).remoteToChannel r = m.remoteToChannel r := by
    simp only [Mux.removeChannel, hget]
    split_ifs with hzero
    · exact Function.update_of_ne (hr hzero) _ _
    · rfl
  refine ⟨hwf, by simpa [Mux.removeChannel, hget] using h.uncorked,
    by simpa [Mux.removeChannel, hget] using h.live, by simpa [Mux.removeChannel, hget] using h.outbox,
    fun d hd => h.localId d (hmem hd).1, by simpa [Mux.removeChannel, hget] using h.nextPtr,
    by simpa [Mux.removeChannel, hget] using h.nextLocalId, ?_, ?_, ?_⟩
  · intro d hd hopened
    obtain ⟨hd, hne⟩ := hmem hd
    rw [hmap, h.mapped d hd hopened]
    intro hzero heq
    -- two open channels are not paired with one remote channel
    have hmapped := h.mapped c hc ((h.wf.channels c hc).remoteId.2 hzero)
    rw [← heq, h.mapped d hd hopened] at hmapped
    exact hne (Option.some.inj hmapped)
  · intro k remote hk
    have hold := h.unmapped k remote (hpending hk)
    by_cases heq : c.remoteId ≠ 0 ∧ remote.remoteLocalId = c.remoteId
    · simp [Mux.removeChannel, hget, heq.1, heq.2]
    · rw [hmap _ fun hzero hr => heq ⟨hzero, hr⟩, hold]
  · exact fun k k' remote remote' hk hk' => h.pending_inj k k' remote remote' (hpending hk)
      (hpending hk')

namespace Keyed

/-- **A new channel** under a key that has none. -/
theorem createChannel (h : Keyed m) (hwrap : m.nextLocalId ≠ 0) {protocol id : Bytes}
    (hprotocol : protocol.1 ≠ [])
    (hnew : ∀ c ∈ m.channels, c.key ≠ buildPairKey protocol.1 id.1) (unique : Bool) :
    Keyed (m.createChannel protocol [] id unique).1 ∧
      (m.createChannel protocol [] id unique).1.nextPtr = m.nextPtr + 1 ∧
      (m.createChannel protocol [] id unique).1.slot =
        Function.update m.slot (buildPairKey protocol.1 id.1)
          ⟨some { id := m.nextLocalId }, (m.slot (buildPairKey protocol.1 id.1)).pending⟩ := by
  have hready := h.ready.create hwrap protocol [] id unique
  have hnone : m.findByPairKey (buildPairKey protocol.1 id.1) = none := by
    rw [Option.eq_none_iff_forall_ne_some]
    exact fun c hc => hnew c (h.find_iff.1 hc).1 (h.find_iff.1 hc).2
  generalize hm' : (m.createChannel protocol [] id unique).1 = m' at hready ⊢
  simp only [Mux.createChannel, h.ready.live, hnone, Bool.false_eq_true, if_false,
    Option.any_none, and_false, List.map_nil] at hm'
  have hmem {d : Channel} : d ∈ m'.channels ↔ d ∈ m.channels ∨ d =
      { ptr := m.nextPtr, protocol := protocol, id := id, localId := m.nextLocalId,
        pairKeys := [buildPairKey protocol.1 id.1] } := by
    simp [← hm']
  have hkeyed : Keyed m' := by
    refine ⟨hready, fun d hd => ?_, fun d hd => ?_, fun d hd e he heq => ?_⟩
    · rcases hmem.1 hd with hd | rfl
      · exact h.keys d hd
      · rfl
    · rcases hmem.1 hd with hd | rfl
      · exact h.named d hd
      · exact hprotocol
    · rcases hmem.1 hd with hd | rfl <;> rcases hmem.1 he with he | rfl
      · exact h.lone d hd e he heq
      · exact absurd heq (hnew d hd)
      · exact absurd heq.symm (hnew e he)
      · rfl
  refine ⟨hkeyed, by rw [← hm'], funext fun k => KeySlot.ext ?_ ?_⟩
  · rw [Function.update_apply]
    split_ifs with heq
    · rw [heq]
      exact hkeyed.slot_channel (hmem.2 (.inr rfl))
    · refine h.slot_channel_congr hkeyed fun d hd => ?_
      rw [hmem, or_iff_left]
      rintro rfl
      exact heq hd.symm
  · rw [Function.update_apply]
    split_ifs with heq <;> simp [Mux.slot, ← hm', heq]

lemma removeChannel (h : Keyed m) (hc : c ∈ m.channels) :
    Keyed (m.removeChannel c.ptr) ∧ (m.removeChannel c.ptr).nextPtr = m.nextPtr ∧
      (m.removeChannel c.ptr).slot = Function.update m.slot c.key ⟨none, none⟩ := by
  have hready := h.ready.removeChannel hc
  have hget := h.ready.wf.channel? hc
  have hmem {d : Channel} : d ∈ (m.removeChannel c.ptr).channels ↔ d ∈ m.channels ∧ d.ptr ≠ c.ptr := by
    simp [Mux.removeChannel, hget]
  have hkeyed : Keyed (m.removeChannel c.ptr) :=
    ⟨hready, fun d hd => h.keys d (hmem.1 hd).1, fun d hd => h.named d (hmem.1 hd).1,
      fun d hd e he => h.lone d (hmem.1 hd).1 e (hmem.1 he).1⟩
  refine ⟨hkeyed, by simp [Mux.removeChannel, hget], funext fun k => KeySlot.ext ?_ ?_⟩
  · rw [Function.update_apply]
    split_ifs with heq
    · refine hkeyed.slot_channel_eq_none fun d hd hkey => (hmem.1 hd).2 ?_
      rw [h.lone d (hmem.1 hd).1 c hc (hkey.trans heq)]
    · refine h.slot_channel_congr hkeyed fun d hd => ?_
      rw [hmem, and_iff_left_of_imp]
      intro hd' hptr
      rw [h.ready.wf.eq_of_ptr hd' hc hptr] at hd
      exact heq hd.symm
  · rw [Function.update_apply]
    split_ifs with heq <;> simp [Mux.slot, Mux.removeChannel, hget, h.keys c hc, heq]

lemma withEvents (h : Keyed m) (events : List Event) : Keyed { m with events := events } :=
  h.congr (h.ready.withEvents events) rfl

/-- **A close by the remote end.** -/
theorem remoteClose (h : Keyed m) (hc : c ∈ m.channels) :
    Keyed (m.remoteClose c.ptr) ∧ (m.remoteClose c.ptr).nextPtr = m.nextPtr ∧
      (m.remoteClose c.ptr).slot = Function.update m.slot c.key ⟨none, none⟩ := by
  obtain ⟨hkeyed, hptr, hslot⟩ := (h.withEvents (m.events ++ [.onDestroy c.ptr])).removeChannel hc
  rw [h.ready.wf.remoteClose_eq hc]
  exact ⟨hkeyed.withEvents _, hptr, hslot⟩

/-- **Closing a channel**: the CLOSE is written. -/
theorem channelClose (h : Keyed m) (p : Ptr) :
    (m.channel? p = none ∧ m.channelClose p = m) ∨
      ∃ c ∈ m.channels, m.channel? p = some c ∧ ∃ m', m.channelClose p =
          { m' with outbox := [closeFrame c.localId] } ∧
        Keyed m' ∧ m'.nextPtr = m.nextPtr ∧ m'.slot = Function.update m.slot c.key ⟨none, none⟩ := by
  cases hget : m.channel? p with
  | none => exact .inl ⟨rfl, by simp [Mux.channelClose, hget]⟩
  | some c =>
    obtain ⟨hc, rfl⟩ := mem_of_channel? hget
    refine .inr ⟨c, hc, rfl, _, ?_,
      (h.withEvents (m.events ++ [.onClose c.ptr] ++ [.onDestroy c.ptr])).removeChannel hc⟩
    rw [h.ready.wf.channelClose_eq hc, h.ready.writeFrame_eq]
    simp only [Mux.removeChannel, Mux.log, Mux.channel?]
    split <;> rfl

lemma updatePending (h : Keyed m) (slot : Option PendingOpen)
    (hready : Ready { m with pendingRemote := Function.update m.pendingRemote k slot }) :
    Keyed { m with pendingRemote := Function.update m.pendingRemote k slot } ∧
      Mux.slot { m with pendingRemote := Function.update m.pendingRemote k slot } =
        Function.update m.slot k ⟨(m.slot k).channel, slot.map (·.remoteLocalId)⟩ := by
  refine ⟨h.congr hready rfl, funext fun k' => KeySlot.ext ?_ ?_⟩
  · rw [Function.update_apply]
    split_ifs with heq
    · rw [heq]
      rfl
    · rfl
  · rw [Function.update_apply]
    split_ifs with heq <;> simp [Mux.slot, heq]

lemma link (h : Keyed m) (hc : c ∈ m.channels) (hsent : c.openSent = true) (hopened : c.opened = false)
    {remote : PendingOpen} (hne : remote.remoteLocalId ≠ 0)
    (hunknown : Unknown m remote.remoteLocalId) :
    Keyed (m.link c.ptr remote) ∧ (m.link c.ptr remote).slot = Function.update m.slot c.key
      ⟨some { c.seen with remote := some remote.remoteLocalId }, (m.slot c.key).pending⟩ :=
  h.modify (h.ready.link hc hsent hopened hne hunknown) hc (linked remote.remoteLocalId c) rfl rfl
    rfl (fun _ => h.ready.wf.mem_link hc remote) rfl

/-- **Opening a channel**: the OPEN is written, and answers the one that waits. -/
theorem channelOpen (h : Keyed m) (p : Ptr) (handshake : Bytes) :
    m.channelOpen p handshake = m ∨
      ∃ c ∈ m.channels, m.channel? p = some c ∧ c.openSent = false ∧ ∃ m', m.channelOpen p handshake =
          { m' with outbox := [openFrame c.localId c.protocol c.id handshake] } ∧
        Keyed m' ∧ m'.nextPtr = m.nextPtr ∧ m'.slot = Function.update m.slot c.key
          ⟨some { c.seen with sent := true, remote := (m.slot c.key).pending }, none⟩ := by
  rcases h.ready.wf.channelOpen_cases p handshake with
    ⟨-, heq⟩ | ⟨c, hc, rfl, hsent, hopened, hcase⟩
  · exact .inl heq
  · refine .inr ⟨c, hc, h.ready.wf.channel? hc, hsent, ?_⟩
    have hmem (e : Channel) : e ∈ (markSent m c).channels ↔
        e = { c with openSent := true } ∨ e ∈ m.channels ∧ e.ptr ≠ c.ptr :=
      h.ready.wf.mem_modifyChannel hc ({ · with openSent := true })
    obtain ⟨hkeyed, hslot⟩ := h.modify (h.ready.markSent hc) hc { c with openSent := true } rfl rfl
      rfl hmem rfl
    rcases hcase with ⟨hnone, heq⟩ | ⟨k, hk, remote, hremote, heq⟩
    · have hpending : (m.slot c.key).pending = none := by
        simp [Mux.slot, hnone c.key (by simp [h.keys c hc])]
      refine ⟨markSent m c, by rw [heq, h.ready.sendOpen_eq], hkeyed, rfl, ?_⟩
      rw [hslot, hpending]
      simp [Channel.seen, hopened]
    · obtain rfl : k = c.key := by simpa [h.keys c hc] using hk
      have hpending : (m.slot c.key).pending = some remote.remoteLocalId := by
        simp [Mux.slot, hremote]
      obtain ⟨hkeyed', hslot'⟩ := hkeyed.updatePending none (hkeyed.ready.takePending c.key)
      have hunknown := hkeyed.ready.unknown_takePending hremote
      obtain ⟨hlinked, hslot''⟩ := @link _ { c with openSent := true } hkeyed'
        ((hmem _).2 (.inl rfl)) rfl hopened remote (h.ready.wf.pending _ _ hremote) hunknown
      refine ⟨_, by rw [heq, h.ready.sendOpen_eq]; rfl, hlinked, rfl, ?_⟩
      have hkey : Channel.key { c with openSent := true } = c.key := rfl
      rw [hslot'', hslot', hslot, hpending, hkey]
      simp [Channel.seen]

/-- **An OPEN arrives.** -/
theorem receiveOpen (h : Keyed m) {remote : PendingOpen} (hne : remote.remoteLocalId ≠ 0)
    (hunknown : Unknown m remote.remoteLocalId) :
    Keyed (m.receiveOpen remote) ∧ (m.receiveOpen remote).nextPtr = m.nextPtr ∧
      (m.receiveOpen remote).slot = Function.update m.slot (buildPairKey remote.protocol remote.id)
        (match ((m.slot (buildPairKey remote.protocol remote.id)).channel).filter Meeting.waiting with
          | some l => ⟨some { l with remote := some remote.remoteLocalId },
              (m.slot (buildPairKey remote.protocol remote.id)).pending⟩
          | none => ⟨(m.slot (buildPairKey remote.protocol remote.id)).channel,
              some remote.remoteLocalId⟩) := by
  generalize hk : buildPairKey remote.protocol remote.id = k
  rcases h.ready.wf.receiveOpen_cases remote with
    ⟨c, hc, hfind, hsent, hopened, heq⟩ | ⟨hnone, heq⟩
  · obtain ⟨-, rfl⟩ := h.find_iff.1 (hk ▸ hfind)
    obtain ⟨hkeyed, hslot⟩ := h.link hc hsent hopened hne hunknown
    have hwaits : Meeting.waiting c.seen = true := by
      simp [Meeting.waiting, Channel.seen, hsent, hopened]
    rw [heq, hslot, h.slot_channel hc, Option.filter_some, if_pos hwaits]
    exact ⟨hkeyed, rfl, rfl⟩
  · have hwaits : ((m.slot k).channel).filter Meeting.waiting = none := by
      rw [Option.filter_eq_none_iff]
      intro l hl
      obtain ⟨c, hc, hkey, rfl⟩ := h.exists_of_slot hl
      have hopened := hnone c (h.find_iff.2 ⟨hc, hkey.trans hk.symm⟩)
      simpa [Meeting.waiting, Channel.seen] using hopened
    obtain ⟨hkeyed, hslot⟩ := @updatePending _ k h (some remote) (h.ready.store hne hunknown k)
    rw [heq, hwaits, hk]
    rcases dispatchNotify_eq { m with
        pendingRemote := Function.update m.pendingRemote k (some remote) }
      remote.protocol remote.id remote.handshake with heq' | ⟨notified, heq'⟩ <;> rw [heq']
    · exact ⟨hkeyed, rfl, hslot⟩
    · exact ⟨hkeyed.withEvents _, rfl, hslot⟩

end Keyed

end HyperDHT.Protomux
