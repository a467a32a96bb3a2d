import Mathlib.Logic.Relation
import HyperDHT.Protomux.Invariant

/-!
# The lookup tables of a mux

A mux finds its channels through three tables: by the id of the remote end, by its own id, and by
the last channel of a pair key. The tables hold raw pointers, and the channels are freed while
other channels stay. Whatever arrives from the remote end and whatever is called, the tables hold
live channels only, and a channel that was paired stays paired with the same remote id.

## Main definitions

* `Protomux.TablesLive` — the tables hold exactly what they should.
* `Protomux.Evolves` — what becomes of the channels from one mux to a later one.
* `Protomux.Mux.TableStep` — the four ways in which a mux touches its tables.

## Main results

* `Protomux.Mux.tableSteps_step` — a call touches the tables in these ways only.
* `Protomux.tablesLive_run` — the tables of a reachable mux, with fewer than `2 ^ 32` channels.

## Design

Every call is cut into table steps once, in `tableSteps_step`; the invariant and `Evolves` are then
shown for one table step each. The local ids count up with the pointers, so that they are distinct
as long as the counter does not wrap around.
-/

set_option autoImplicit false

namespace HyperDHT.Protomux

/-- What the tables have to do with a channel. -/
structure Entry where
  ptr : Ptr
  localId : UInt32
  remoteId : UInt32
  opened : Bool
  pairKeys : List Key

/-- The entry of a channel. -/
def Channel.entry (c : Channel) : Entry := ⟨c.ptr, c.localId, c.remoteId, c.opened, c.pairKeys⟩

namespace Mux

/-- How often `on_open` of a channel was called. -/
def opens (m : Mux) (p : Ptr) : ℕ :=
  m.events.countP fun
    | .onOpen q _ => q = p
    | _ => false

/-! ## Table steps -/

/-- Nothing that the tables have to do with has changed. -/
structure TablesKept (m m' : Mux) : Prop where
  entries : m'.channels.map Channel.entry = m.channels.map Channel.entry
  nextPtr : m'.nextPtr = m.nextPtr
  nextLocalId : m'.nextLocalId = m.nextLocalId
  remoteToChannel : m'.remoteToChannel = m.remoteToChannel
  localToChannel : m'.localToChannel = m.localToChannel
  lastChannelByKey : m'.lastChannelByKey = m.lastChannelByKey
  opens : ∀ p, m'.opens p = m.opens p

/-- A mux touches its tables: it leaves them alone, creates a channel, pairs a channel that is not
open, or removes a channel. -/
inductive TableStep (m : Mux) : Mux → Prop
  | kept {m' : Mux} (h : TablesKept m m') : TableStep m m'
  | create (protocol : Bytes) (aliases : List Bytes) (id : Bytes) (unique : Bool) (hwf : m.Wf) :
      TableStep m (m.createChannel protocol aliases id unique).1
  | link {c : Channel} (remote : PendingOpen) (hwf : m.Wf) (hc : c ∈ m.channels)
      (hopened : c.opened = false) : TableStep m (m.link c.ptr remote)
  | remove {c : Channel} (hwf : m.Wf) (hc : c ∈ m.channels) : TableStep m (m.removeChannel c.ptr)

/-- Any number of table steps. -/
abbrev TableSteps : Mux → Mux → Prop := Relation.ReflTransGen TableStep

lemma TableStep.steps {m m' : Mux} (h : TableStep m m') : TableSteps m m' := .single h

lemma TablesKept.steps {m m' : Mux} (h : TablesKept m m') : TableSteps m m' := .single (.kept h)

lemma tablesKept_writeFrame (m : Mux) (frame : List UInt8) :
    TablesKept m (m.writeFrame frame) := by
  simp only [writeFrame]
  split_ifs <;> exact ⟨rfl, rfl, rfl, rfl, rfl, rfl, fun _ => rfl⟩

lemma tablesKept_events (m : Mux) {es : List Event}
    (h : ∀ e ∈ es, ∀ p handshake, e ≠ .onOpen p handshake) :
    TablesKept m { m with events := m.events ++ es } := by
  refine ⟨rfl, rfl, rfl, rfl, rfl, rfl, fun p => ?_⟩
  have hnone : (es.countP fun | .onOpen q _ => q = p | _ => false) = 0 := by
    refine List.countP_eq_zero.2 fun e he => ?_
    cases e with
    | onOpen q handshake => exact absurd rfl (h _ he q handshake)
    | _ => simp
  simp only [opens, List.countP_append, hnone, Nat.add_zero]

lemma tablesKept_log (m : Mux) {e : Event} (h : ∀ p handshake, e ≠ .onOpen p handshake) :
    TablesKept m (m.log e) :=
  tablesKept_events m (by simpa using h)

lemma tablesKept_modifyChannel (m : Mux) (p : Ptr) {f : Channel → Channel}
    (hf : ∀ c, (f c).entry = c.entry) : TablesKept m (m.modifyChannel p f) := by
  refine ⟨?_, rfl, rfl, rfl, rfl, rfl, fun _ => rfl⟩
  rw [modifyChannel, List.map_map]
  refine List.map_congr_left fun c _ => ?_
  simp only [Function.comp_apply]
  split_ifs
  · exact hf c
  · rfl

lemma tablesKept_pending (m : Mux) (pending : Key → Option PendingOpen) :
    TablesKept m { m with pendingRemote := pending } :=
  ⟨rfl, rfl, rfl, rfl, rfl, rfl, fun _ => rfl⟩

lemma tablesKept_dispatch (m : Mux) (p : Ptr) (type : UInt32) (data : List UInt8) :
    TablesKept m (m.dispatch p type data) := by
  rcases dispatch_eq m p type data with heq | heq <;> rw [heq] <;>
    exact tablesKept_events m (by simp)

lemma tablesKept_dispatchNotify (m : Mux) (protocol id handshake : List UInt8) :
    TablesKept m (m.dispatchNotify protocol id handshake) := by
  rcases dispatchNotify_eq m protocol id handshake with heq | ⟨slot, heq⟩ <;> rw [heq]
  · exact ⟨rfl, rfl, rfl, rfl, rfl, rfl, fun _ => rfl⟩
  · exact tablesKept_events m (by simp)

/-! ## A call as table steps -/

lemma tableSteps_remoteClose {m : Mux} (h : m.Wf) (p : Ptr) : TableSteps m (m.remoteClose p) := by
  cases hget : m.channel? p with
  | none => simpa [Mux.remoteClose, hget] using Relation.ReflTransGen.refl
  | some c =>
    obtain ⟨hc, rfl⟩ := mem_of_channel? hget
    rw [h.remoteClose_eq hc]
    exact ((tablesKept_log m (by simp)).steps.trans
      (TableStep.remove (h.log (.onDestroy c.ptr)) hc).steps).trans
      (tablesKept_log _ (by simp)).steps

lemma tableSteps_channelClose {m : Mux} (h : m.Wf) (p : Ptr) :
    TableSteps m (m.channelClose p) := by
  cases hget : m.channel? p with
  | none => simpa [Mux.channelClose, hget] using Relation.ReflTransGen.refl
  | some c =>
    obtain ⟨hc, rfl⟩ := mem_of_channel? hget
    rw [h.channelClose_eq hc]
    have hwf := ((h.writeFrame (closeFrame c.localId)).log (.onClose c.ptr)).log (.onDestroy c.ptr)
    exact (((tablesKept_writeFrame m _).steps.trans (tablesKept_log _ (by simp)).steps).trans
      (tablesKept_log _ (by simp)).steps).trans
      (TableStep.remove hwf (by simpa [log] using hc)).steps

lemma tableSteps_sendOpen (m : Mux) (c : Channel) (handshake : Bytes) :
    TableSteps m (m.sendOpen c handshake) := by
  have hsent : TablesKept m (m.modifyChannel c.ptr ({ · with openSent := true })) :=
    tablesKept_modifyChannel m c.ptr fun _ => rfl
  exact hsent.steps.trans (tablesKept_writeFrame _ _).steps

lemma tableSteps_channelOpen {m : Mux} (h : m.Wf) (p : Ptr) (handshake : Bytes) :
    TableSteps m (m.channelOpen p handshake) := by
  rcases h.channelOpen_cases p handshake with
    ⟨-, heq⟩ | ⟨c, hc, rfl, -, hopened, ⟨-, heq⟩ | ⟨k, -, remote, hk, heq⟩⟩
  · rw [heq]
  · rw [heq]; exact tableSteps_sendOpen m c handshake
  · rw [heq]
    obtain ⟨htaken, hmem⟩ := h.sendOpen_taken hc handshake k
    exact ((tableSteps_sendOpen m c handshake).trans (tablesKept_pending _ _).steps).trans
      (@TableStep.link _ { c with openSent := true } remote htaken hmem hopened).steps

lemma tableSteps_receiveOpen {m : Mux} (h : m.Wf) (remote : PendingOpen) :
    TableSteps m (m.receiveOpen remote) := by
  rcases h.receiveOpen_cases remote with ⟨c, hc, -, -, hopened, heq⟩ | ⟨-, heq⟩ <;> rw [heq]
  · exact (TableStep.link remote h hc hopened).steps
  · exact (tablesKept_pending m _).steps.trans (tablesKept_dispatchNotify _ _ _ _).steps

lemma tableSteps_handle {m : Mux} (h : m.Wf) (call : Call) : TableSteps m (m.handle call) := by
  cases call with
  | «open» data =>
    simp only [handle, handleOpen]
    split
    · exact .refl
    · exact tableSteps_receiveOpen h _
  | reject data =>
    simp only [handle, handleReject]
    split
    · exact .refl
    · exact tableSteps_remoteClose h _
  | close data =>
    simp only [handle, handleClose]
    split
    · exact .refl
    · exact tableSteps_remoteClose h _
  | data channelId data =>
    rw [handle, h.handleData_eq]
    split
    · exact .refl
    · exact (tablesKept_dispatch m _ _ _).steps

lemma tableSteps_onData {m : Mux} (h : m.Wf) (frame : List UInt8) :
    TableSteps m (m.onData frame) := by
  rw [onData]
  induction onDataCalls frame generalizing m with
  | nil => exact .refl
  | cons call calls ih => exact (tableSteps_handle h call).trans (ih (h.handle call))

lemma tableSteps_closeAll {m : Mux} (h : m.Wf) (n : ℕ) : TableSteps m (closeAll n m) := by
  induction n generalizing m with
  | zero => exact .refl
  | succ n ih =>
    simp only [closeAll]
    split
    · exact .refl
    · exact (tableSteps_remoteClose h _).trans (ih (h.remoteClose _))

/-- **A call touches the tables by table steps only.** -/
theorem tableSteps_step {m : Mux} (h : m.Wf) (op : Op) : TableSteps m (step m op) := by
  have hsame : ∀ m' : Mux, m'.channels = m.channels → m'.nextPtr = m.nextPtr →
      m'.nextLocalId = m.nextLocalId → m'.remoteToChannel = m.remoteToChannel →
      m'.localToChannel = m.localToChannel → m'.lastChannelByKey = m.lastChannelByKey →
      m'.events = m.events → TableSteps m m' := by
    intro m' h1 h2 h3 h4 h5 h6 h7
    exact TablesKept.steps ⟨by rw [h1], h2, h3, h4, h5, h6, fun p => by rw [opens, h7, opens]⟩
  cases op with
  | createChannel protocol aliases id unique =>
    exact (TableStep.create protocol aliases id unique h).steps
  | addMessage p handler =>
    have hadded : TablesKept m (m.addMessage p handler) :=
      tablesKept_modifyChannel m p fun _ => rfl
    exact hadded.steps
  | «open» p handshake => exact tableSteps_channelOpen h p handshake
  | send p messageType data =>
    simp only [step, channelSend]
    split
    · exact .refl
    · split_ifs
      · exact .refl
      · exact (tablesKept_writeFrame m _).steps
  | close p => exact tableSteps_channelClose h p
  | uncork =>
    simp only [step, uncork]
    split_ifs <;> exact hsame _ rfl rfl rfl rfl rfl rfl rfl
  | onData frame => exact tableSteps_onData h frame
  | destroy =>
    simp only [step, destroy]
    split_ifs
    · exact .refl
    · have hmarked : { m with destroyed := true }.Wf := h.congr rfl rfl rfl rfl h.corked
      refine (hsame { m with destroyed := true } rfl rfl rfl rfl rfl rfl rfl).trans
        ((tableSteps_closeAll hmarked m.channels.length).trans (TablesKept.steps ?_))
      exact ⟨rfl, rfl, rfl, rfl, rfl, rfl, fun _ => rfl⟩
  | cork | pair | unpair | onNotify => exact hsame _ rfl rfl rfl rfl rfl rfl rfl

/-! ## The tables -/

/-- What one table step has to keep for the tables to be right. -/
structure Tables (m : Mux) : Prop where
  ptr_lt : ∀ c ∈ m.channels, c.ptr < m.nextPtr
  localId : ∀ c ∈ m.channels, c.localId = UInt32.ofNat (c.ptr + 1)
  nextLocalId : m.nextLocalId = UInt32.ofNat (m.nextPtr + 1)
  localToChannel : m.nextPtr < 2 ^ 32 → ∀ l p, m.localToChannel l = some p ↔
    ∃ c ∈ m.channels, c.ptr = p ∧ c.localId = l
  last : ∀ k p, m.lastChannelByKey k = some p → ∃ c ∈ m.channels, c.ptr = p ∧ k ∈ c.pairKeys
  opens_le : ∀ p, m.opens p ≤ 1
  opens_new : ∀ p, m.nextPtr ≤ p → m.opens p = 0
  opens_waiting : ∀ c ∈ m.channels, c.opened = false → m.opens c.ptr = 0

lemma localId_inj {n p q : ℕ} (hsmall : n < 2 ^ 32) (hp : p < n) (hq : q < n)
    (h : UInt32.ofNat (p + 1) = UInt32.ofNat (q + 1)) : p = q := by
  have hnat := congrArg UInt32.toNat h
  rw [UInt32.toNat_ofNat', UInt32.toNat_ofNat'] at hnat
  omega

lemma localId_ne_zero {n p : ℕ} (hsmall : n < 2 ^ 32) (hp : p < n) :
    UInt32.ofNat (p + 1) ≠ 0 := by
  intro hzero
  have hnat := congrArg UInt32.toNat hzero
  rw [UInt32.toNat_ofNat'] at hnat
  simp only [UInt32.reduceToNat] at hnat
  omega

lemma Tables.ptr_eq {m : Mux} (h : m.Tables) (hsmall : m.nextPtr < 2 ^ 32) {c d : Channel}
    (hc : c ∈ m.channels) (hd : d ∈ m.channels) (hid : c.localId = d.localId) : c.ptr = d.ptr := by
  rw [h.localId c hc, h.localId d hd] at hid
  exact localId_inj hsmall (h.ptr_lt c hc) (h.ptr_lt d hd) hid

lemma TablesKept.exists_entry {m m' : Mux} (h : TablesKept m m') {c' : Channel}
    (hc' : c' ∈ m'.channels) : ∃ c ∈ m.channels, c.entry = c'.entry :=
  List.mem_map.1 (h.entries ▸ List.mem_map_of_mem hc')

lemma TablesKept.symm {m m' : Mux} (h : TablesKept m m') : TablesKept m' m :=
  ⟨h.entries.symm, h.nextPtr.symm, h.nextLocalId.symm, h.remoteToChannel.symm,
    h.localToChannel.symm, h.lastChannelByKey.symm, fun p => (h.opens p).symm⟩

lemma Tables.kept {m m' : Mux} (h : m.Tables) (hkept : TablesKept m m') : m'.Tables := by
  have hback : ∀ c' ∈ m'.channels, ∃ c ∈ m.channels, c.entry = c'.entry :=
    fun _ => hkept.exists_entry
  have hforth : ∀ c ∈ m.channels, ∃ c' ∈ m'.channels, c'.entry = c.entry :=
    fun _ => hkept.symm.exists_entry
  refine ⟨?_, ?_, ?_, ?_, ?_, ?_, ?_, ?_⟩
  · intro c' hc'
    obtain ⟨c, hc, hentry⟩ := hback c' hc'
    simp only [Channel.entry, Entry.mk.injEq] at hentry
    rw [← hentry.1, hkept.nextPtr]
    exact h.ptr_lt c hc
  · intro c' hc'
    obtain ⟨c, hc, hentry⟩ := hback c' hc'
    simp only [Channel.entry, Entry.mk.injEq] at hentry
    rw [← hentry.1, ← hentry.2.1]
    exact h.localId c hc
  · rw [hkept.nextLocalId, hkept.nextPtr, h.nextLocalId]
  · intro hsmall l p
    rw [hkept.localToChannel, h.localToChannel (hkept.nextPtr ▸ hsmall)]
    constructor
    · rintro ⟨c, hc, hp, hl⟩
      obtain ⟨c', hc', hentry⟩ := hforth c hc
      simp only [Channel.entry, Entry.mk.injEq] at hentry
      exact ⟨c', hc', hentry.1.trans hp, hentry.2.1.trans hl⟩
    · rintro ⟨c', hc', hp, hl⟩
      obtain ⟨c, hc, hentry⟩ := hback c' hc'
      simp only [Channel.entry, Entry.mk.injEq] at hentry
      exact ⟨c, hc, hentry.1.trans hp, hentry.2.1.trans hl⟩
  · intro k p hk
    rw [hkept.lastChannelByKey] at hk
    obtain ⟨c, hc, hp, hin⟩ := h.last k p hk
    obtain ⟨c', hc', hentry⟩ := hforth c hc
    simp only [Channel.entry, Entry.mk.injEq] at hentry
    exact ⟨c', hc', hentry.1.trans hp, hentry.2.2.2.2 ▸ hin⟩
  · intro p
    rw [hkept.opens]
    exact h.opens_le p
  · intro p hp
    rw [hkept.opens]
    exact h.opens_new p (hkept.nextPtr ▸ hp)
  · intro c' hc' hopened
    obtain ⟨c, hc, hentry⟩ := hback c' hc'
    simp only [Channel.entry, Entry.mk.injEq] at hentry
    rw [hkept.opens, ← hentry.1]
    exact h.opens_waiting c hc (hentry.2.2.2.1.trans hopened)

lemma Tables.createChannel {m : Mux} (h : m.Tables) (protocol : Bytes) (aliases : List Bytes)
    (id : Bytes) (unique : Bool) : (m.createChannel protocol aliases id unique).1.Tables := by
  simp only [Mux.createChannel]
  split_ifs
  · exact h
  · exact h
  · refine ⟨?_, ?_, ?_, ?_, ?_, h.opens_le, ?_, ?_⟩
    · intro c hc
      rcases List.mem_append.1 hc with hc | hc
      · exact Nat.lt_succ_of_lt (h.ptr_lt c hc)
      · obtain rfl := List.mem_singleton.1 hc
        exact Nat.lt_succ_self _
    · intro c hc
      rcases List.mem_append.1 hc with hc | hc
      · exact h.localId c hc
      · obtain rfl := List.mem_singleton.1 hc
        exact h.nextLocalId
    · rw [h.nextLocalId]
      exact (UInt32.ofNat_add _ 1).symm
    · intro hsmall l p
      have hbound : m.nextPtr + 1 < 2 ^ 32 := hsmall
      by_cases hl : l = m.nextLocalId
      · subst hl
        simp only [Function.update_self]
        constructor
        · intro hp
          exact ⟨_, List.mem_append_right _ (List.mem_singleton_self _), by simpa using hp, rfl⟩
        · rintro ⟨c, hc, rfl, hid⟩
          rcases List.mem_append.1 hc with hc | hc
          · have hptr := h.ptr_lt c hc
            rw [h.localId c hc, h.nextLocalId] at hid
            exact absurd (localId_inj hbound (Nat.lt_succ_of_lt hptr) (Nat.lt_succ_self _) hid)
              (Nat.ne_of_lt hptr)
          · obtain rfl := List.mem_singleton.1 hc
            rfl
      · simp only [Function.update_of_ne hl]
        rw [h.localToChannel (Nat.lt_of_succ_lt hbound)]
        constructor
        · rintro ⟨c, hc, hrest⟩
          exact ⟨c, List.mem_append_left _ hc, hrest⟩
        · rintro ⟨c, hc, hp, hid⟩
          rcases List.mem_append.1 hc with hc | hc
          · exact ⟨c, hc, hp, hid⟩
          · obtain rfl := List.mem_singleton.1 hc
            exact absurd hid.symm hl
    · intro k p hk
      dsimp only at hk
      split_ifs at hk with hin
      · obtain rfl := Option.some.inj hk
        exact ⟨_, List.mem_append_right _ (List.mem_singleton_self _), rfl, hin⟩
      · obtain ⟨c, hc, hrest⟩ := h.last k p hk
        exact ⟨c, List.mem_append_left _ hc, hrest⟩
    · intro p hp
      exact h.opens_new p (Nat.le_of_succ_le hp)
    · intro c hc hopened
      rcases List.mem_append.1 hc with hc | hc
      · exact h.opens_waiting c hc hopened
      · obtain rfl := List.mem_singleton.1 hc
        exact h.opens_new _ (Nat.le_refl _)

lemma mem_link_channels {m : Mux} {p : Ptr} {remote : PendingOpen} {c' : Channel}
    (h : c' ∈ (m.link p remote).channels) : ∃ c ∈ m.channels,
      (c.ptr = p ∧ c' = linked remote.remoteLocalId c) ∨ (c.ptr ≠ p ∧ c' = c) := by
  obtain ⟨c, hc, rfl⟩ := List.mem_map.1 h
  refine ⟨c, hc, ?_⟩
  split_ifs with hp
  · exact Or.inl ⟨hp, rfl⟩
  · exact Or.inr ⟨hp, rfl⟩

lemma opens_link (m : Mux) (p q : Ptr) (remote : PendingOpen) :
    (m.link p remote).opens q = m.opens q + if p = q then 1 else 0 := by
  simp [link, opens, List.countP_append, List.countP_cons]

lemma Tables.link {m : Mux} (h : m.Tables) (remote : PendingOpen) {c : Channel}
    (hc : c ∈ m.channels) (hopened : c.opened = false) : (m.link c.ptr remote).Tables := by
  have hforth : ∀ d ∈ m.channels, ∃ d' ∈ (m.link c.ptr remote).channels,
      d'.ptr = d.ptr ∧ d'.localId = d.localId ∧ d'.pairKeys = d.pairKeys := by
    intro d hd
    refine ⟨_, List.mem_map_of_mem hd, ?_⟩
    split_ifs <;> exact ⟨rfl, rfl, rfl⟩
  have hback : ∀ d' ∈ (m.link c.ptr remote).channels, ∃ d ∈ m.channels,
      d'.ptr = d.ptr ∧ d'.localId = d.localId ∧
        (d'.opened = false → d.ptr ≠ c.ptr ∧ d.opened = false) := by
    intro d' hd'
    obtain ⟨d, hd, ⟨-, rfl⟩ | ⟨hne, rfl⟩⟩ := mem_link_channels hd'
    · exact ⟨d, hd, rfl, rfl, fun hfalse => absurd hfalse (by simp [linked])⟩
    · exact ⟨d', hd, rfl, rfl, fun hfalse => ⟨hne, hfalse⟩⟩
  refine ⟨?_, ?_, h.nextLocalId, ?_, ?_, ?_, ?_, ?_⟩
  · intro d' hd'
    obtain ⟨d, hd, hptr, -, -⟩ := hback d' hd'
    exact hptr ▸ h.ptr_lt d hd
  · intro d' hd'
    obtain ⟨d, hd, hptr, hid, -⟩ := hback d' hd'
    rw [hptr, hid]
    exact h.localId d hd
  · intro hsmall l p
    refine (h.localToChannel hsmall l p).trans ⟨?_, ?_⟩
    · rintro ⟨d, hd, hp, hl⟩
      obtain ⟨d', hd', hptr, hid, -⟩ := hforth d hd
      exact ⟨d', hd', hptr.trans hp, hid.trans hl⟩
    · rintro ⟨d', hd', hp, hl⟩
      obtain ⟨d, hd, hptr, hid, -⟩ := hback d' hd'
      exact ⟨d, hd, hptr.symm.trans hp, hid.symm.trans hl⟩
  · intro k p hk
    obtain ⟨d, hd, hp, hin⟩ := h.last k p hk
    obtain ⟨d', hd', hptr, -, hkeys⟩ := hforth d hd
    exact ⟨d', hd', hptr.trans hp, hkeys ▸ hin⟩
  · intro p
    have hle := h.opens_le p
    rw [opens_link]
    split_ifs with hp
    · have hzero := h.opens_waiting c hc hopened
      rw [hp] at hzero
      omega
    · exact hle
  · intro p hp
    have hne : c.ptr ≠ p := Nat.ne_of_lt (Nat.lt_of_lt_of_le (h.ptr_lt c hc) hp)
    rw [opens_link, h.opens_new p hp, if_neg hne]
  · intro d' hd' hfalse
    obtain ⟨d, hd, hptr, -, hwaiting⟩ := hback d' hd'
    obtain ⟨hne, hfalse⟩ := hwaiting hfalse
    rw [opens_link, hptr, h.opens_waiting d hd hfalse, if_neg (Ne.symm hne)]

lemma Tables.removeChannel {m : Mux} (h : m.Tables) (hwf : m.Wf) {c : Channel}
    (hc : c ∈ m.channels) : (m.removeChannel c.ptr).Tables := by
  have hget := hwf.channel? hc
  have hmem : ∀ d, d ∈ (m.removeChannel c.ptr).channels ↔ d ∈ m.channels ∧ d.ptr ≠ c.ptr := by
    intro d
    simp [Mux.removeChannel, hget]
  have hopens : ∀ p, (m.removeChannel c.ptr).opens p = m.opens p := by
    intro p
    simp [Mux.removeChannel, hget, Mux.opens]
  have hnext : (m.removeChannel c.ptr).nextPtr = m.nextPtr := by
    simp [Mux.removeChannel, hget]
  refine ⟨?_, ?_, ?_, ?_, ?_, ?_, ?_, ?_⟩
  · intro d hd
    rw [hnext]
    exact h.ptr_lt d ((hmem d).1 hd).1
  · intro d hd
    exact h.localId d ((hmem d).1 hd).1
  · rw [hnext, ← h.nextLocalId]
    simp [Mux.removeChannel, hget]
  · intro hsmall l p
    rw [hnext] at hsmall
    have hlookup : (m.removeChannel c.ptr).localToChannel =
        Function.update m.localToChannel c.localId none := by
      simp [Mux.removeChannel, hget]
    rw [hlookup]
    by_cases hl : l = c.localId
    · subst hl
      rw [Function.update_self]
      refine ⟨by simp, ?_⟩
      rintro ⟨d, hd, -, hid⟩
      exact absurd (h.ptr_eq hsmall ((hmem d).1 hd).1 hc hid) ((hmem d).1 hd).2
    · rw [Function.update_of_ne hl, h.localToChannel hsmall]
      constructor
      · rintro ⟨d, hd, hp, hid⟩
        refine ⟨d, (hmem d).2 ⟨hd, fun hptr => hl ?_⟩, hp, hid⟩
        rw [← hid, hwf.eq_of_ptr hd hc hptr]
      · rintro ⟨d, hd, hrest⟩
        exact ⟨d, ((hmem d).1 hd).1, hrest⟩
  · intro k p hk
    simp only [Mux.removeChannel, hget] at hk
    split_ifs at hk with hgone
    obtain ⟨d, hd, rfl, hin⟩ := h.last k p hk
    refine ⟨d, (hmem d).2 ⟨hd, fun hptr => ?_⟩, rfl, hin⟩
    obtain rfl := hwf.eq_of_ptr hd hc hptr
    exact hgone ⟨hin, hk⟩
  · exact fun p => (hopens p).symm ▸ h.opens_le p
  · intro p hp
    rw [hopens]
    exact h.opens_new p (hnext ▸ hp)
  · intro d hd hopened
    rw [hopens]
    exact h.opens_waiting d ((hmem d).1 hd).1 hopened

/-- **A table step keeps the tables right.** -/
theorem Tables.tableStep {m m' : Mux} (h : m.Tables) (hstep : TableStep m m') : m'.Tables := by
  cases hstep with
  | kept hkept => exact h.kept hkept
  | create protocol aliases id unique => exact h.createChannel protocol aliases id unique
  | link remote hwf hc hopened => exact h.link remote hc hopened
  | remove hwf hc => exact h.removeChannel hwf hc

end Mux

/-! ## What becomes of the channels -/

/-- From `m` to a later `m'`: every channel of `m'` that is not new was a channel of `m`, with the
same local id and the same keys, and if it was open in `m`, it is open with the same remote id. -/
structure Evolves (m m' : Mux) : Prop where
  nextPtr : m.nextPtr ≤ m'.nextPtr
  channels : ∀ c' ∈ m'.channels, c'.ptr < m.nextPtr → ∃ c ∈ m.channels, c.ptr = c'.ptr ∧
    c.localId = c'.localId ∧ c.pairKeys = c'.pairKeys ∧
    (c.opened = true → c'.opened = true ∧ c'.remoteId = c.remoteId)

namespace Evolves

lemma refl (m : Mux) : Evolves m m :=
  ⟨Nat.le_refl _, fun c hc _ => ⟨c, hc, rfl, rfl, rfl, fun hopened => ⟨hopened, rfl⟩⟩⟩

lemma trans {m₁ m₂ m₃ : Mux} (h₁ : Evolves m₁ m₂) (h₂ : Evolves m₂ m₃) : Evolves m₁ m₃ := by
  refine ⟨Nat.le_trans h₁.nextPtr h₂.nextPtr, fun c'' hc'' hold => ?_⟩
  obtain ⟨c', hc', hptr', hid', hkeys', hopen'⟩ :=
    h₂.channels c'' hc'' (Nat.lt_of_lt_of_le hold h₁.nextPtr)
  obtain ⟨c, hc, hptr, hid, hkeys, hopen⟩ := h₁.channels c' hc' (hptr'.symm ▸ hold)
  refine ⟨c, hc, hptr.trans hptr', hid.trans hid', hkeys.trans hkeys', fun hopened => ?_⟩
  obtain ⟨hopened', hremote⟩ := hopen hopened
  obtain ⟨hopened'', hremote'⟩ := hopen' hopened'
  exact ⟨hopened'', hremote'.trans hremote⟩

/-- **A table step keeps every pairing.** -/
theorem tableStep {m m' : Mux} (h : Mux.TableStep m m') : Evolves m m' := by
  cases h with
  | kept hkept =>
    refine ⟨Nat.le_of_eq hkept.nextPtr.symm, fun c' hc' _ => ?_⟩
    obtain ⟨c, hc, hentry⟩ := hkept.exists_entry hc'
    simp only [Channel.entry, Entry.mk.injEq] at hentry
    obtain ⟨hptr, hid, hremote, hopened, hkeys⟩ := hentry
    exact ⟨c, hc, hptr, hid, hkeys, fun ho => ⟨hopened.symm.trans ho, hremote.symm⟩⟩
  | create protocol aliases id unique =>
    simp only [Mux.createChannel]
    split_ifs
    · exact refl m
    · exact refl m
    · refine ⟨Nat.le_succ _, fun c' hc' hold => ?_⟩
      rcases List.mem_append.1 hc' with hc' | hc'
      · exact ⟨c', hc', rfl, rfl, rfl, fun hopened => ⟨hopened, rfl⟩⟩
      · obtain rfl := List.mem_singleton.1 hc'
        exact absurd hold (Nat.lt_irrefl _)
  | @link c remote hwf hc hclosed =>
    refine ⟨Nat.le_refl _, fun d' hd' _ => ?_⟩
    obtain ⟨d, hd, ⟨hptr, rfl⟩ | ⟨-, rfl⟩⟩ := Mux.mem_link_channels hd'
    · refine ⟨d, hd, rfl, rfl, rfl, fun hopened => ?_⟩
      rw [hwf.eq_of_ptr hd hc hptr, hclosed] at hopened
      cases hopened
    · exact ⟨d', hd, rfl, rfl, rfl, fun hopened => ⟨hopened, rfl⟩⟩
  | @remove c hwf hc =>
    have hget := hwf.channel? hc
    refine ⟨by simp [Mux.removeChannel, hget], fun c' hc' _ => ?_⟩
    have hin : c' ∈ m.channels := by
      simp only [Mux.removeChannel, hget] at hc'
      exact (List.mem_filter.1 hc').1
    exact ⟨c', hin, rfl, rfl, rfl, fun hopened => ⟨hopened, rfl⟩⟩

end Evolves

/-! ## Runs -/

lemma tables_step {m : Mux} (hwf : m.Wf) (h : m.Tables) (op : Op) :
    (step m op).Tables ∧ Evolves m (step m op) := by
  generalize hm' : step m op = m'
  have hsteps : Mux.TableSteps m m' := hm' ▸ Mux.tableSteps_step hwf op
  clear hm'
  induction hsteps with
  | refl => exact ⟨h, Evolves.refl m⟩
  | tail _ hstep ih => exact ⟨ih.1.tableStep hstep, ih.2.trans (Evolves.tableStep hstep)⟩

lemma tables_init : ({} : Mux).Tables where
  ptr_lt := by simp
  localId := by simp
  nextLocalId := rfl
  localToChannel := by simp
  last := by simp
  opens_le := by simp [Mux.opens]
  opens_new := by simp [Mux.opens]
  opens_waiting := by simp

lemma tables_run (ops : List Op) : (Runs.run step {} ops).Tables :=
  (Runs.run_invariant (P := fun m => m.Wf ∧ m.Tables)
    (fun m op h => ⟨wf_step m op h.1, (tables_step h.1 h.2 op).1⟩)
    ⟨wf_init, tables_init⟩ ops).2

lemma evolves_run (ops more : List Op) :
    Evolves (Runs.run step {} ops) (Runs.run step {} (ops ++ more)) := by
  induction more using List.reverseRecOn with
  | nil => simpa using Evolves.refl _
  | append_singleton more op ih =>
    rw [← List.append_assoc, Runs.run_append step {} (ops ++ more)]
    exact ih.trans (tables_step (wf_run _) (tables_run _) op).2

/-- The tables hold live channels only: the channels of the mux are distinct objects that are not
destroyed; a remote id is mapped to an open channel with that remote id; a local id is mapped to
exactly the channel with that local id, and local ids are distinct and not zero; the last channel
of a key is a channel of that key; and no channel was fully opened twice. -/
structure TablesLive (m : Mux) : Prop where
  live : ∀ c ∈ m.channels, c.destroyed = false
  distinct : (m.channels.map (·.ptr)).Nodup
  remoteToChannel : ∀ r p, m.remoteToChannel r = some p →
    ∃ c ∈ m.channels, c.ptr = p ∧ c.remoteId = r ∧ c.opened = true
  localToChannel : ∀ l p, m.localToChannel l = some p ↔
    ∃ c ∈ m.channels, c.ptr = p ∧ c.localId = l
  localId_ne_zero : ∀ c ∈ m.channels, c.localId ≠ 0
  localIds : (m.channels.map (·.localId)).Nodup
  lastChannelByKey : ∀ k p, m.lastChannelByKey k = some p →
    ∃ c ∈ m.channels, c.ptr = p ∧ k ∈ c.pairKeys
  opens : ∀ p, m.opens p ≤ 1

/-- **Live tables**: in every run that creates fewer than `2 ^ 32` channels, whatever frames arrive
and whatever is called, the tables hold live channels only, and a channel that was paired at some
time of the run keeps its remote id for as long as it lives. -/
theorem tablesLive_run (ops more : List Op)
    (hsmall : (Runs.run step {} (ops ++ more)).nextPtr < 2 ^ 32) :
    TablesLive (Runs.run step {} (ops ++ more)) ∧
      Evolves (Runs.run step {} ops) (Runs.run step {} (ops ++ more)) := by
  have hwf := wf_run (ops ++ more)
  have h := tables_run (ops ++ more)
  refine ⟨⟨?_, hwf.nodup, hwf.remote, h.localToChannel hsmall, ?_, ?_, h.last, h.opens_le⟩,
    evolves_run ops more⟩
  · exact fun c hc => (hwf.channels c hc).destroyed
  · intro c hc
    rw [h.localId c hc]
    exact Mux.localId_ne_zero hsmall (h.ptr_lt c hc)
  · refine (List.nodup_map_iff_inj_on hwf.nodup.of_map).2 fun c hc d hd hid => ?_
    exact hwf.eq_of_ptr hc hd (h.ptr_eq hsmall hc hd hid)

def conflictingRun : List Op :=
  [.createChannel (.single 112) [] .nil false,
    .createChannel (.single 113) [] .nil false,
    .open 0 .nil, .open 1 .nil,
    .onData [0, 1, 7, 1, 112, 0, 0], .onData [0, 1, 7, 1, 113, 0, 0]]

theorem tablesLive_conflictingRun :
    (Runs.run step {} (conflictingRun ++ [.onData [0, 3, 7]])).nextPtr < 2 ^ 32 ∧
      TablesLive (Runs.run step {} (conflictingRun ++ [.onData [0, 3, 7]])) ∧
      Evolves (Runs.run step {} conflictingRun)
        (Runs.run step {} (conflictingRun ++ [.onData [0, 3, 7]])) :=
  have hsmall : (Runs.run step {} (conflictingRun ++ [.onData [0, 3, 7]])).nextPtr < 2 ^ 32 := by
    decide +kernel
  ⟨hsmall, tablesLive_run conflictingRun [.onData [0, 3, 7]] hsmall⟩

/-- The second OPEN took the entry of the remote id, so that the CLOSE frees the second channel. -/
example : ((Runs.run step {} (conflictingRun ++ [.onData [0, 3, 7]])).channels.map
    fun c => (c.ptr, c.opened, c.remoteId)) = [(0, true, 7)] := by
  decide +kernel

end HyperDHT.Protomux
