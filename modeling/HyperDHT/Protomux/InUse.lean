import Mathlib.Data.List.Nodup
import HyperDHT.Protomux.Invariant
import HyperDHT.Protomux.Reentry

/-!
# The channels that calls in progress come back to

A channel is freed when it is closed, while methods that hold a pointer to it may still be in progress:
a callback that one of them has called may be the one that closes it. This module says which calls in
progress come back to a channel, and what the tables of a mux keep when callbacks change them between
two steps of a method.

## Main definitions

* `Protomux.CallFrame.channel?` — the channel a call in progress comes back to.
* `Protomux.UseLaw`, `Config.UsesSoundly` — no channel is used after it was freed, and its `on_close`
  and `on_destroy` are called once.
* `Protomux.Config.QuietWrite` — the write function calls no method.
* `Protomux.Config.Spares` — no channel is closed that a call in progress comes back to.
* `Protomux.Mux.Linked` — the tables between two steps.

## Main results

* `Protomux.Mux.Linked.connect`, `Protomux.Mux.Linked.removeChannel` — pairing a channel that is not
  paired yet, and freeing a channel, leave no stale pointer in the tables.
-/

set_option autoImplicit false

namespace HyperDHT.Protomux

/-! ## Using channels -/

/-- The channel a task works with, through a pointer that it holds. -/
def Task.channel? : Task → Option Ptr
  | .method m => m.channel?
  | .handle _ => none
  | .openPending p => some p
  | .drainPending p => some p
  | .drainOne p _ => some p
  | .closing p => some p
  | .remoteClose p => some p
  | .channelDestroy p => some p
  | .removeChannel p => some p
  | .callOnClose _ => none
  | .drain p => some p
  | .forEach p => some p
  | .destroyLoop => none

/-- The channel a call in progress comes back to. -/
def CallFrame.channel? : CallFrame → Option Ptr
  | .user _ => none
  | .task t => t.channel?

/-- A call in progress that frees its channel in the end. -/
def CallFrame.Frees : CallFrame → Prop
  | .task (.closing _) => True
  | .task (.channelDestroy _) => True
  | .task (.removeChannel _) => True
  | _ => False

/-- A channel is not used once it was freed, and its `on_close` and `on_destroy` are not called
twice. -/
def UseLaw (history : List Happening) : Happening → Prop
  | .access p => .freed p ∉ history
  | .called (.onClose p) => .called (.onClose p) ∉ history
  | .called (.onDestroy p) => .called (.onDestroy p) ∉ history
  | _ => True

namespace Config

/-- No channel was used after it was freed, and no `on_close` or `on_destroy` was called twice. -/
def UsesSoundly (c : Config) : Prop := Trace.Always UseLaw c.trace

/-- The channel that the library is about to close, or to close for the remote end. -/
def closesNow (c : Config) : Option Ptr :=
  match c.stack with
  | .task (.method (.op (.close p))) :: _ =>
    if (c.mux.channel? p).any fun ch => !ch.closed && !ch.destroyed then some p else none
  | .task (.remoteClose p) :: _ =>
    if (c.mux.channel? p).any fun ch => !ch.destroyed then some p else none
  | _ => none

/-- No other call in progress comes back to a channel that is about to be closed. -/
def Spares (c : Config) : Action → Prop
  | .run => ∀ p ∈ c.closesNow, ∀ f ∈ c.stack.tail, f.channel? ≠ some p
  | _ => True

instance (c : Config) (a : Action) : Decidable (c.Spares a) := by
  cases a <;> unfold Spares <;> infer_instance

/-- The write function is running. -/
def writes (c : Config) : Bool :=
  match c.stack with
  | .user (.write _) :: _ => true
  | _ => false

/-- The write function calls no method. -/
def QuietWrite (c : Config) : Action → Prop
  | .call _ => c.writes = false
  | _ => True

instance (c : Config) (a : Action) : Decidable (c.QuietWrite a) := by
  cases a <;> unfold QuietWrite <;> infer_instance

end Config

/-! ## Channels by pointer -/

namespace Mux

variable {m : Mux} {p q : Ptr}

lemma ptr_of_channel? {ch : Channel} (h : m.channel? p = some ch) : ch.ptr = p := by
  simpa using List.find?_some h

lemma mem_channels_of_channel? {ch : Channel} (h : m.channel? p = some ch) : ch ∈ m.channels :=
  List.mem_of_find?_eq_some h

lemma isSome_channel? {ch : Channel} (h : ch ∈ m.channels) : (m.channel? ch.ptr).isSome := by
  rw [channel?, List.find?_isSome]
  exact ⟨ch, h, by simp⟩

lemma channel?_congr {m' : Mux} (h : m'.channels = m.channels) : m'.channel? p = m.channel? p := by
  rw [channel?, channel?, h]

lemma channel?_modify {f : Channel → Channel} (hf : ∀ ch, (f ch).ptr = ch.ptr) :
    (m.modifyChannel q f).channel? p = if p = q then (m.channel? p).map f else m.channel? p := by
  have hpred : ((fun ch : Channel => decide (ch.ptr = p)) ∘ fun ch => if ch.ptr = q then f ch else ch) =
      fun ch => decide (ch.ptr = p) := by
    funext ch
    simp only [Function.comp_apply]
    split_ifs <;> simp [hf]
  rw [channel?, modifyChannel, List.find?_map, hpred, channel?]
  cases hfind : m.channels.find? fun ch => decide (ch.ptr = p) with
  | none => simp
  | some ch =>
    have hptr : ch.ptr = p := by simpa using List.find?_some hfind
    simp only [Option.map_some, hptr]
    split_ifs <;> rfl

lemma channel?_removeChannel :
    (m.removeChannel q).channel? p = if p = q then none else m.channel? p := by
  cases hget : m.channel? q with
  | none =>
    simp only [removeChannel, hget]
    split_ifs with h
    · rw [h, hget]
    · rfl
  | some ch =>
    have hchannels : (m.removeChannel q).channels = m.channels.filter fun ch => ch.ptr ≠ q := by
      simp only [removeChannel, hget]
    rw [channel?, hchannels, List.find?_filter]
    split_ifs with h
    · subst h
      simp
    · rw [channel?]
      congr 1
      funext ch
      by_cases hptr : ch.ptr = p
      · simp [hptr, h]
      · simp [hptr]

lemma createChannel_cases (m : Mux) (protocol : Bytes) (aliases : List Bytes) (id : Bytes)
    (unique : Bool) : (m.createChannel protocol aliases id unique).1 = m ∨
      ∃ ch : Channel, ch.ptr = m.nextPtr ∧ ch.closed = false ∧ ch.destroyed = false ∧
        (m.createChannel protocol aliases id unique).1.nextPtr = m.nextPtr + 1 ∧
        (m.createChannel protocol aliases id unique).1.channels = m.channels ++ [ch] := by
  simp only [createChannel]
  split_ifs
  · exact .inl rfl
  · exact .inl rfl
  · exact .inr ⟨_, rfl, rfl, rfl, rfl, rfl⟩

/-! ## The tables of a mux between two steps -/

/-- A channel is paired with a remote OPEN. -/
def connect (m : Mux) (p : Ptr) (o : PendingOpen) : Mux :=
  { m.modifyChannel p (linked o.remoteLocalId) with
    remoteToChannel := Function.update m.remoteToChannel o.remoteLocalId (some p) }

/-- The channels are distinct objects; the tables by id hold channels of that id that the mux still
owns; a channel is open only after its OPEN was sent, and has a remote id only if it was opened. -/
structure Linked (m : Mux) : Prop where
  nodup : (m.channels.map (·.ptr)).Nodup
  ptr_lt : ∀ ch ∈ m.channels, ch.ptr < m.nextPtr
  remote : ∀ r p, m.remoteToChannel r = some p →
    r ≠ 0 ∧ ∃ ch, m.channel? p = some ch ∧ ch.remoteId = r
  localId : ∀ l p, m.localToChannel l = some p → ∃ ch, m.channel? p = some ch ∧ ch.localId = l
  pending : ∀ k o, m.pendingRemote k = some o → o.remoteLocalId ≠ 0
  opened : ∀ ch ∈ m.channels, ch.opened = true → ch.openSent = true
  remoteId : ∀ ch ∈ m.channels, ch.remoteId ≠ 0 → ch.opened = true ∨ ch.destroyed = true

namespace Linked

lemma channel? {ch : Channel} (h : m.Linked) (hch : ch ∈ m.channels) :
    m.channel? ch.ptr = some ch := by
  obtain ⟨ch', hget⟩ := Option.isSome_iff_exists.1 (isSome_channel? hch)
  rw [hget, List.inj_on_of_nodup_map h.nodup (mem_channels_of_channel? hget) hch
    (ptr_of_channel? hget)]

lemma congr {m' : Mux} (h : m.Linked) (hchannels : m'.channels = m.channels)
    (hnext : m'.nextPtr = m.nextPtr) (hremote : m'.remoteToChannel = m.remoteToChannel)
    (hlocal : m'.localToChannel = m.localToChannel)
    (hpending : ∀ k o, m'.pendingRemote k = some o → o.remoteLocalId ≠ 0) : m'.Linked where
  nodup := by rw [hchannels]; exact h.nodup
  ptr_lt := by rw [hchannels, hnext]; exact h.ptr_lt
  remote r p hp := by
    rw [channel?_congr hchannels]
    exact h.remote r p (hremote ▸ hp)
  localId l p hp := by
    rw [channel?_congr hchannels]
    exact h.localId l p (hlocal ▸ hp)
  pending := hpending
  opened := by rw [hchannels]; exact h.opened
  remoteId := by rw [hchannels]; exact h.remoteId

lemma init : ({} : Mux).Linked where
  nodup := by simp
  ptr_lt := by simp
  remote := by simp
  localId := by simp
  pending := by simp
  opened := by simp
  remoteId := by simp

lemma modifyChannel (h : m.Linked) {f : Channel → Channel} (hptr : ∀ ch, (f ch).ptr = ch.ptr)
    (hlocal : ∀ ch, (f ch).localId = ch.localId) (hremote : ∀ ch, (f ch).remoteId = ch.remoteId)
    (hopened : ∀ ch ∈ m.channels, ch.ptr = q → (f ch).opened = true → (f ch).openSent = true)
    (hremoteId : ∀ ch ∈ m.channels, ch.ptr = q → ch.remoteId ≠ 0 →
      (f ch).opened = true ∨ (f ch).destroyed = true) : (m.modifyChannel q f).Linked where
  nodup := by
    have hmap : (m.modifyChannel q f).channels.map (·.ptr) = m.channels.map (·.ptr) := by
      simp only [Mux.modifyChannel, List.map_map]
      refine List.map_congr_left fun ch _ => ?_
      simp only [Function.comp_apply]
      split_ifs <;> simp [hptr]
    rw [hmap]
    exact h.nodup
  ptr_lt ch hch := by
    obtain ⟨ch₀, hch₀, rfl⟩ := List.mem_map.1 hch
    split_ifs
    · rw [hptr]
      exact h.ptr_lt ch₀ hch₀
    · exact h.ptr_lt ch₀ hch₀
  remote r p hp := by
    obtain ⟨hr, ch, hget, hid⟩ := h.remote r p hp
    refine ⟨hr, ?_⟩
    rw [channel?_modify hptr, hget]
    split_ifs
    · exact ⟨f ch, rfl, (hremote ch).trans hid⟩
    · exact ⟨ch, rfl, hid⟩
  localId l p hp := by
    obtain ⟨ch, hget, hid⟩ := h.localId l p hp
    rw [channel?_modify hptr, hget]
    split_ifs
    · exact ⟨f ch, rfl, (hlocal ch).trans hid⟩
    · exact ⟨ch, rfl, hid⟩
  pending := h.pending
  opened ch hch := by
    obtain ⟨ch₀, hch₀, rfl⟩ := List.mem_map.1 hch
    split_ifs with hq
    · exact hopened ch₀ hch₀ hq
    · exact h.opened ch₀ hch₀
  remoteId ch hch := by
    obtain ⟨ch₀, hch₀, rfl⟩ := List.mem_map.1 hch
    split_ifs with hq
    · rw [hremote]
      exact hremoteId ch₀ hch₀ hq
    · exact h.remoteId ch₀ hch₀

lemma close (h : m.Linked) : (m.modifyChannel q ({ · with closed := true })).Linked :=
  h.modifyChannel (fun _ => rfl) (fun _ => rfl) (fun _ => rfl) (fun ch hch _ => h.opened ch hch)
    fun ch hch _ => h.remoteId ch hch

lemma destroy (h : m.Linked) :
    (m.modifyChannel q ({ · with destroyed := true, opened := false })).Linked :=
  h.modifyChannel (fun _ => rfl) (fun _ => rfl) (fun _ => rfl) (fun _ _ _ ho => by cases ho)
    fun _ _ _ _ => .inr rfl

lemma createChannel (h : m.Linked) (protocol : Bytes) (aliases : List Bytes) (id : Bytes)
    (unique : Bool) : (m.createChannel protocol aliases id unique).1.Linked := by
  simp only [Mux.createChannel]
  split_ifs
  · exact h
  · exact h
  · refine ⟨?_, ?_, ?_, ?_, h.pending, ?_, ?_⟩
    · rw [List.map_append, List.nodup_append]
      refine ⟨h.nodup, by simp, fun p hp q hq => ?_⟩
      obtain ⟨ch, hch, rfl⟩ := List.mem_map.1 hp
      simp only [List.map_cons, List.map_nil, List.mem_singleton] at hq
      rw [hq]
      exact Nat.ne_of_lt (h.ptr_lt ch hch)
    · intro ch hch
      rcases List.mem_append.1 hch with hch | hch
      · exact Nat.lt_succ_of_lt (h.ptr_lt ch hch)
      · rw [List.mem_singleton.1 hch]
        exact Nat.lt_succ_self _
    · intro r p hp
      obtain ⟨hr, ch, hget, hid⟩ := h.remote r p hp
      refine ⟨hr, ch, ?_, hid⟩
      rw [Mux.channel?] at hget ⊢
      rw [List.find?_append, hget, Option.some_or]
    · intro l p hp
      by_cases hl : l = m.nextLocalId
      · subst hl
        simp only [Function.update_self, Option.some.injEq] at hp
        subst hp
        have hnone : m.channels.find? (fun ch => decide (ch.ptr = m.nextPtr)) = none := by
          refine List.find?_eq_none.2 fun ch hch => ?_
          simpa using Nat.ne_of_lt (h.ptr_lt ch hch)
        rw [Mux.channel?, List.find?_append, hnone]
        simp
      · simp only [Function.update_of_ne hl] at hp
        obtain ⟨ch, hget, hid⟩ := h.localId l p hp
        refine ⟨ch, ?_, hid⟩
        rw [Mux.channel?] at hget ⊢
        rw [List.find?_append, hget, Option.some_or]
    · intro ch hch
      rcases List.mem_append.1 hch with hch | hch
      · exact h.opened ch hch
      · simp [List.mem_singleton.1 hch]
    · intro ch hch
      rcases List.mem_append.1 hch with hch | hch
      · exact h.remoteId ch hch
      · simp [List.mem_singleton.1 hch]

lemma connect (h : m.Linked) {ch : Channel} (hch : m.channel? p = some ch) (hsent : ch.openSent = true)
    (hfresh : ch.remoteId = 0) {o : PendingOpen} (ho : o.remoteLocalId ≠ 0) :
    (m.connect p o).Linked := by
  have hptr : ∀ ch : Channel, (linked o.remoteLocalId ch).ptr = ch.ptr := fun _ => rfl
  have hget : ∀ q, (m.connect p o).channel? q =
      if q = p then (m.channel? q).map (linked o.remoteLocalId) else m.channel? q :=
    fun q => channel?_modify hptr
  refine ⟨?_, ?_, ?_, ?_, h.pending, ?_, ?_⟩
  · have hmap : (m.connect p o).channels.map (·.ptr) = m.channels.map (·.ptr) := by
      simp only [Mux.connect, Mux.modifyChannel, List.map_map]
      refine List.map_congr_left fun ch _ => ?_
      simp only [Function.comp_apply]
      split_ifs <;> rfl
    rw [hmap]
    exact h.nodup
  · intro ch' hch'
    obtain ⟨ch₀, hch₀, rfl⟩ := List.mem_map.1 hch'
    split_ifs <;> exact h.ptr_lt ch₀ hch₀
  · intro r q hq
    by_cases hr : r = o.remoteLocalId
    · subst hr
      simp only [Mux.connect, Mux.modifyChannel, Function.update_self, Option.some.injEq] at hq
      subst hq
      exact ⟨ho, linked o.remoteLocalId ch, by simp [hget, hch], rfl⟩
    · simp only [Mux.connect, Mux.modifyChannel, Function.update_of_ne hr] at hq
      obtain ⟨hne, ch', hch', hid⟩ := h.remote r q hq
      have hqp : q ≠ p := by
        -- the channel that is paired was not in the table
        rintro rfl
        rw [hch] at hch'
        obtain rfl := Option.some.inj hch'
        exact hne (hid.symm.trans hfresh)
      exact ⟨hne, ch', by rw [hget, if_neg hqp, hch'], hid⟩
  · intro l q hq
    obtain ⟨ch', hch', hid⟩ := h.localId l q hq
    rw [hget, hch']
    split_ifs
    · exact ⟨_, rfl, hid⟩
    · exact ⟨_, rfl, hid⟩
  · intro ch' hch'
    obtain ⟨ch₀, hch₀, rfl⟩ := List.mem_map.1 hch'
    split_ifs with hp
    · have hsame := h.channel? hch₀
      rw [hp, hch] at hsame
      intro _
      rw [← Option.some.inj hsame]
      exact hsent
    · exact h.opened ch₀ hch₀
  · intro ch' hch'
    obtain ⟨ch₀, hch₀, rfl⟩ := List.mem_map.1 hch'
    split_ifs with hp
    · exact fun _ => .inl rfl
    · exact h.remoteId ch₀ hch₀

lemma removeChannel (h : m.Linked) (p : Ptr) : (m.removeChannel p).Linked := by
  cases hch : m.channel? p with
  | none =>
    simp only [Mux.removeChannel, hch]
    exact h
  | some ch =>
    have hsub : ∀ ch' ∈ (m.removeChannel p).channels, ch' ∈ m.channels := by
      simp only [Mux.removeChannel, hch]
      exact fun ch' hch' => (List.mem_filter.1 hch').1
    have hget : ∀ q ch', m.channel? q = some ch' → q ≠ p →
        (m.removeChannel p).channel? q = some ch' := fun q ch' hq hne => by
      rw [channel?_removeChannel, if_neg hne, hq]
    refine ⟨?_, ?_, ?_, ?_, ?_, ?_, ?_⟩
    · simp only [Mux.removeChannel, hch]
      exact (List.filter_sublist.map _).nodup h.nodup
    · intro ch' hch'
      have hnext : (m.removeChannel p).nextPtr = m.nextPtr := by simp only [Mux.removeChannel, hch]
      rw [hnext]
      exact h.ptr_lt ch' (hsub ch' hch')
    · intro r q hq
      simp only [Mux.removeChannel, hch] at hq
      have hold : m.remoteToChannel r = some q ∧ (ch.remoteId ≠ 0 → r ≠ ch.remoteId) := by
        split_ifs at hq with hne
        · by_cases hr : r = ch.remoteId
          · simp [hr] at hq
          · exact ⟨by simpa [Function.update_of_ne hr] using hq, fun _ => hr⟩
        · exact ⟨hq, fun hne' => absurd hne' hne⟩
      obtain ⟨hr, ch', hch', hid⟩ := h.remote r q hold.1
      refine ⟨hr, ch', hget q ch' hch' ?_, hid⟩
      rintro rfl
      rw [hch] at hch'
      obtain rfl := Option.some.inj hch'
      exact hold.2 (hid ▸ hr) hid.symm
    · intro l q hq
      simp only [Mux.removeChannel, hch] at hq
      by_cases hl : l = ch.localId
      · simp [hl] at hq
      · rw [Function.update_of_ne hl] at hq
        obtain ⟨ch', hch', hid⟩ := h.localId l q hq
        refine ⟨ch', hget q ch' hch' ?_, hid⟩
        rintro rfl
        rw [hch] at hch'
        obtain rfl := Option.some.inj hch'
        exact hl hid.symm
    · intro k o ho
      simp only [Mux.removeChannel, hch] at ho
      split_ifs at ho
      exact h.pending k o ho
    · exact fun ch' hch' => h.opened ch' (hsub ch' hch')
    · exact fun ch' hch' => h.remoteId ch' (hsub ch' hch')

end Linked

end Mux

end HyperDHT.Protomux
