import HyperDHT.Lib.Lifetimes
import HyperDHT.Protomux.InUse

/-!
# Channels that are used after they were freed

Closing a channel frees it at once. Nothing is used after it was freed, and no last callback is called
twice, as long as no channel is closed that a call in progress comes back to.

## Main definitions

* `Protomux.Config.Torn` — how far the teardown of a channel has come.
* `Protomux.Config.Ok` — the invariant between two steps.
* `Protomux.Config.Grows` — what a step does that closes no channel.

## Main results

* `Protomux.Config.Ok.removeChannel` — when a channel is freed, no call in progress comes back to it.
* `Protomux.usesSoundly_run` — a run that spares the channels in use uses them soundly.
* `Protomux.not_usesSoundly_destroyingClose` — an `on_close` that destroys the mux.
-/

set_option autoImplicit false

namespace HyperDHT.Protomux

/-! ## The calls in progress -/

/-- The `on_close` of a channel is about to be called, after it was moved out. -/
def CallFrame.callsOnClose (p : Ptr) : CallFrame → Bool
  | .task (.callOnClose q) => q = p
  | _ => false

/-- A frame that has no part in the teardown of a channel. -/
def CallFrame.Neutral : CallFrame → Prop
  | .task (.closing _) => False
  | .task (.channelDestroy _) => False
  | .task (.removeChannel _) => False
  | .task (.callOnClose _) => False
  | _ => True

/-- A frame that has no part in the opening and the teardown of a channel. -/
def CallFrame.Plain : CallFrame → Prop
  | .task (.openPending _) => False
  | f => f.Neutral

/-- What happens outside of a teardown; only channels that are there are used. -/
def Happening.Plain (live : Ptr → Prop) : Happening → Prop
  | .access p => live p
  | .freed _ => False
  | .called (.onClose _) => False
  | .called (.onDestroy _) => False
  | _ => True

/-- A frame that has a part in the teardown of no other channel. -/
def CallFrame.About (p : Ptr) (f : CallFrame) : Prop :=
  (∀ q, f.callsOnClose q = true → q = p) ∧ (f.Frees → f.channel? = some p)

/-- What happens is not the end of another channel. -/
def Happening.About (p : Ptr) (h : Happening) : Prop :=
  ∀ q, h = .called (.onClose q) ∨ h = .called (.onDestroy q) → q = p

namespace CallFrame

variable {f : CallFrame} {p q : Ptr}

@[simp] lemma callsOnClose_user {cb : Callback} : (CallFrame.user cb).callsOnClose p = false := rfl

@[simp] lemma callsOnClose_callOnClose :
    (CallFrame.task (.callOnClose q)).callsOnClose p = decide (q = p) := rfl

@[simp] lemma callsOnClose_closing : (CallFrame.task (.closing q)).callsOnClose p = false := rfl

@[simp] lemma callsOnClose_channelDestroy :
    (CallFrame.task (.channelDestroy q)).callsOnClose p = false := rfl

@[simp] lemma callsOnClose_removeChannel :
    (CallFrame.task (.removeChannel q)).callsOnClose p = false := rfl

@[simp] lemma about_user {cb : Callback} : (CallFrame.user cb).About p :=
  ⟨fun _ h => (by cases h), False.elim⟩

@[simp] lemma about_callOnClose : (CallFrame.task (.callOnClose p)).About p :=
  ⟨fun q h => by simpa [eq_comm] using h, False.elim⟩

@[simp] lemma about_closing : (CallFrame.task (.closing p)).About p :=
  ⟨fun _ h => (by cases h), fun _ => rfl⟩

@[simp] lemma about_channelDestroy : (CallFrame.task (.channelDestroy p)).About p :=
  ⟨fun _ h => (by cases h), fun _ => rfl⟩

@[simp] lemma about_removeChannel : (CallFrame.task (.removeChannel p)).About p :=
  ⟨fun _ h => (by cases h), fun _ => rfl⟩

lemma Neutral.not_frees (h : f.Neutral) : ¬ f.Frees := by
  cases f with
  | user cb => exact id
  | task t => cases t <;> first | exact id | exact h.elim

lemma Neutral.not_callsOnClose (h : f.Neutral) : f.callsOnClose p = false := by
  cases f with
  | user cb => rfl
  | task t => cases t <;> first | rfl | exact h.elim

lemma Plain.neutral (h : f.Plain) : f.Neutral := by
  cases f with
  | user cb => trivial
  | task t => cases t <;> first | exact h | exact h.elim

end CallFrame

namespace Config

/-- Whether a channel that the mux owns is closed and destroyed. -/
def status (c : Config) (p : Ptr) : Option (Bool × Bool) :=
  (c.mux.channel? p).map fun ch => (ch.closed, ch.destroyed)

/-- The mux owns a channel. -/
def Owns (c : Config) (p : Ptr) : Prop := (c.status p).isSome

/-- How often `on_close` of a channel was called or is about to be called. -/
def closes (c : Config) (p : Ptr) : ℕ :=
  c.trace.count (.called (.onClose p)) + c.stack.countP (·.callsOnClose p)

/-- How often `on_destroy` of a channel was called. -/
def destroys (c : Config) (p : Ptr) : ℕ := c.trace.count (.called (.onDestroy p))

/-- How far the teardown of a channel has come: it is closed, destroyed and freed, each of it once,
and from the time it is closed to the time it is freed a call in progress sees to it. -/
structure Torn (c : Config) (p : Ptr) : Prop where
  closes_le : c.closes p ≤ 1
  destroys_le : c.destroys p ≤ 1
  new : c.mux.nextPtr ≤ p → c.closes p = 0 ∧ c.destroys p = 0
  idle : ∀ d, c.status p = some (false, d) → d = false ∧ c.closes p = 0
  alive : ∀ b, c.status p = some (b, false) → c.destroys p = 0
  busy : c.status p = some (true, false) → ∃ f ∈ c.stack, f.Frees ∧ f.channel? = some p
  closing : .task (.closing p) ∈ c.stack → c.status p = some (true, false) ∧ c.closes p = 0
  dying : .task (.channelDestroy p) ∈ c.stack → c.status p = some (true, false)

/-- The invariant between two steps. -/
structure Ok (c : Config) : Prop where
  linked : c.mux.Linked
  stack : Lifetimes.Sound CallFrame.channel? CallFrame.Frees c.Owns c.stack
  freed : ∀ p, .freed p ∈ c.trace → p < c.mux.nextPtr ∧ ¬ c.Owns p
  torn : ∀ p, c.Torn p
  lawful : c.UsesSoundly

/-- No `open` waits for the write function. -/
def Calm (c : Config) : Prop := ∀ p, .task (.openPending p) ∉ c.stack

variable {c c' c'' : Config} {p : Ptr}

lemma Torn.of_agree (ht : c.Torn p) (hcloses : c'.closes p = c.closes p)
    (hdestroys : c'.destroys p = c.destroys p) (hnext : c.mux.nextPtr ≤ c'.mux.nextPtr)
    (hstatus : c'.status p = c.status p)
    (hmem : ∀ f : CallFrame, f.Frees → f.channel? = some p → (f ∈ c'.stack ↔ f ∈ c.stack)) :
    c'.Torn p where
  closes_le := hcloses ▸ ht.closes_le
  destroys_le := hdestroys ▸ ht.destroys_le
  new hp := by
    rw [hcloses, hdestroys]
    exact ht.new (Nat.le_trans hnext hp)
  idle d hd := by
    rw [hcloses]
    exact ht.idle d (hstatus ▸ hd)
  alive b hb := by
    rw [hdestroys]
    exact ht.alive b (hstatus ▸ hb)
  busy hbusy := by
    obtain ⟨f, hf, hfrees, hp⟩ := ht.busy (hstatus ▸ hbusy)
    exact ⟨f, (hmem f hfrees hp).2 hf, hfrees, hp⟩
  closing hf := by
    rw [hcloses, hstatus]
    exact ht.closing ((hmem (.task (.closing p)) trivial rfl).1 hf)
  dying hf := by
    rw [hstatus]
    exact ht.dying ((hmem (.task (.channelDestroy p)) trivial rfl).1 hf)

/-! ## Steps that close no channel -/

/-- From `c` to `c'` no channel is created, closed, destroyed or freed, and what is used and referred
to is there. -/
structure Grows (c c' : Config) : Prop where
  linked : c.mux.Linked → c'.mux.Linked
  nextPtr : c'.mux.nextPtr = c.mux.nextPtr
  status : ∀ p, c'.status p = c.status p
  stack : ∃ fs, c'.stack = fs ++ c.stack ∧
    ∀ f ∈ fs, f.Plain ∧ ∀ p, f.channel? = some p → c.Owns p
  trace : ∃ hs, c'.trace = c.trace ++ hs ∧ ∀ h ∈ hs, h.Plain c.Owns

namespace Grows

lemma owns (h : Grows c c') : c'.Owns = c.Owns := by
  funext p
  rw [Owns, Owns, h.status]

lemma refl (c : Config) : Grows c c :=
  ⟨id, rfl, fun _ => rfl, ⟨[], by simp⟩, ⟨[], by simp⟩⟩

lemma trans (h : Grows c c') (h' : Grows c' c'') : Grows c c'' := by
  obtain ⟨fs, hstack, hplain⟩ := h.stack
  obtain ⟨fs', hstack', hplain'⟩ := h'.stack
  obtain ⟨hs, htrace, hquiet⟩ := h.trace
  obtain ⟨hs', htrace', hquiet'⟩ := h'.trace
  rw [h.owns] at hplain' hquiet'
  refine ⟨h'.linked ∘ h.linked, h'.nextPtr.trans h.nextPtr, fun p => (h'.status p).trans (h.status p),
    ⟨fs' ++ fs, by rw [hstack', hstack, List.append_assoc], fun f hf => ?_⟩,
    ⟨hs ++ hs', by rw [htrace', htrace, List.append_assoc], fun e he => ?_⟩⟩
  · rcases List.mem_append.1 hf with hf | hf
    · exact hplain' f hf
    · exact hplain f hf
  · rcases List.mem_append.1 he with he | he
    · exact hquiet e he
    · exact hquiet' e he

lemma torn (h : Grows c c') (ht : c.Torn p) : c'.Torn p := by
  obtain ⟨fs, hstack, hplain⟩ := h.stack
  obtain ⟨hs, htrace, hquiet⟩ := h.trace
  have hcall : fs.countP (·.callsOnClose p) = 0 :=
    List.countP_eq_zero.2 fun f hf => by simp [(hplain f hf).1.neutral.not_callsOnClose]
  have hclosed : hs.count (.called (.onClose p)) = 0 :=
    List.count_eq_zero.2 fun hmem => hquiet _ hmem
  have hdestroyed : hs.count (.called (.onDestroy p)) = 0 :=
    List.count_eq_zero.2 fun hmem => hquiet _ hmem
  have hcloses : c'.closes p = c.closes p := by
    simp [closes, hstack, htrace, hcall, hclosed, List.count_append]
  have hdestroys : c'.destroys p = c.destroys p := by
    simp [destroys, htrace, hdestroyed, List.count_append]
  refine ht.of_agree hcloses hdestroys (Nat.le_of_eq h.nextPtr.symm) (h.status p) fun f hf _ => ?_
  rw [hstack, List.mem_append]
  exact or_iff_right fun hfs => (hplain f hfs).1.neutral.not_frees hf

/-- **A step that closes no channel keeps the invariant.** -/
lemma ok (h : Grows c c') (hok : c.Ok) : c'.Ok := by
  obtain ⟨fs, hstack, hplain⟩ := h.stack
  obtain ⟨hs, htrace, hquiet⟩ := h.trace
  have hnew : ∀ p, .freed p ∉ hs := fun p hmem => hquiet _ hmem
  refine ⟨h.linked hok.linked, ?_, ?_, fun p => h.torn (hok.torn p), ?_⟩
  · rw [hstack, h.owns]
    exact hok.stack.push_list (fun f hf => (hplain f hf).2) fun f hf => (hplain f hf).1.neutral.not_frees
  · intro p hp
    rw [h.nextPtr, h.owns]
    exact hok.freed p (by simpa [htrace, hnew] using hp)
  · rw [UsesSoundly, htrace, Trace.always_append]
    refine ⟨hok.lawful, fun history e rest hsplit => ?_⟩
    have he := hquiet e (by simp [hsplit])
    have hpast : ∀ p, .freed p ∉ history := fun p hmem => hnew p (by simp [hsplit, hmem])
    cases e with
    | access p =>
      simp only [UseLaw, List.mem_append, not_or]
      exact ⟨fun hmem => (hok.freed p hmem).2 he, hpast p⟩
    | called cb => cases cb <;> first | exact trivial | exact he.elim
    | freed p => trivial
    | destroying => trivial

lemma calm (h : Grows c c') (hcalm : c.Calm) : c'.Calm := by
  obtain ⟨fs, hstack, hplain⟩ := h.stack
  intro p hmem
  rw [hstack] at hmem
  rcases List.mem_append.1 hmem with hmem | hmem
  · exact (hplain _ hmem).1
  · exact hcalm p hmem

lemma access (hp : c.Owns p) : Grows c (c.log (.access p)) :=
  ⟨id, rfl, fun _ => rfl, ⟨[], by simp [log]⟩, ⟨[.access p], rfl, by simpa [Happening.Plain] using hp⟩⟩

lemma modifyMux (h : Grows c c') {f : Mux → Mux} (hlinked : c'.mux.Linked → (f c'.mux).Linked)
    (hnext : (f c'.mux).nextPtr = c'.mux.nextPtr)
    (hstatus : ∀ p, ((f c'.mux).channel? p).map (fun ch => (ch.closed, ch.destroyed)) =
      c'.status p) : Grows c (c'.modifyMux f) :=
  h.trans ⟨hlinked, hnext, hstatus, ⟨[], by simp [Config.modifyMux]⟩, ⟨[], by simp [Config.modifyMux]⟩⟩

lemma modifyMux_of_eq (h : Grows c c') {f : Mux → Mux}
    (hchannels : (f c'.mux).channels = c'.mux.channels) (hnext : (f c'.mux).nextPtr = c'.mux.nextPtr)
    (hremote : (f c'.mux).remoteToChannel = c'.mux.remoteToChannel)
    (hlocal : (f c'.mux).localToChannel = c'.mux.localToChannel)
    (hpending : (f c'.mux).pendingRemote = c'.mux.pendingRemote) : Grows c (c'.modifyMux f) := by
  refine h.modifyMux (fun hl => ?_) hnext fun p => ?_
  · exact hl.congr hchannels hnext hremote hlocal fun k o ho => hl.pending k o (hpending ▸ ho)
  · rw [Config.status, Mux.channel?_congr hchannels]

lemma modifyChannel (h : Grows c c') {q : Ptr} {f : Channel → Channel}
    (hf : ∀ ch, (f ch).ptr = ch.ptr ∧ (f ch).localId = ch.localId ∧ (f ch).remoteId = ch.remoteId ∧
      (f ch).closed = ch.closed ∧ (f ch).destroyed = ch.destroyed ∧ (f ch).opened = ch.opened ∧
      (ch.openSent = true → (f ch).openSent = true)) : Grows c (c'.modifyChannel q f) := by
  refine h.modifyMux (fun hl => ?_) rfl fun p => ?_
  · refine hl.modifyChannel (fun ch => (hf ch).1) (fun ch => (hf ch).2.1) (fun ch => (hf ch).2.2.1)
      (fun ch hch _ hopened => ?_) fun ch hch _ hremote => ?_
    · obtain ⟨-, -, -, -, -, hopen, hsent⟩ := hf ch
      exact hsent (hl.opened ch hch (hopen ▸ hopened))
    · obtain ⟨-, -, -, -, hdestroyed, hopen, -⟩ := hf ch
      rw [hopen, hdestroyed]
      exact hl.remoteId ch hch hremote
  · rw [Mux.channel?_modify fun ch => (hf ch).1, Config.status]
    split_ifs
    · rw [Option.map_map]
      congr 1
      funext ch
      obtain ⟨-, -, -, hclosed, hdestroyed, -⟩ := hf ch
      simp [hclosed, hdestroyed]
    · rfl

lemma setSlots (h : Grows c c') (p : Ptr) (s : Slots) : Grows c (c'.setSlots p s) :=
  h.trans ⟨id, rfl, fun _ => rfl, ⟨[], by simp [Config.setSlots]⟩, ⟨[], by simp [Config.setSlots]⟩⟩

lemma push (h : Grows c c') {tasks : List Task}
    (htasks : ∀ t ∈ tasks, (CallFrame.task t).Plain ∧ ∀ p, t.channel? = some p → c.Owns p) :
    Grows c (c'.push tasks) := by
  refine h.trans ⟨id, rfl, fun _ => rfl, ⟨tasks.map .task, rfl, fun f hf => ?_⟩,
    ⟨[], by simp [Config.push]⟩⟩
  obtain ⟨t, ht, rfl⟩ := List.mem_map.1 hf
  rw [h.owns]
  exact htasks t ht

lemma enter (h : Grows c c') {cb : Callback} (hcb : (Happening.called cb).Plain c.Owns) :
    Grows c (c'.enter cb) := by
  refine h.trans ⟨id, rfl, fun _ => rfl, ⟨[.user cb], rfl, ?_⟩, ⟨[.called cb], rfl, ?_⟩⟩
  · simp [CallFrame.Plain, CallFrame.Neutral, CallFrame.channel?]
  · rw [h.owns]
    simpa using hcb

lemma enterIf (h : Grows c c') {cb : Callback} (hcb : (Happening.called cb).Plain c.Owns)
    (slot : Bool) : Grows c (c'.enterIf slot cb) := by
  rw [Config.enterIf]
  split_ifs
  · exact h.enter hcb
  · exact h

lemma writeFrame (h : Grows c c') (frame : List UInt8) : Grows c (c'.writeFrame frame) := by
  have hwrite : (Happening.called (.write frame)).Plain c.Owns := trivial
  refine (h.modifyMux_of_eq ?_ ?_ ?_ ?_ ?_).enterIf hwrite _
  all_goals
    simp only [Mux.writeFrame]
    split_ifs <;> rfl

lemma uncork (h : Grows c c') : Grows c c'.uncork := by
  have hwrite : (Happening.called (.write (Mux.batchFrame c'.mux.batch))).Plain c.Owns := trivial
  refine (h.modifyMux_of_eq ?_ ?_ ?_ ?_ ?_).enterIf hwrite _
  all_goals
    simp only [Mux.uncork]
    split_ifs <;> rfl

lemma withChannel (hp : c.Owns p) {f : Config → Channel → Config}
    (hf : ∀ ch, c.mux.channel? p = some ch → Grows (c.log (.access p)) (f (c.log (.access p)) ch)) :
    Grows c (c.withChannel p f) := by
  rw [Config.withChannel]
  split
  · exact access hp
  next ch hget => exact (access hp).trans (hf ch hget)

end Grows

lemma owns_of_channel? {ch : Channel} (h : c.mux.channel? p = some ch) : c.Owns p := by
  simp [Owns, status, h]

lemma owns_of_mem {ch : Channel} (h : ch ∈ c.mux.channels) : c.Owns ch.ptr := by
  rw [Owns, status, Option.isSome_map]
  exact Mux.isSome_channel? h

lemma tryPair_eq {ch : Channel} (hclosed : ch.opened = false) (hlive : ch.destroyed = false)
    (o : PendingOpen) : c.tryPair ch o = ((c.modifyMux (·.connect ch.ptr o)).push
      [.drainPending ch.ptr]).enterIf (c.slots ch.ptr).onOpen (.onOpen ch.ptr o.handshake) := by
  have hchannels : ((c.mux.modifyChannel ch.ptr ({ · with remoteId := o.remoteLocalId })).modifyChannel
      ch.ptr ({ · with opened := true })).channels = (c.mux.connect ch.ptr o).channels := by
    simp only [Mux.modifyChannel, Mux.connect, List.map_map]
    refine List.map_congr_left fun d _ => ?_
    simp only [Function.comp_apply]
    split_ifs <;> rfl
  have hmux : ((c.modifyChannel ch.ptr ({ · with remoteId := o.remoteLocalId })).modifyMux fun m =>
      { m with remoteToChannel :=
          Function.update m.remoteToChannel o.remoteLocalId (some ch.ptr) }).modifyChannel ch.ptr
        ({ · with opened := true }) = c.modifyMux (·.connect ch.ptr o) := by
    simp only [modifyChannel, modifyMux, Mux.modifyChannel, Mux.connect, Config.mk.injEq, Mux.mk.injEq,
      and_true]
    exact hchannels
  rw [tryPair]
  simp only [hclosed, hlive, Bool.false_eq_true, or_self, if_false, hmux]
  rfl

/-- **Pairing**: a channel that is not paired yet. -/
lemma grows_tryPair (hlinked : c.mux.Linked) {ch : Channel} (hget : c.mux.channel? ch.ptr = some ch)
    (hsent : ch.openSent = true) (hclosed : ch.opened = false) (hlive : ch.destroyed = false)
    {o : PendingOpen} (ho : o.remoteLocalId ≠ 0) : Grows c (c.tryPair ch o) := by
  have hfresh : ch.remoteId = 0 := by
    by_contra hne
    have hremote := hlinked.remoteId ch (Mux.mem_channels_of_channel? hget) hne
    simp [hclosed, hlive] at hremote
  have howns : c.Owns ch.ptr := owns_of_channel? hget
  have hlink : Grows c (c.modifyMux (·.connect ch.ptr o)) := by
    refine (Grows.refl c).modifyMux (fun hl => hl.connect hget hsent hfresh ho) rfl fun p => ?_
    have hstep : (c.mux.connect ch.ptr o).channel? p = if p = ch.ptr then
        (c.mux.channel? p).map (Mux.linked o.remoteLocalId) else c.mux.channel? p :=
      Mux.channel?_modify fun _ => rfl
    rw [hstep, status]
    split_ifs
    · rw [Option.map_map]
      rfl
    · rfl
  have hopen : (Happening.called (.onOpen ch.ptr o.handshake)).Plain c.Owns := trivial
  rw [tryPair_eq hclosed hlive]
  refine (hlink.push ?_).enterIf hopen _
  simpa [CallFrame.Plain, CallFrame.Neutral, Task.channel?] using howns

/-! ## The library goes on -/

lemma grows_dispatch (h : Grows c c') (ch : Channel) (type : UInt32) (data : List UInt8) :
    Grows c (c'.dispatch ch type data) := by
  have hmessage : (Happening.called (.onMessage ch.ptr type data)).Plain c.Owns := trivial
  exact h.enterIf hmessage _

lemma grows_dispatchNotify (h : Grows c c') (protocol id handshake : List UInt8) :
    Grows c (c'.dispatchNotify protocol id handshake) := by
  have hnotify : ∀ slot, (Happening.called (.notify slot protocol id handshake)).Plain c.Owns :=
    fun _ => trivial
  simp only [dispatchNotify]
  split_ifs
  · exact h.enter (hnotify _)
  · exact h.enter (hnotify _)
  · exact h.enterIf (hnotify _) _

lemma grows_receiveOpen (hlinked : c.mux.Linked) {o : PendingOpen} (ho : o.remoteLocalId ≠ 0) :
    Grows c (c.receiveOpen o) := by
  simp only [receiveOpen]
  split
  next ch hfind =>
    obtain ⟨hfound, hwaits⟩ := Option.filter_eq_some_iff.1 hfind
    have hmem : ch ∈ c.mux.channels := List.mem_of_find?_eq_some hfound
    have hlive := List.find?_some hfound
    simp only [Bool.and_eq_true, Bool.not_eq_true'] at hlive hwaits
    have hget := hlinked.channel? hmem
    have haccess := Grows.access (owns_of_channel? hget)
    exact haccess.trans (grows_tryPair (haccess.linked hlinked) hget hwaits.1 hwaits.2 hlive.1 ho)
  next =>
    refine grows_dispatchNotify ((Grows.refl c).modifyMux (fun hl => ?_) rfl fun _ => rfl) _ _ _
    refine hl.congr rfl rfl rfl rfl fun k o' ho' => ?_
    rcases eq_or_ne k (buildPairKey o.protocol o.id) with rfl | hk
    · simp only [Function.update_self, Option.some.injEq] at ho'
      exact ho' ▸ ho
    · simp only [Function.update_of_ne hk] at ho'
      exact hl.pending k o' ho'

lemma grows_handleData (hlinked : c.mux.Linked) (channelId : UInt32) (data : List UInt8) :
    Grows c (c.handleData channelId data) := by
  simp only [handleData]
  split
  · exact .refl c
  next p hp =>
    obtain ⟨-, ch, hget, -⟩ := hlinked.remote _ _ hp
    refine Grows.withChannel (owns_of_channel? hget) fun ch' _ => ?_
    split_ifs
    · exact .refl _
    · exact .refl _
    · refine Grows.modifyMux_of_eq (Grows.modifyChannel (.refl _) fun ch => ?_) rfl rfl rfl rfl rfl
      simp
    · exact grows_dispatch (.refl _) _ _ _

lemma grows_handle (hlinked : c.mux.Linked) (call : Call) : Grows c (c.handle call) := by
  have hremote : ∀ p, c.Owns p → Grows c (c.push [.remoteClose p]) := fun p hp =>
    (Grows.refl c).push (by simpa [CallFrame.Plain, CallFrame.Neutral, Task.channel?] using hp)
  cases call with
  | «open» data =>
    simp only [handle]
    split
    · exact .refl c
    next o ho => exact grows_receiveOpen hlinked (Mux.decodeOpen_ne_zero ho)
  | reject data =>
    simp only [handle]
    split
    · exact .refl c
    next p hp =>
      obtain ⟨l, -, hp⟩ := Option.bind_eq_some_iff.1 hp
      obtain ⟨ch, hget, -⟩ := hlinked.localId l p hp
      exact hremote p (owns_of_channel? hget)
  | close data =>
    simp only [handle]
    split
    · exact .refl c
    next p hp =>
      obtain ⟨r, -, hp⟩ := Option.bind_eq_some_iff.1 hp
      obtain ⟨-, ch, hget, -⟩ := hlinked.remote r p hp
      exact hremote p (owns_of_channel? hget)
  | data channelId data => exact grows_handleData hlinked channelId data

lemma grows_runMethod (m : Method) (hm : ∀ p, m.channel? = some p → c.Owns p)
    (hcreate : ∀ protocol aliases id unique, m ≠ .op (.createChannel protocol aliases id unique))
    (hopen : ∀ p handshake, m ≠ .op (.open p handshake)) (hclose : ∀ p, m ≠ .op (.close p)) :
    Grows c (c.runMethod m) := by
  cases m with
  | op op =>
    cases op with simp only [runMethod]
    | createChannel protocol aliases id unique => exact absurd rfl (hcreate _ _ _ _)
    | addMessage p handler =>
      refine Grows.withChannel (hm p rfl) fun ch _ => ?_
      exact Grows.modifyChannel (.refl _) fun ch => by simp
    | «open» p handshake => exact absurd rfl (hopen _ _)
    | send p messageType data =>
      refine Grows.withChannel (hm p rfl) fun ch _ => ?_
      split_ifs
      · exact .refl _
      · exact Grows.writeFrame (.refl _) _
    | close p => exact absurd rfl (hclose _)
    | cork => exact (Grows.refl c).modifyMux_of_eq rfl rfl rfl rfl rfl
    | uncork => exact (Grows.refl c).uncork
    | onData frame =>
      refine (Grows.refl c).push fun t ht => ?_
      obtain ⟨call, -, rfl⟩ := List.mem_map.1 ht
      simp [CallFrame.Plain, CallFrame.Neutral, Task.channel?]
    | pair protocol id => exact (Grows.refl c).modifyMux_of_eq rfl rfl rfl rfl rfl
    | unpair protocol id => exact (Grows.refl c).modifyMux_of_eq rfl rfl rfl rfl rfl
    | onNotify callback => exact (Grows.refl c).modifyMux_of_eq rfl rfl rfl rfl rfl
    | destroy =>
      split_ifs
      · exact .refl c
      · have hflag := (Grows.refl c).modifyMux_of_eq (f := ({ · with destroyed := true }))
          rfl rfl rfl rfl rfl
        have hbegin : Grows (c.modifyMux ({ · with destroyed := true }))
            ((c.modifyMux ({ · with destroyed := true })).log .destroying) :=
          ⟨id, rfl, fun _ => rfl, ⟨[], by simp [log]⟩, ⟨[.destroying], rfl, by simp [Happening.Plain]⟩⟩
        exact (hflag.trans hbegin).push (by simp [CallFrame.Plain, CallFrame.Neutral, Task.channel?])
  | channelCork p =>
    simp only [runMethod]
    refine Grows.withChannel (hm p rfl) fun ch _ => ?_
    exact Grows.modifyMux_of_eq (.refl _) rfl rfl rfl rfl rfl
  | channelUncork p =>
    simp only [runMethod]
    refine Grows.withChannel (hm p rfl) fun ch _ => ?_
    exact Grows.push (.refl _) (by simp [CallFrame.Plain, CallFrame.Neutral, Task.channel?, Method.channel?])
  | onStreamDrain =>
    refine (Grows.refl c).push fun t ht => ?_
    obtain ⟨ch, hch, rfl⟩ := List.mem_map.1 ht
    simpa [CallFrame.Plain, CallFrame.Neutral, Task.channel?] using owns_of_mem hch
  | forEachChannel =>
    refine (Grows.refl c).push fun t ht => ?_
    obtain ⟨ch, hch, rfl⟩ := List.mem_map.1 ht
    simpa [CallFrame.Plain, CallFrame.Neutral, Task.channel?] using owns_of_mem (List.mem_filter.1 hch).1
  | setCallbacks p slots =>
    simp only [runMethod]
    refine Grows.withChannel (hm p rfl) fun ch _ => ?_
    exact Grows.setSlots (.refl _) p slots

lemma grows_runTask (hlinked : c.mux.Linked) {t : Task} (hplain : (CallFrame.task t).Plain)
    (hmethod : ∀ m, t ≠ .method m) (hclose : ∀ p, t ≠ .remoteClose p)
    (ht : ∀ p, t.channel? = some p → c.Owns p) : Grows c (c.runTask t) := by
  cases t with
  | method m => exact absurd rfl (hmethod m)
  | handle call => exact grows_handle hlinked call
  | openPending p => exact hplain.elim
  | drainPending p =>
    simp only [runTask]
    refine Grows.withChannel (ht p rfl) fun ch hget => ?_
    have howns : (c.log (.access p)).Owns p := owns_of_channel? hget
    refine Grows.push (Grows.modifyChannel (.refl _) fun ch => by simp) fun t hmem => ?_
    obtain ⟨pm, -, rfl⟩ := List.mem_map.1 hmem
    simpa [CallFrame.Plain, CallFrame.Neutral, Task.channel?] using howns
  | drainOne p pm =>
    simp only [runTask]
    refine Grows.withChannel (ht p rfl) fun ch _ => ?_
    split_ifs
    · exact Grows.modifyMux_of_eq (.refl _) rfl rfl rfl rfl rfl
    · exact grows_dispatch (Grows.modifyMux_of_eq (.refl _) rfl rfl rfl rfl rfl) _ _ _
  | closing p => exact hplain.elim
  | remoteClose p => exact absurd rfl (hclose p)
  | channelDestroy p => exact hplain.elim
  | removeChannel p => exact hplain.elim
  | callOnClose p => exact hplain.elim
  | drain p =>
    simp only [runTask]
    refine Grows.withChannel (ht p rfl) fun ch _ => ?_
    have hdrain : (Happening.called (.onDrain p)).Plain (c.log (.access p)).Owns := trivial
    exact Grows.enterIf (.refl _) hdrain _
  | forEach p =>
    have hcall : (Happening.called (.forEach p)).Plain c.Owns := trivial
    exact (Grows.access (ht p rfl)).enter hcall
  | destroyLoop =>
    simp only [runTask]
    split
    · exact (Grows.refl c).modifyMux_of_eq rfl rfl rfl rfl rfl
    next ch hfind =>
      refine (Grows.refl c).push ?_
      simpa [CallFrame.Plain, CallFrame.Neutral, Task.channel?] using
        owns_of_mem (List.mem_of_find?_eq_some hfind)

/-! ## The teardown of a channel -/

lemma status_modifyChannel {q : Ptr} {f : Channel → Channel} (hf : ∀ ch, (f ch).ptr = ch.ptr) :
    (c.modifyChannel q f).status p = if p = q then
      (c.mux.channel? p).map (fun ch => ((f ch).closed, (f ch).destroyed)) else c.status p := by
  rw [status, modifyChannel, modifyMux, Mux.channel?_modify hf]
  split_ifs
  · rw [Option.map_map]
    rfl
  · rfl

lemma owns_modifyChannel {q : Ptr} {f : Channel → Channel} (hf : ∀ ch, (f ch).ptr = ch.ptr) :
    (c.modifyChannel q f).Owns = c.Owns := by
  funext p
  rw [Owns, Owns, status_modifyChannel hf]
  split_ifs <;> simp [status]

lemma Torn.of_closed (hlt : p < c.mux.nextPtr) (hstatus : c.status p = some (true, false))
    (hcloses : c.closes p ≤ 1) (hdestroys : c.destroys p = 0)
    (hbusy : ∃ f ∈ c.stack, f.Frees ∧ f.channel? = some p)
    (hclosing : .task (.closing p) ∈ c.stack → c.closes p = 0) : c.Torn p where
  closes_le := hcloses
  destroys_le := by omega
  new hle := absurd hlt (Nat.not_lt.2 hle)
  idle d hd := by simp [hstatus] at hd
  alive _ _ := hdestroys
  busy _ := hbusy
  closing hmem := ⟨hstatus, hclosing hmem⟩
  dying _ := hstatus

lemma Torn.of_gone (hlt : p < c.mux.nextPtr) (hstatus : ∀ s, c.status p = some s → s = (true, true))
    (hcloses : c.closes p ≤ 1) (hdestroys : c.destroys p ≤ 1)
    (hclosing : .task (.closing p) ∉ c.stack) (hdying : .task (.channelDestroy p) ∉ c.stack) :
    c.Torn p where
  closes_le := hcloses
  destroys_le := hdestroys
  new hle := absurd hlt (Nat.not_lt.2 hle)
  idle d hd := by simpa using hstatus _ hd
  alive b hb := by simpa using hstatus _ hb
  busy hb := by simpa using hstatus _ hb
  closing hmem := absurd hmem hclosing
  dying hmem := absurd hmem hdying

namespace Ok

lemma of_stack (h : c.Ok) {stack : List CallFrame}
    (hsound : Lifetimes.Sound CallFrame.channel? CallFrame.Frees c.Owns stack)
    (hcount : ∀ p, stack.countP (·.callsOnClose p) = c.stack.countP (·.callsOnClose p))
    (hmem : ∀ f : CallFrame, f.Frees → (f ∈ stack ↔ f ∈ c.stack)) : Ok { c with stack := stack } where
  linked := h.linked
  stack := hsound
  freed := h.freed
  torn p := by
    have hcloses : closes { c with stack := stack } p = c.closes p := by simp [closes, hcount]
    exact (h.torn p).of_agree hcloses rfl (Nat.le_refl _) rfl fun f hf _ => hmem f hf
  lawful := h.lawful

lemma pop (h : c.Ok) {f : CallFrame} {rest : List CallFrame} (hstack : c.stack = f :: rest)
    (hf : f.Neutral) : Ok { c with stack := rest } := by
  refine h.of_stack (hstack ▸ h.stack).pop (fun p => ?_) fun g hg => ?_
  · rw [hstack, List.countP_cons, hf.not_callsOnClose]
    simp
  · rw [hstack, List.mem_cons]
    exact (or_iff_right fun hgf : g = f => hf.not_frees (hgf ▸ hg)).symm

lemma push_task (h : c.Ok) {t : Task} (hf : (CallFrame.task t).Neutral)
    (ht : ∀ p, t.channel? = some p → c.Owns p) : (c.push [t]).Ok := by
  refine h.of_stack (h.stack.push ht fun hfrees => absurd hfrees hf.not_frees) (fun p => ?_)
    fun g hg => ?_
  · simp [hf.not_callsOnClose]
  · exact List.mem_cons.trans (or_iff_right fun hgf : g = .task t => hf.not_frees (hgf ▸ hg))

lemma createChannel (h : c.Ok) (protocol : Bytes) (aliases : List Bytes) (id : Bytes)
    (unique : Bool) : (c.modifyMux fun m => (m.createChannel protocol aliases id unique).1).Ok := by
  have hlinked := h.linked.createChannel protocol aliases id unique
  rcases Mux.createChannel_cases c.mux protocol aliases id unique with
    hsame | ⟨ch, hptr, hopen, hlive, hnext, hchannels⟩
  · have heq : (c.modifyMux fun m => (m.createChannel protocol aliases id unique).1) = c := by
      simp only [modifyMux, hsame]
    rw [heq]
    exact h
  · have hnone : c.status c.mux.nextPtr = none := by
      rw [status, Option.map_eq_none_iff]
      refine List.find?_eq_none.2 fun d hd => ?_
      simpa using Nat.ne_of_lt (h.linked.ptr_lt d hd)
    generalize hmux : (c.mux.createChannel protocol aliases id unique).1 = m at *
    have hc' : (c.modifyMux fun m => (m.createChannel protocol aliases id unique).1) =
        { c with mux := m } := by rw [modifyMux, hmux]
    have hstatus : ∀ p, p ≠ c.mux.nextPtr → status { c with mux := m } p = c.status p := by
      intro p hp
      have hne : ¬ ch.ptr = p := fun heq => hp (heq.symm.trans hptr)
      simp [status, Mux.channel?, hchannels, List.find?_append, hne]
    have hfresh : status { c with mux := m } c.mux.nextPtr = some (false, false) := by
      rw [status, Option.map_eq_none_iff, Mux.channel?] at hnone
      simp [status, Mux.channel?, hchannels, List.find?_append, hnone, hptr, hopen, hlive]
    have howns : ∀ p, c.Owns p → Owns { c with mux := m } p := by
      intro p hp
      by_cases hp' : p = c.mux.nextPtr
      · simp [Owns, hp', hfresh]
      · rwa [Owns, hstatus p hp']
    rw [hc']
    refine ⟨hlinked, h.stack.mono howns, fun p hp => ?_, fun p => ?_, h.lawful⟩
    · obtain ⟨hlt, hgone⟩ := h.freed p hp
      refine ⟨by rw [hnext]; exact Nat.lt_succ_of_lt hlt, ?_⟩
      rw [Owns, hstatus p (Nat.ne_of_lt hlt)]
      exact hgone
    · by_cases hp : p = c.mux.nextPtr
      · -- nothing was called for the new channel, and no frame sees to it
        subst hp
        obtain ⟨hcloses, hdestroys⟩ := (h.torn c.mux.nextPtr).new (Nat.le_refl _)
        have hcloses' : closes { c with mux := m } c.mux.nextPtr = 0 := hcloses
        have hdestroys' : destroys { c with mux := m } c.mux.nextPtr = 0 := hdestroys
        refine ⟨by omega, by omega, fun _ => ⟨hcloses', hdestroys'⟩, fun d hd => ?_,
          fun _ _ => hdestroys', fun hbusy => ?_, fun hmem => ?_, fun hmem => ?_⟩
        · rw [hfresh] at hd
          simp only [Option.some.injEq, Prod.mk.injEq, true_and] at hd
          exact ⟨hd.symm, hcloses'⟩
        · simp [hfresh] at hbusy
        · have hclosing := ((h.torn c.mux.nextPtr).closing hmem).1
          simp [hnone] at hclosing
        · have hdying := (h.torn c.mux.nextPtr).dying hmem
          simp [hnone] at hdying
      · have hle : c.mux.nextPtr ≤ m.nextPtr := by
          rw [hnext]
          exact Nat.le_succ _
        exact (h.torn p).of_agree rfl rfl hle (hstatus p hp) fun f _ _ => Iff.rfl

/-- **The teardown of one channel goes on**: the frames on top of the stack and what happens are about
that channel. -/
lemma of_torn (h : c.Ok) (old new : List CallFrame) {rest : List CallFrame} (hs : List Happening)
    (hlinked : c'.mux.Linked) (hnext : c'.mux.nextPtr = c.mux.nextPtr)
    (hstatus : ∀ q, q ≠ p → c'.status q = c.status q)
    (hold : c.stack = old ++ rest) (hnew : c'.stack = new ++ rest)
    (htrace : c'.trace = c.trace ++ hs) (hframes : ∀ f ∈ old ++ new, f.About p)
    (hhappens : ∀ e ∈ hs, e.About p)
    (hsound : Lifetimes.Sound CallFrame.channel? CallFrame.Frees c'.Owns c'.stack)
    (hfreed : ∀ q, .freed q ∈ c'.trace → q < c.mux.nextPtr ∧ ¬ c'.Owns q)
    (hlawful : c'.UsesSoundly) (htorn : c'.Torn p) : c'.Ok where
  linked := hlinked
  stack := hsound
  freed q hq := by
    rw [hnext]
    exact hfreed q hq
  torn q := by
    by_cases hq : q = p
    · exact hq ▸ htorn
    have hcount : ∀ fs : List CallFrame, (∀ f ∈ fs, f ∈ old ++ new) →
        fs.countP (·.callsOnClose q) = 0 := fun fs hfs =>
      List.countP_eq_zero.2 fun f hf hcalls => hq ((hframes f (hfs f hf)).1 q hcalls)
    have hoff : ∀ e : Happening, e = .called (.onClose q) ∨ e = .called (.onDestroy q) →
        hs.count e = 0 := fun e he =>
      List.count_eq_zero.2 fun hmem => hq (hhappens e hmem q he)
    refine (h.torn q).of_agree ?_ ?_ (Nat.le_of_eq hnext.symm) (hstatus q hq) fun f hf hp => ?_
    · rw [closes, closes, htrace, hnew, hold, List.count_append, List.countP_append,
        List.countP_append, hoff _ (.inl rfl), hcount new fun f hf => List.mem_append_right _ hf,
        hcount old fun f hf => List.mem_append_left _ hf]
      omega
    · rw [destroys, destroys, htrace, List.count_append, hoff _ (.inr rfl), Nat.add_zero]
    · have hout : ∀ fs : List CallFrame, (∀ f ∈ fs, f ∈ old ++ new) → f ∉ fs := fun fs hfs hmem =>
        hq (Option.some.inj (hp.symm.trans ((hframes f (hfs f hmem)).2 hf)))
      rw [hnew, hold, List.mem_append, List.mem_append,
        or_iff_right (hout new fun f hf => List.mem_append_right _ hf),
        or_iff_right (hout old fun f hf => List.mem_append_left _ hf)]
  lawful := hlawful

lemma access_law (h : c.Ok) (hp : c.Owns p) : UseLaw c.trace (.access p) :=
  fun hmem => (h.freed p hmem).2 hp

lemma lt_nextPtr (h : c.Ok) {ch : Channel} (hget : c.mux.channel? p = some ch) :
    p < c.mux.nextPtr := by
  have hlt := h.linked.ptr_lt ch (Mux.mem_channels_of_channel? hget)
  rwa [Mux.ptr_of_channel? hget] at hlt

/-- **A channel begins to close**, and no other call in progress comes back to it. -/
lemma startClose (h : c.Ok) {ch : Channel} (hget : c.mux.channel? p = some ch)
    (hopen : ch.closed = false) (hspare : ∀ f ∈ c.stack, f.channel? ≠ some p) :
    ((c.modifyChannel p ({ · with closed := true })).push [.closing p]).Ok := by
  obtain ⟨hlive, hcloses⟩ := (h.torn p).idle ch.destroyed (by simp [status, hget, hopen])
  have hdestroys := (h.torn p).alive false (by simp [status, hget, hopen, hlive])
  have hptr : ∀ ch : Channel, ({ ch with closed := true } : Channel).ptr = ch.ptr := fun _ => rfl
  have howns : ((c.modifyChannel p ({ · with closed := true })).push [.closing p]).Owns = c.Owns :=
    owns_modifyChannel hptr
  have hstatus : ∀ q, ((c.modifyChannel p ({ · with closed := true })).push [.closing p]).status q =
      if q = p then some (true, false) else c.status q := by
    intro q
    refine (status_modifyChannel hptr).trans ?_
    split_ifs with hq
    · simp [hq, hget, hlive]
    · rfl
  refine h.of_torn [] [.task (.closing p)] [] h.linked.close rfl
    (fun q hq => (hstatus q).trans (if_neg hq)) rfl rfl (List.append_nil _).symm
    (by simp) (by simp) ?_ ?_ h.lawful ?_
  · rw [howns]
    exact h.stack.push (fun q hq => Option.some.inj hq ▸ owns_of_channel? hget)
      fun _ q hq f hf => Option.some.inj hq ▸ hspare f hf
  · rw [howns]
    exact h.freed
  · have hzero : ((c.modifyChannel p ({ · with closed := true })).push [.closing p]).closes p = 0 := by
      rw [← hcloses, closes, closes]
      exact congrArg _ (List.countP_cons_of_neg (by simp))
    exact .of_closed (h.lt_nextPtr hget) ((hstatus p).trans (if_pos rfl)) (by omega) hdestroys
      ⟨.task (.closing p), List.mem_cons_self .., trivial, rfl⟩ fun _ => hzero

lemma not_mem_rest (h : c.Ok) {f g : CallFrame} {rest : List CallFrame} (hstack : c.stack = f :: rest)
    (hf : f.Frees) (hp : f.channel? = some p) (hg : g.channel? = some p) : g ∉ rest := by
  intro hmem
  have hsound := h.stack
  rw [hstack] at hsound
  exact hsound.ne_of_mem hf hp hmem hg

lemma enterOnClose (h : c.Ok) (hstatus : c.status p = some (true, false)) (hcloses : c.closes p = 0)
    (hclosing : .task (.closing p) ∉ c.stack) : (c.enter (.onClose p)).Ok := by
  obtain ⟨ch, hget, -⟩ := Option.map_eq_some_iff.1 hstatus
  obtain ⟨htrace, hstack⟩ := Nat.add_eq_zero_iff.1 hcloses
  refine h.of_torn (p := p) [] [.user (.onClose p)] [.called (.onClose p)] h.linked rfl
    (fun _ _ => rfl) rfl rfl rfl (by simp) (by simp [Happening.About]) ?_ ?_ ?_ ?_
  · exact h.stack.push (by simp [CallFrame.channel?]) fun hf => hf.elim
  · exact fun q hq => h.freed q (by simpa [enter] using hq)
  · exact Trace.always_concat.2 ⟨h.lawful, List.count_eq_zero.1 htrace⟩
  · have hone : (c.enter (.onClose p)).closes p ≤ 1 := by
      simp [closes, enter, List.count_append, htrace, hstack]
    have hnone : (c.enter (.onClose p)).destroys p = 0 := by
      simpa [destroys, enter, List.count_append] using (h.torn p).alive true hstatus
    obtain ⟨f, hf, hfrees⟩ := (h.torn p).busy hstatus
    exact .of_closed (h.lt_nextPtr hget) hstatus hone hnone ⟨f, List.mem_cons_of_mem _ hf, hfrees⟩
      fun hmem => absurd (by simpa [enter] using hmem) hclosing

/-- **`Channel::close` goes on**: `on_close` is called, and `destroy` comes next. -/
lemma closing (h : c.Ok) {rest : List CallFrame} (hstack : c.stack = .task (.closing p) :: rest) :
    (runTask { c with stack := rest } (.closing p)).Ok := by
  obtain ⟨hstatus, hcloses⟩ := (h.torn p).closing (by simp [hstack])
  have hdestroys := (h.torn p).alive true hstatus
  obtain ⟨ch, hget, -⟩ := Option.map_eq_some_iff.1 hstatus
  have hsound := h.stack
  rw [hstack] at hsound
  have hbecome : Lifetimes.Sound CallFrame.channel? CallFrame.Frees c.Owns
      (.task (.channelDestroy p) :: rest) := hsound.become trivial rfl rfl
  have hdone : .task (.closing p) ∉ rest := h.not_mem_rest hstack trivial rfl rfl
  -- `destroy` takes the place of the frame
  generalize hnext : (({ c with stack := rest }.log (.access p)).setSlots p
    { c.slots p with onClose := false }).push [.channelDestroy p] = c₁
  have hcloses₁ : c₁.closes p = 0 := by
    simp only [closes, hstack, Nat.add_eq_zero_iff, List.countP_cons] at hcloses
    subst hnext
    simp [closes, Config.push, Config.setSlots, log, List.count_append, hcloses]
  have hstack₁ : c₁.stack = .task (.channelDestroy p) :: rest := by subst hnext; rfl
  have hok : c₁.Ok := by
    subst hnext
    refine h.of_torn (p := p) [.task (.closing p)] [.task (.channelDestroy p)] [.access p] h.linked rfl
      (fun _ _ => rfl) hstack rfl rfl (by simp) (by simp [Happening.About]) hbecome ?_ ?_ ?_
    · exact fun q hq => h.freed q (by simpa [Config.push, Config.setSlots, log] using hq)
    · exact Trace.always_concat.2 ⟨h.lawful, h.access_law (owns_of_channel? hget)⟩
    · refine .of_closed (h.lt_nextPtr hget) hstatus (by omega) ?_
        ⟨.task (.channelDestroy p), List.mem_cons_self .., trivial, rfl⟩ fun _ => hcloses₁
      simpa [destroys, Config.push, Config.setSlots, log, List.count_append] using hdestroys
  have hdone₁ : .task (.closing p) ∉ c₁.stack := by simp [hstack₁, hdone]
  have hstatus₁ : c₁.status p = some (true, false) := by subst hnext; exact hstatus
  have hrun : runTask { c with stack := rest } (.closing p) =
      c₁.enterIf (c.slots p).onClose (.onClose p) := by
    subst hnext
    simp only [runTask, withChannel, hget]
    rfl
  rw [hrun, enterIf]
  split_ifs
  · exact hok.enterOnClose hstatus₁ hcloses₁ hdone₁
  · exact hok

/-- **`Channel::remote_close`**: `on_close` is moved out, and `destroy` comes next. -/
lemma remoteClose (h : c.Ok) {ch : Channel} (hget : c.mux.channel? p = some ch)
    (hlive : ch.destroyed = false) (hspare : ∀ f ∈ c.stack, f.channel? ≠ some p) :
    (runTask c (.remoteClose p)).Ok := by
  have hopen : ch.closed = false := by
    by_contra hne
    have hclosed : ch.closed = true := by simpa using hne
    have hstatus : c.status p = some (true, false) := by simp [status, hget, hlive, hclosed]
    obtain ⟨f, hf, -, hp⟩ := (h.torn p).busy hstatus
    exact hspare f hf hp
  obtain ⟨-, hcloses⟩ := (h.torn p).idle ch.destroyed (by simp [status, hget, hopen])
  have hdestroys := (h.torn p).alive false (by simp [status, hget, hopen, hlive])
  obtain ⟨htrace, hcalls⟩ := Nat.add_eq_zero_iff.1 hcloses
  have hptr : ∀ ch : Channel, ({ ch with closed := true } : Channel).ptr = ch.ptr := fun _ => rfl
  have hrun : runTask c (.remoteClose p) =
      ((((c.log (.access p)).modifyChannel p ({ · with closed := true })).setSlots p
        { c.slots p with onClose := false }).push
        (.channelDestroy p :: if (c.slots p).onClose then [.callOnClose p] else [])) := by
    simp only [runTask, withChannel, hget, hlive, Bool.false_eq_true, if_false]
    rfl
  generalize hc' : runTask c (.remoteClose p) = c' at *
  have hcalled : ∀ f ∈ (if (c.slots p).onClose then [Task.callOnClose p] else []).map CallFrame.task,
      f = .task (.callOnClose p) := by
    intro f hf
    obtain ⟨t, ht, rfl⟩ := List.mem_map.1 hf
    split_ifs at ht
    · rw [List.mem_singleton.1 ht]
    · cases ht
  have hstatus : ∀ q, c'.status q = if q = p then some (true, false) else c.status q := by
    intro q
    rw [hrun]
    refine (status_modifyChannel hptr).trans ?_
    split_ifs with hq
    · simp [hq, log, hget, hlive]
    · rfl
  have howns : c'.Owns = c.Owns := by
    rw [hrun]
    exact owns_modifyChannel (c := c.log (.access p)) hptr
  have hstack : c'.stack = (CallFrame.task (.channelDestroy p) ::
      (if (c.slots p).onClose then [Task.callOnClose p] else []).map .task) ++ c.stack := by
    rw [hrun]
    rfl
  have hgrown : c'.trace = c.trace ++ [.access p] := by rw [hrun]; rfl
  have hmux : c'.mux = c.mux.modifyChannel p ({ · with closed := true }) := by rw [hrun]; rfl
  have hbelow : Lifetimes.Sound CallFrame.channel? CallFrame.Frees c.Owns
      ((if (c.slots p).onClose then [Task.callOnClose p] else []).map CallFrame.task ++ c.stack) := by
    refine h.stack.push_list (fun f hf q hq => ?_) fun f hf hfrees => ?_
    · rw [hcalled f hf] at hq
      cases hq
    · rw [hcalled f hf] at hfrees
      exact hfrees.elim
  have hnone : ∀ g ∈ (if (c.slots p).onClose then [Task.callOnClose p] else []).map CallFrame.task ++
      c.stack, g.channel? ≠ some p := by
    intro g hg
    rcases List.mem_append.1 hg with hg | hg
    · rw [hcalled g hg]
      exact fun heq => by cases heq
    · exact hspare g hg
  refine h.of_torn (p := p) [] (CallFrame.task (.channelDestroy p) ::
      (if (c.slots p).onClose then [Task.callOnClose p] else []).map .task) [.access p]
    (hmux ▸ h.linked.close) (by rw [hmux]; rfl) (fun q hq => (hstatus q).trans (if_neg hq)) rfl hstack
    hgrown ?_ (by simp [Happening.About]) ?_ ?_ ?_ ?_
  · intro f hf
    rcases List.mem_cons.1 hf with rfl | hf
    · exact CallFrame.about_channelDestroy
    · rw [hcalled f hf]
      exact CallFrame.about_callOnClose
  · rw [hstack, howns]
    exact hbelow.push (fun q hq => Option.some.inj hq ▸ owns_of_channel? hget)
      fun _ q hq f hf => Option.some.inj hq ▸ hnone f hf
  · rw [howns]
    exact fun q hq => h.freed q (by simpa [hgrown] using hq)
  · rw [UsesSoundly, hgrown]
    exact Trace.always_concat.2 ⟨h.lawful, h.access_law (owns_of_channel? hget)⟩
  · have hone : c'.closes p ≤ 1 := by
      rw [closes, hgrown, hstack]
      split_ifs <;> simp [List.count_append, htrace, hcalls]
    have hzero : c'.destroys p = 0 := by
      simpa [destroys, hgrown, List.count_append] using hdestroys
    refine .of_closed (by rw [hmux]; exact h.lt_nextPtr hget) ((hstatus p).trans (if_pos rfl)) hone hzero
      ⟨.task (.channelDestroy p), by simp [hstack], trivial, rfl⟩ fun hmem => ?_
    rw [hstack, List.cons_append, List.mem_cons] at hmem
    exact absurd rfl (hnone _ (hmem.resolve_left (by simp)))

lemma enterOnDestroy (h : c.Ok) (hstatus : c.status p = some (true, true)) (hdestroys : c.destroys p = 0)
    (hclosing : .task (.closing p) ∉ c.stack) (hdying : .task (.channelDestroy p) ∉ c.stack) :
    (c.enter (.onDestroy p)).Ok := by
  obtain ⟨ch, hget, -⟩ := Option.map_eq_some_iff.1 hstatus
  refine h.of_torn (p := p) [] [.user (.onDestroy p)] [.called (.onDestroy p)] h.linked rfl
    (fun _ _ => rfl) rfl rfl rfl (by simp) (by simp [Happening.About]) ?_ ?_ ?_ ?_
  · exact h.stack.push (by simp [CallFrame.channel?]) fun hf => hf.elim
  · exact fun q hq => h.freed q (by simpa [enter] using hq)
  · exact Trace.always_concat.2 ⟨h.lawful, List.count_eq_zero.1 hdestroys⟩
  · have hcloses : (c.enter (.onDestroy p)).closes p = c.closes p := by
      simp [closes, enter, List.count_append]
    have hone : (c.enter (.onDestroy p)).destroys p ≤ 1 := by
      have hcount : c.trace.count (.called (.onDestroy p)) = 0 := hdestroys
      simp [destroys, enter, List.count_append, hcount]
    refine .of_gone (h.lt_nextPtr hget) (fun s hs => Option.some.inj (hs.symm.trans hstatus))
      (hcloses ▸ (h.torn p).closes_le) hone ?_ ?_
    · simpa [enter] using hclosing
    · simpa [enter] using hdying

/-- **`Channel::destroy`**: `on_destroy` is called, and the channel is removed next. -/
lemma channelDestroy (h : c.Ok) {rest : List CallFrame}
    (hstack : c.stack = .task (.channelDestroy p) :: rest) :
    (runTask { c with stack := rest } (.channelDestroy p)).Ok := by
  have hstatus := (h.torn p).dying (by simp [hstack])
  have hdestroys := (h.torn p).alive true hstatus
  obtain ⟨ch, hget, hflags⟩ := Option.map_eq_some_iff.1 hstatus
  obtain ⟨hclosed, hlive⟩ := Prod.mk.inj hflags
  have hsound := h.stack
  rw [hstack] at hsound
  have hbecome : Lifetimes.Sound CallFrame.channel? CallFrame.Frees c.Owns
      (.task (.removeChannel p) :: rest) := hsound.become trivial rfl rfl
  have hptr : ∀ ch : Channel, ({ ch with destroyed := true, opened := false } : Channel).ptr = ch.ptr :=
    fun _ => rfl
  have hrun : runTask { c with stack := rest } (.channelDestroy p) =
      (((({ c with stack := rest }.log (.access p)).modifyChannel p
        ({ · with destroyed := true, opened := false })).setSlots p
        { c.slots p with onDestroy := false }).push [.removeChannel p]).enterIf
        (c.slots p).onDestroy (.onDestroy p) := by
    simp only [runTask, withChannel, hget, hlive, Bool.false_eq_true, if_false]
    rfl
  -- `remove_channel` takes the place of the frame
  generalize hnext : ((({ c with stack := rest }.log (.access p)).modifyChannel p
    ({ · with destroyed := true, opened := false })).setSlots p
    { c.slots p with onDestroy := false }).push [.removeChannel p] = c₁ at hrun
  have hstack₁ : c₁.stack = .task (.removeChannel p) :: rest := by subst hnext; rfl
  have htrace₁ : c₁.trace = c.trace ++ [.access p] := by subst hnext; rfl
  have hmux₁ : c₁.mux = c.mux.modifyChannel p ({ · with destroyed := true, opened := false }) := by
    subst hnext; rfl
  have hstatus₁ : ∀ q, c₁.status q = if q = p then some (true, true) else c.status q := by
    intro q
    subst hnext
    refine (status_modifyChannel hptr).trans ?_
    split_ifs with hq
    · simp [hq, log, hget, hclosed]
    · rfl
  have howns : c₁.Owns = c.Owns := by
    subst hnext
    exact owns_modifyChannel (c := { c with stack := rest }.log (.access p)) hptr
  have hclosing : .task (.closing p) ∉ c₁.stack := by
    rw [hstack₁, List.mem_cons, not_or]
    exact ⟨by simp, h.not_mem_rest hstack trivial rfl rfl⟩
  have hdying : .task (.channelDestroy p) ∉ c₁.stack := by
    rw [hstack₁, List.mem_cons, not_or]
    exact ⟨by simp, h.not_mem_rest hstack trivial rfl rfl⟩
  have hdestroys₁ : c₁.destroys p = 0 := by
    simpa [destroys, htrace₁, List.count_append] using hdestroys
  have hok : c₁.Ok := by
    refine h.of_torn (p := p) [.task (.channelDestroy p)] [.task (.removeChannel p)] [.access p]
      (hmux₁ ▸ h.linked.destroy) (by rw [hmux₁]; rfl) (fun q hq => (hstatus₁ q).trans (if_neg hq))
      hstack hstack₁ htrace₁ (by simp) (by simp [Happening.About]) ?_ ?_ ?_ ?_
    · rw [hstack₁, howns]
      exact hbecome
    · rw [howns]
      exact fun q hq => h.freed q (by simpa [htrace₁] using hq)
    · rw [UsesSoundly, htrace₁]
      exact Trace.always_concat.2 ⟨h.lawful, h.access_law (owns_of_channel? hget)⟩
    · have hcloses : c₁.closes p = c.closes p := by
        simp [closes, hstack₁, htrace₁, hstack, List.count_append]
      refine .of_gone (by rw [hmux₁]; exact h.lt_nextPtr hget) (fun s hs => ?_)
        (hcloses ▸ (h.torn p).closes_le) (by omega) hclosing hdying
      rw [hstatus₁, if_pos rfl] at hs
      exact (Option.some.inj hs).symm
  rw [hrun, enterIf]
  split_ifs
  · exact hok.enterOnDestroy ((hstatus₁ p).trans (if_pos rfl)) hdestroys₁ hclosing hdying
  · exact hok

/-- **A channel is freed**: no call in progress comes back to it. -/
lemma removeChannel (h : c.Ok) {rest : List CallFrame}
    (hstack : c.stack = .task (.removeChannel p) :: rest) :
    (runTask { c with stack := rest } (.removeChannel p)).Ok := by
  have howned : c.Owns p := h.stack.live (.task (.removeChannel p)) (by simp [hstack]) p rfl
  obtain ⟨s, hs⟩ := Option.isSome_iff_exists.1 howned
  obtain ⟨ch, hget, -⟩ := Option.map_eq_some_iff.1 hs
  have hsound := h.stack
  rw [hstack] at hsound
  have hrun : runTask { c with stack := rest } (.removeChannel p) =
      { c with
        mux := c.mux.removeChannel p, stack := rest, trace := c.trace ++ [.access p, .freed p] } := by
    simp only [runTask, withChannel, hget, log, modifyMux, List.append_assoc]
    rfl
  have hnext : (c.mux.removeChannel p).nextPtr = c.mux.nextPtr := by
    simp only [Mux.removeChannel]
    split <;> rfl
  rw [hrun]
  generalize hc' : ({ c with
    mux := c.mux.removeChannel p, stack := rest, trace := c.trace ++ [.access p, .freed p] } : Config) = c'
  have hstack' : c'.stack = rest := by subst hc'; rfl
  have htrace' : c'.trace = c.trace ++ [.access p, .freed p] := by subst hc'; rfl
  have hmux' : c'.mux = c.mux.removeChannel p := by subst hc'; rfl
  have hstatus' : ∀ q, c'.status q = if q = p then none else c.status q := by
    intro q
    rw [status, hmux', Mux.channel?_removeChannel]
    split_ifs <;> rfl
  have howns' : c'.Owns = fun q => c.Owns q ∧ q ≠ p := by
    funext q
    rw [Owns, hstatus', Owns]
    split_ifs with hq <;> simp [hq]
  refine h.of_torn (p := p) [.task (.removeChannel p)] [] [.access p, .freed p]
    (hmux' ▸ h.linked.removeChannel p) (hmux' ▸ hnext) (fun q hq => (hstatus' q).trans (if_neg hq))
    hstack hstack' htrace' (by simp) (by simp [Happening.About]) ?_ ?_ ?_ ?_
  · rw [hstack', howns']
    exact hsound.free trivial rfl
  · intro q hq
    rw [howns']
    have hcases : .freed q ∈ c.trace ∨ q = p := by simpa [htrace'] using hq
    rcases hcases with hq | rfl
    · obtain ⟨hlt, hgone⟩ := h.freed q hq
      exact ⟨hlt, fun hqs => hgone hqs.1⟩
    · exact ⟨h.lt_nextPtr hget, fun hqs => hqs.2 rfl⟩
  · have haccess := Trace.always_concat.2 ⟨h.lawful, h.access_law (p := p) howned⟩
    have hlaw : UseLaw (c.trace ++ [.access p]) (.freed p) := trivial
    have hfreed := Trace.always_concat.2 ⟨haccess, hlaw⟩
    rw [UsesSoundly, htrace']
    simpa using hfreed
  · have hcloses : c'.closes p = c.closes p := by
      simp [closes, hstack', htrace', hstack, List.count_append]
    have hdestroys : c'.destroys p = c.destroys p := by
      simp [destroys, htrace', List.count_append]
    refine .of_gone (by rw [hmux', hnext]; exact h.lt_nextPtr hget) (fun s hs => ?_)
      (hcloses ▸ (h.torn p).closes_le) (hdestroys ▸ (h.torn p).destroys_le) ?_ ?_
    · simp [hstatus'] at hs
    · rw [hstack']
      exact h.not_mem_rest hstack trivial rfl rfl
    · rw [hstack']
      exact h.not_mem_rest hstack trivial rfl rfl

lemma callOnClose (h : c.Ok) {rest : List CallFrame} (hstack : c.stack = .task (.callOnClose p) :: rest) :
    (runTask { c with stack := rest } (.callOnClose p)).Ok := by
  have hold : .called (.onClose p) ∉ c.trace := by
    intro hmem
    have hcount := List.count_pos_iff.2 hmem
    have hle := (h.torn p).closes_le
    simp only [closes, hstack, List.countP_cons, CallFrame.callsOnClose_callOnClose, decide_true,
      if_true] at hle
    omega
  have hmoves : ∀ f : CallFrame, f.Frees →
      (f ∈ CallFrame.user (.onClose p) :: rest ↔ f ∈ c.stack) := by
    intro f hf
    rw [hstack, List.mem_cons, List.mem_cons]
    refine or_congr (iff_of_false ?_ ?_) Iff.rfl
    · rintro rfl
      exact hf
    · rintro rfl
      exact hf
  refine ⟨h.linked, ?_, fun q hq => ?_, fun q => ?_, ?_⟩
  · have hsound := h.stack
    rw [hstack] at hsound
    exact hsound.pop.push (fun q hq => by cases hq) fun hf => hf.elim
  · exact h.freed q (by simpa [runTask, enter] using hq)
  · refine (h.torn q).of_agree ?_ ?_ (Nat.le_refl _) rfl fun f hf _ => hmoves f hf
    · simp only [closes, runTask, enter, hstack, List.count_append, List.count_singleton,
        List.countP_cons, CallFrame.callsOnClose_callOnClose, CallFrame.callsOnClose_user]
      by_cases hq : p = q
      · simp [hq]
        omega
      · simp [hq]
    · simp [destroys, runTask, enter, List.count_append]
  · exact Trace.always_concat.2 ⟨h.lawful, hold⟩

end Ok

/-! ## Steps and runs -/

namespace Calm

lemma push (h : c.Calm) {tasks : List Task} (ht : ∀ t ∈ tasks, ∀ p, t ≠ .openPending p) :
    (c.push tasks).Calm := by
  intro p hmem
  rcases List.mem_append.1 hmem with hmem | hmem
  · obtain ⟨t, hin, heq⟩ := List.mem_map.1 hmem
    exact ht t hin p (CallFrame.task.inj heq)
  · exact h p hmem

lemma enterIf (h : c.Calm) (slot : Bool) (cb : Callback) : (c.enterIf slot cb).Calm := by
  intro p hmem
  rw [Config.enterIf] at hmem
  split_ifs at hmem
  · exact h p (by simpa [enter] using hmem)
  · exact h p hmem

lemma teardown (h : c.Calm) {t : Task}
    (ht : t = .closing p ∨ t = .channelDestroy p ∨ t = .removeChannel p ∨ t = .callOnClose p ∨
      t = .remoteClose p) : (c.runTask t).Calm := by
  rcases ht with rfl | rfl | rfl | rfl | rfl
  · simp only [runTask, withChannel]
    split
    · exact h
    · refine Calm.enterIf (Calm.push ?_ (by simp)) _ _
      exact h
  · simp only [runTask, withChannel]
    split
    · exact h
    · split_ifs
      · exact h
      · refine Calm.enterIf (Calm.push ?_ (by simp)) _ _
        exact h
  · simp only [runTask, withChannel]
    split
    · exact h
    · exact h
  · exact fun q hmem => h q (by simpa [runTask, enter] using hmem)
  · simp only [runTask, withChannel]
    split
    · exact h
    · split_ifs
      · exact h
      · exact Calm.push h (by simp)
      · exact Calm.push h (by simp)

end Calm

/-- An `open` that waits for the write function is on top of the stack, or below the write function, and
its channel is not paired yet. -/
def Opening (c : Config) : Prop :=
  c.Calm ∨ ∃ p ch rest,
    (c.stack = .task (.openPending p) :: rest ∨
      ∃ frame, c.stack = .user (.write frame) :: .task (.openPending p) :: rest) ∧
    (∀ q, .task (.openPending q) ∉ rest) ∧ c.mux.channel? p = some ch ∧ ch.openSent = true ∧
    ch.opened = false ∧ ch.destroyed = false

lemma ok_open (h : c.Ok) (hcalm : c.Calm) (hp : c.Owns p) (handshake : Bytes) :
    (c.runMethod (.op (.open p handshake))).Ok ∧ (c.runMethod (.op (.open p handshake))).Opening := by
  obtain ⟨s, hs⟩ := Option.isSome_iff_exists.1 hp
  obtain ⟨ch, hget, -⟩ := Option.map_eq_some_iff.1 hs
  have haccess : Grows c (c.log (.access p)) := Grows.access hp
  simp only [runMethod, withChannel, hget]
  split_ifs with hrefused
  · exact ⟨haccess.ok h, .inl (haccess.calm hcalm)⟩
  simp only [not_or, Bool.not_eq_true] at hrefused
  have hclosed : ch.opened = false := by
    by_contra hne
    have hsent := h.linked.opened ch (Mux.mem_channels_of_channel? hget) (by simpa using hne)
    simp [hrefused.1] at hsent
  have hsend : Grows c ((c.log (.access p)).modifyChannel p ({ · with openSent := true })) :=
    haccess.modifyChannel fun ch => by simp
  have howned : ((c.log (.access p)).modifyChannel p ({ · with openSent := true })).Owns p := by
    rw [hsend.owns]
    exact hp
  have hget' : ((c.log (.access p)).modifyChannel p ({ · with openSent := true })).mux.channel? p =
      some { ch with openSent := true } := by
    have hptr : ∀ ch : Channel, ({ ch with openSent := true } : Channel).ptr = ch.ptr := fun _ => rfl
    refine (Mux.channel?_modify hptr).trans ?_
    simp [log, hget]
  have hwaits := (hsend.ok h).push_task (t := .openPending p) trivial
    fun q hq => Option.some.inj hq ▸ howned
  generalize (c.log (.access p)).modifyChannel p ({ · with openSent := true }) = c₁ at *
  have hwrite := (Grows.refl (c₁.push [.openPending p])).writeFrame
    (openFrame ch.localId ch.protocol ch.id handshake)
  refine ⟨hwrite.ok hwaits, .inr ⟨p, { ch with openSent := true }, c₁.stack, ?_, hsend.calm hcalm, ?_,
    rfl, hclosed, hrefused.2.2⟩⟩
  · rw [writeFrame, Config.enterIf]
    split_ifs
    · exact .inr ⟨_, rfl⟩
    · exact .inl rfl
  · rw [writeFrame, Config.enterIf]
    have hchannels : ((c₁.mux.writeFrame (openFrame ch.localId ch.protocol ch.id handshake)).channel? p) =
        some { ch with openSent := true } :=
      (Mux.channel?_congr (Mux.writeFrame_channels _ _)).trans hget'
    split_ifs <;> exact hchannels

lemma grows_openPending (hlinked : c.mux.Linked) {ch : Channel} (hget : c.mux.channel? p = some ch)
    (hsent : ch.openSent = true) (hclosed : ch.opened = false) (hlive : ch.destroyed = false) :
    Grows c (c.runTask (.openPending p)) := by
  have haccess : Grows c (c.log (.access p)) := Grows.access (owns_of_channel? hget)
  simp only [runTask, withChannel, hget]
  split
  · exact haccess
  next k pending hfind =>
    obtain ⟨k', -, hk'⟩ := List.exists_of_findSome?_eq_some hfind
    obtain ⟨o, ho, heq⟩ := Option.map_eq_some_iff.1 hk'
    have hpending : pending.remoteLocalId ≠ 0 := by
      obtain ⟨-, rfl⟩ := Prod.mk.inj heq
      exact hlinked.pending k' o ho
    have htake : Grows c ((c.log (.access p)).modifyMux fun m =>
        { m with pendingRemote := Function.update m.pendingRemote k none }) := by
      refine haccess.modifyMux (fun hl => ?_) rfl fun _ => rfl
      refine hl.congr rfl rfl rfl rfl fun k₀ o₀ ho₀ => ?_
      by_cases hk₀ : k₀ = k
      · simp [hk₀] at ho₀
      · simp only [Function.update_of_ne hk₀] at ho₀
        exact hl.pending k₀ o₀ ho₀
    have hptr := Mux.ptr_of_channel? hget
    subst hptr
    exact htake.trans (grows_tryPair (htake.linked hlinked) hget hsent hclosed hlive hpending)

lemma ok_close (h : c.Ok) (hcalm : c.Calm) {ch : Channel} (hget : c.mux.channel? p = some ch)
    (hspare : ch.closed = false → ch.destroyed = false → ∀ f ∈ c.stack, f.channel? ≠ some p) :
    (c.runMethod (.op (.close p))).Ok ∧ (c.runMethod (.op (.close p))).Calm := by
  have haccess : Grows c (c.log (.access p)) := Grows.access (owns_of_channel? hget)
  simp only [runMethod, withChannel, hget]
  split_ifs with hrefused
  · exact ⟨haccess.ok h, haccess.calm hcalm⟩
  simp only [not_or, Bool.not_eq_true] at hrefused
  have hstart := (haccess.ok h).startClose hget hrefused.1 (hspare hrefused.1 hrefused.2)
  have hcalm' : (((c.log (.access p)).modifyChannel p ({ · with closed := true })).push
      [.closing p]).Calm := by
    refine Calm.push ?_ (by simp)
    exact hcalm
  have hwrite := (Grows.refl (((c.log (.access p)).modifyChannel p
    ({ · with closed := true })).push [.closing p])).writeFrame (closeFrame ch.localId)
  exact ⟨hwrite.ok hstart, hwrite.calm hcalm'⟩

lemma ok_remoteClose (h : c.Ok) {ch : Channel} (hget : c.mux.channel? p = some ch)
    (hspare : ch.destroyed = false → ∀ f ∈ c.stack, f.channel? ≠ some p) :
    (c.runTask (.remoteClose p)).Ok := by
  cases hlive : ch.destroyed with
  | false => exact h.remoteClose hget hlive (hspare hlive)
  | true =>
    have hrun : c.runTask (.remoteClose p) = c.log (.access p) := by
      simp [runTask, withChannel, hget, hlive]
    rw [hrun]
    exact (Grows.access (owns_of_channel? hget)).ok h

lemma ok_run {t : Task} {rest : List CallFrame} (h : c.Ok) (hopening : c.Opening)
    (hstack : c.stack = .task t :: rest) (hspares : c.Spares .run) :
    (runTask { c with stack := rest } t).Ok ∧ (runTask { c with stack := rest } t).Opening := by
  have howned : ∀ p, t.channel? = some p → c.Owns p := fun p hp =>
    h.stack.live (.task t) (by simp [hstack]) p hp
  have hcalm : Calm { c with stack := rest } := by
    rcases hopening with hcalm | ⟨p, ch, rest', hshape, hrest, -⟩
    · exact fun p hmem => hcalm p (by rw [hstack]; exact List.mem_cons_of_mem _ hmem)
    · rcases hshape with hshape | ⟨frame, hshape⟩
      · rw [hstack] at hshape
        rw [(List.cons.inj hshape).2]
        exact hrest
      · rw [hstack] at hshape
        cases (List.cons.inj hshape).1
  have hchannel : ∀ p, t.channel? = some p → ∃ ch, c.mux.channel? p = some ch := fun p hp => by
    obtain ⟨s, hs⟩ := Option.isSome_iff_exists.1 (howned p hp)
    obtain ⟨ch, hget, -⟩ := Option.map_eq_some_iff.1 hs
    exact ⟨ch, hget⟩
  have hteardown : ∀ p, t = .closing p ∨ t = .channelDestroy p ∨ t = .removeChannel p ∨
      t = .callOnClose p ∨ t = .remoteClose p → (runTask { c with stack := rest } t).Opening :=
    fun p ht => .inl (hcalm.teardown ht)
  have hplain : (CallFrame.task t).Plain → (∀ m, t ≠ .method m) → (∀ p, t ≠ .remoteClose p) →
      (runTask { c with stack := rest } t).Ok ∧ (runTask { c with stack := rest } t).Opening := by
    intro hplain hmethod hclose
    have hpop := h.pop hstack hplain.neutral
    have hgrows := grows_runTask hpop.linked hplain hmethod hclose howned
    exact ⟨hgrows.ok hpop, .inl (hgrows.calm hcalm)⟩
  cases t with
  | closing p => exact ⟨h.closing hstack, hteardown p (by simp)⟩
  | channelDestroy p => exact ⟨h.channelDestroy hstack, hteardown p (by simp)⟩
  | removeChannel p => exact ⟨h.removeChannel hstack, hteardown p (by simp)⟩
  | callOnClose p => exact ⟨h.callOnClose hstack, hteardown p (by simp)⟩
  | remoteClose p =>
    obtain ⟨ch, hget⟩ := hchannel p rfl
    refine ⟨ok_remoteClose (h.pop hstack trivial) hget fun hlive f hf => ?_, hteardown p (by simp)⟩
    have hnow : c.closesNow = some p := by simp [closesNow, hstack, hget, hlive]
    exact hspares p hnow f (by simpa [hstack] using hf)
  | openPending p =>
    rcases hopening with hno | ⟨q, ch, rest', hshape, hrest, hget, hsent, hclosed, hlive⟩
    · exact absurd (by simp [hstack]) (hno p)
    · obtain ⟨rfl, rfl⟩ : q = p ∧ rest' = rest := by
        rcases hshape with hshape | ⟨frame, hshape⟩
        · rw [hstack] at hshape
          obtain ⟨hhead, htail⟩ := List.cons.inj hshape
          cases hhead
          exact ⟨rfl, htail.symm⟩
        · rw [hstack] at hshape
          cases (List.cons.inj hshape).1
      have hpop := h.pop hstack trivial
      have hgrows := grows_openPending hpop.linked hget hsent hclosed hlive
      exact ⟨hgrows.ok hpop, .inl (hgrows.calm hcalm)⟩
  | method m =>
    have hpop := h.pop hstack trivial
    by_cases hcreate : ∃ protocol aliases id unique, m = .op (.createChannel protocol aliases id unique)
    · obtain ⟨protocol, aliases, id, unique, rfl⟩ := hcreate
      exact ⟨hpop.createChannel protocol aliases id unique, .inl hcalm⟩
    by_cases hopen : ∃ p handshake, m = .op (.open p handshake)
    · obtain ⟨p, handshake, rfl⟩ := hopen
      exact ok_open hpop hcalm (howned p rfl) handshake
    by_cases hclose : ∃ p, m = .op (.close p)
    · obtain ⟨p, rfl⟩ := hclose
      obtain ⟨ch, hget⟩ := hchannel p rfl
      have hboth := ok_close hpop hcalm hget fun hopen hlive f hf => by
        have hnow : c.closesNow = some p := by simp [closesNow, hstack, hget, hopen, hlive]
        exact hspares p hnow f (by simpa [hstack] using hf)
      exact ⟨hboth.1, .inl hboth.2⟩
    · have hgrows : Grows { c with stack := rest } (runMethod { c with stack := rest } m) :=
        grows_runMethod m howned (fun pr al id un heq => hcreate ⟨pr, al, id, un, heq⟩)
          (fun p hs heq => hopen ⟨p, hs, heq⟩) fun p heq => hclose ⟨p, heq⟩
      exact ⟨hgrows.ok hpop, .inl (hgrows.calm hcalm)⟩
  | _ => exact hplain trivial (by simp) (by simp)

/-- **A step that spares the channels in use** keeps the invariant. -/
lemma ok_step (h : c.Ok) (hopening : c.Opening) {a : Action} (hquiet : c.QuietWrite a)
    (hspares : c.Spares a) : (c.step a).Ok ∧ (c.step a).Opening := by
  cases a with
  | run =>
    simp only [step]
    split
    next t rest hstack => exact ok_run h hopening hstack hspares
    next => exact ⟨h, hopening⟩
  | ret =>
    simp only [step]
    split
    next cb rest hstack =>
      refine ⟨h.pop hstack trivial, ?_⟩
      rcases hopening with hcalm | ⟨p, ch, rest', hshape, hrest⟩
      · exact .inl fun p hmem => hcalm p (by rw [hstack]; exact List.mem_cons_of_mem _ hmem)
      · rcases hshape with hshape | ⟨frame, hshape⟩
        · rw [hstack] at hshape
          cases (List.cons.inj hshape).1
        · rw [hstack] at hshape
          exact .inr ⟨p, ch, rest', .inl (List.cons.inj hshape).2, hrest⟩
    next => exact ⟨h, hopening⟩
  | call m =>
    simp only [step]
    split_ifs with hcalls
    · simp only [Bool.and_eq_true] at hcalls
      have hcalm : c.Calm := by
        rcases hopening with hcalm | ⟨p, ch, rest, hshape, -⟩
        · exact hcalm
        · rcases hshape with hshape | ⟨frame, hshape⟩
          · simp [userRuns, hshape] at hcalls
          · simp [QuietWrite, writes, hshape] at hquiet
      have howned : ∀ p, (Task.method m).channel? = some p → c.Owns p := by
        intro p hp
        have hsome := hcalls.2
        simp only [owns, show m.channel? = some p from hp] at hsome
        simpa [Owns, status] using hsome
      exact ⟨h.push_task trivial howned, .inl (hcalm.push (by simp))⟩
    · exact ⟨h, hopening⟩

lemma ok_init : Ok {} where
  linked := .init
  stack := .nil
  freed := by simp
  torn p := by
    have hstatus : status {} p = none := rfl
    exact ⟨by simp [closes], by simp [destroys], fun _ => by simp [closes, destroys],
      fun d hd => by simp [hstatus] at hd, fun b hb => by simp [hstatus] at hb,
      fun hb => by simp [hstatus] at hb, by simp, by simp⟩
  lawful := Trace.always_nil _

end Config

/-- **Channels are used soundly as long as they are spared**: in a run in which the write function calls
no method, and no channel is closed that a call in progress comes back to, no channel is used after it
was freed, and no `on_close` or `on_destroy` is called twice. -/
theorem usesSoundly_run {actions : List Config.Action}
    (hquiet : Runs.EveryStep Config.step Config.QuietWrite {} actions)
    (hspares : Runs.EveryStep Config.step Config.Spares {} actions) :
    Runs.EveryState Config.step Config.UsesSoundly {} actions := by
  have hok := Runs.everyState_of_everyStep (P := fun c : Config => c.Ok ∧ c.Opening)
    (fun c a h hstep => Config.ok_step h.1 h.2 hstep.1 hstep.2)
    ⟨Config.ok_init, .inl fun p => by simp⟩ (hquiet.and hspares)
  exact hok.mono fun c h => h.1.lawful

/-- The `on_close` of one channel closes another one, which has all its callbacks called inside of it; the
mux is destroyed when both channels are gone. -/
def sparingRun : List Config.Action :=
  [.call (.op (.createChannel (.single 112) [] .nil true)), .run,
    .call (.op (.createChannel (.single 113) [] .nil true)), .run,
    .call (.setCallbacks 0 { onClose := true }), .run,
    .call (.setCallbacks 1 { onClose := true, onDestroy := true }), .run,
    .call (.op (.close 0)), .run, .ret, .run,
    .call (.op (.close 1)), .run, .ret, .run, .ret, .run, .ret, .run,
    .ret, .run, .run, .call (.op .destroy), .run, .run]

theorem usesSoundly_sparingRun :
    Runs.EveryStep Config.step Config.QuietWrite {} sparingRun ∧
      Runs.EveryStep Config.step Config.Spares {} sparingRun ∧
      Runs.EveryState Config.step Config.UsesSoundly {} sparingRun :=
  have hquiet : Runs.EveryStep Config.step Config.QuietWrite {} sparingRun := by decide +kernel
  have hspares : Runs.EveryStep Config.step Config.Spares {} sparingRun := by decide +kernel
  ⟨hquiet, hspares, usesSoundly_run hquiet hspares⟩

/-- A channel whose `on_close` destroys the mux, which closes and frees the channel; then `close` goes
on with it. -/
def destroyingClose : List Config.Action :=
  [.call (.op (.createChannel (.single 112) [] .nil true)), .run,
    .call (.setCallbacks 0 { onClose := true }), .run, .call (.op (.close 0)), .run, .ret, .run,
    .call (.op .destroy), .run, .run, .run, .run, .run, .run, .ret, .run]

/-- A freed channel is used, although the write function calls no method. -/
theorem not_usesSoundly_destroyingClose :
    ¬ ∀ actions : List Config.Action, Runs.EveryStep Config.step Config.QuietWrite {} actions →
      (Runs.run Config.step {} actions).UsesSoundly := by
  intro h
  have htrace : (Runs.run Config.step {} destroyingClose).trace =
      [.access 0, .access 0, .called (.write [0, 3, 1]), .access 0, .called (.onClose 0), .destroying,
        .access 0, .access 0, .access 0, .freed 0] ++ [.access 0] := by
    decide +kernel
  have hsound := h destroyingClose (by decide +kernel)
  rw [Config.UsesSoundly, htrace, Trace.always_concat] at hsound
  exact hsound.2 (by decide)

end HyperDHT.Protomux
