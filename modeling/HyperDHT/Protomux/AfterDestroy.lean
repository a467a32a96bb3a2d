import HyperDHT.Protomux.Reentry

/-!
# Writing after a mux was destroyed

`Mux::destroy` closes the channels, which calls their callbacks, before it clears the batch. Frames
that were written while the mux was corked are still there then, and a callback may uncork.

## Main definitions

* `Protomux.Config.SilentAfterDestroy` — the write function is not called once `destroy` has begun.
* `Protomux.Config.UncorksInTime` — no uncorking of a destroyed mux has something to write.

## Main results

* `Protomux.silentAfterDestroy_iff_uncorksInTime` — in every state of a run the mux is silent after
  `destroy` exactly if all the uncorking is in time.
* `Protomux.not_silentAfterDestroy_corkedClose` — a corked OPEN that is written by `on_close`.
-/

set_option autoImplicit false

namespace HyperDHT.Protomux

/-- The write function is not called after `Mux::destroy` has begun. -/
def SilenceLaw (history : List Happening) : Happening → Prop
  | .called (.write _) => .destroying ∉ history
  | _ => True

namespace Config

/-- The write function was not called after `Mux::destroy` had begun. -/
def SilentAfterDestroy (c : Config) : Prop := Trace.Always SilenceLaw c.trace

/-- If the library enters `uncork` and the mux is destroyed, this is not the last `uncork`, or the
batch is empty. -/
def UncorksInTime (c : Config) (a : Action) : Prop :=
  a = .run → c.stack.head? = some (.task (.method (.op .uncork))) → c.mux.destroyed = true →
    c.mux.corkCount ≠ 1 ∨ c.mux.batch = []

/-- The flag of the mux says whether `Mux::destroy` has begun. -/
def Flagged (c : Config) : Prop := .destroying ∈ c.trace ↔ c.mux.destroyed = true

/-- From `c` to `c'` the mux is not destroyed, and a destroyed mux does not write. -/
structure Follows (c c' : Config) : Prop where
  destroyed : c'.mux.destroyed = c.mux.destroyed
  trace : ∃ hs, c'.trace = c.trace ++ hs ∧ .destroying ∉ hs ∧
    (c.mux.destroyed = true → ∀ frame, .called (.write frame) ∉ hs)

namespace Follows

variable {c c' c'' : Config}

lemma refl (c : Config) : Follows c c := ⟨rfl, [], by simp⟩

lemma trans (h : Follows c c') (h' : Follows c' c'') : Follows c c'' := by
  obtain ⟨hs, htrace, hbegin, hwrite⟩ := h.trace
  obtain ⟨hs', htrace', hbegin', hwrite'⟩ := h'.trace
  refine ⟨h'.destroyed.trans h.destroyed, hs ++ hs', by rw [htrace', htrace, List.append_assoc], ?_, ?_⟩
  · simp [hbegin, hbegin']
  · intro hd frame
    simp [hwrite hd frame, hwrite' (h.destroyed.trans hd) frame]

lemma of_eq (hmux : c'.mux.destroyed = c.mux.destroyed) (htrace : c'.trace = c.trace) :
    Follows c c' := ⟨hmux, [], by simp [htrace]⟩

lemma access (c : Config) (p : Ptr) : Follows c (c.log (.access p)) :=
  ⟨rfl, [.access p], by simp [log]⟩

lemma freed (c : Config) (p : Ptr) : Follows c (c.log (.freed p)) :=
  ⟨rfl, [.freed p], by simp [log]⟩

lemma push (h : Follows c c') (tasks : List Task) : Follows c (c'.push tasks) :=
  h.trans (of_eq rfl rfl)

lemma modifyMux (h : Follows c c') {f : Mux → Mux} (hf : (f c'.mux).destroyed = c'.mux.destroyed) :
    Follows c (c'.modifyMux f) := h.trans (of_eq hf rfl)

lemma modifyChannel (h : Follows c c') (p : Ptr) (f : Channel → Channel) :
    Follows c (c'.modifyChannel p f) := h.modifyMux rfl

lemma setSlots (h : Follows c c') (p : Ptr) (s : Slots) : Follows c (c'.setSlots p s) :=
  h.trans (of_eq rfl rfl)

lemma enter (h : Follows c c') {cb : Callback} (hcb : ∀ frame, cb ≠ .write frame) :
    Follows c (c'.enter cb) := by
  refine h.trans ⟨rfl, [.called cb], rfl, by simp, fun _ frame hmem => ?_⟩
  exact hcb frame (Happening.called.inj (List.mem_singleton.1 hmem)).symm

lemma enterIf (h : Follows c c') {cb : Callback} (hcb : ∀ frame, cb ≠ .write frame) (slot : Bool) :
    Follows c (c'.enterIf slot cb) := by
  rw [Config.enterIf]
  split_ifs
  · exact h.enter hcb
  · exact h

lemma writeFrame (h : Follows c c') (frame : List UInt8) : Follows c (c'.writeFrame frame) := by
  have hmux : (c'.mux.writeFrame frame).destroyed = c'.mux.destroyed := by
    simp only [Mux.writeFrame]
    split_ifs <;> rfl
  rw [Config.writeFrame, Config.enterIf]
  split_ifs with hopen
  · have hlive : c'.mux.destroyed = false := by
      simp only [Bool.and_eq_true, Bool.not_eq_true'] at hopen
      exact hopen.1
    refine (h.modifyMux hmux).trans ⟨rfl, [.called (.write frame)], rfl, by simp, ?_⟩
    intro hd
    rw [show (c'.modifyMux (·.writeFrame frame)).mux.destroyed = c'.mux.destroyed from hmux,
      hlive] at hd
    cases hd
  · exact h.modifyMux hmux

lemma withChannel (c : Config) (p : Ptr) {f : Config → Channel → Config}
    (hf : ∀ c ch, Follows c (f c ch)) : Follows c (c.withChannel p f) := by
  rw [Config.withChannel]
  split
  · exact access c p
  · exact (access c p).trans (hf _ _)

end Follows

variable (c : Config)

lemma follows_tryPair (ch : Channel) (remote : PendingOpen) : Follows c (c.tryPair ch remote) := by
  have hlink := ((Follows.refl c).modifyChannel ch.ptr
    ({ · with remoteId := remote.remoteLocalId })).modifyMux (f := fun m =>
      { m with remoteToChannel :=
          Function.update m.remoteToChannel remote.remoteLocalId (some ch.ptr) }) rfl
  simp only [tryPair]
  split_ifs
  · exact hlink
  · exact ((hlink.modifyChannel _ _).push _).enterIf (by simp) _

lemma follows_dispatch (ch : Channel) (type : UInt32) (data : List UInt8) :
    Follows c (c.dispatch ch type data) := (Follows.refl c).enterIf (by simp) _

lemma follows_dispatchNotify (protocol id handshake : List UInt8) :
    Follows c (c.dispatchNotify protocol id handshake) := by
  simp only [dispatchNotify]
  split_ifs
  · exact (Follows.refl c).enter (by simp)
  · exact (Follows.refl c).enter (by simp)
  · exact (Follows.refl c).enterIf (by simp) _

lemma follows_handle (call : Call) : Follows c (c.handle call) := by
  cases call with
  | «open» data =>
    simp only [handle]
    split
    · exact .refl c
    · simp only [receiveOpen]
      split
      · exact (Follows.access c _).trans (follows_tryPair _ _ _)
      · exact .trans ((Follows.refl c).modifyMux rfl) (follows_dispatchNotify _ _ _ _)
  | reject data =>
    simp only [handle]
    split
    · exact .refl c
    · exact (Follows.refl c).push _
  | close data =>
    simp only [handle]
    split
    · exact .refl c
    · exact (Follows.refl c).push _
  | data channelId data =>
    simp only [handle, handleData]
    split
    · exact .refl c
    · refine Follows.withChannel c _ fun c ch => ?_
      split_ifs
      · exact .refl c
      · exact .refl c
      · exact ((Follows.refl c).modifyChannel _ _).modifyMux rfl
      · exact follows_dispatch _ _ _ _

/-- **Methods that do not write to a destroyed mux**: all of them, but `uncork` and `destroy`. -/
lemma follows_runMethod (m : Method) (huncork : m ≠ .op .uncork) (hdestroy : m ≠ .op .destroy) :
    Follows c (c.runMethod m) := by
  have hcreate : ∀ (m : Mux) protocol aliases id unique,
      (m.createChannel protocol aliases id unique).1.destroyed = m.destroyed := by
    intro m protocol aliases id unique
    simp only [Mux.createChannel]
    split_ifs <;> rfl
  cases m with
  | op op =>
    cases op with simp only [runMethod]
    | createChannel protocol aliases id unique => exact (Follows.refl c).modifyMux (hcreate _ _ _ _ _)
    | addMessage p handler =>
      exact .withChannel c p fun c _ => (Follows.refl c).modifyMux rfl
    | «open» p handshake =>
      refine .withChannel c p fun c ch => ?_
      split_ifs
      · exact .refl c
      · exact (((Follows.refl c).modifyChannel p _).push _).writeFrame _
    | send p messageType data =>
      refine .withChannel c p fun c ch => ?_
      split_ifs
      · exact .refl c
      · exact (Follows.refl c).writeFrame _
    | close p =>
      refine .withChannel c p fun c ch => ?_
      split_ifs
      · exact .refl c
      · exact (((Follows.refl c).modifyChannel p _).push _).writeFrame _
    | cork => exact (Follows.refl c).modifyMux rfl
    | uncork => exact absurd rfl huncork
    | onData frame => exact (Follows.refl c).push _
    | pair protocol id => exact (Follows.refl c).modifyMux rfl
    | unpair protocol id => exact (Follows.refl c).modifyMux rfl
    | onNotify callback => exact (Follows.refl c).modifyMux rfl
    | destroy => exact absurd rfl hdestroy
  | channelCork p => exact .withChannel c p fun c _ => (Follows.refl c).modifyMux rfl
  | channelUncork p => exact .withChannel c p fun c _ => (Follows.refl c).push _
  | onStreamDrain => exact (Follows.refl c).push _
  | forEachChannel => exact (Follows.refl c).push _
  | setCallbacks p slots => exact .withChannel c p fun c _ => (Follows.refl c).setSlots p slots

lemma follows_runTask (t : Task) (hmethod : ∀ m, t ≠ .method m) : Follows c (c.runTask t) := by
  cases t with simp only [runTask]
  | method m => exact absurd rfl (hmethod m)
  | handle call => exact follows_handle c call
  | openPending p =>
    refine .withChannel c p fun c ch => ?_
    split
    · exact .refl c
    · exact .trans ((Follows.refl c).modifyMux rfl) (follows_tryPair _ _ _)
  | drainPending p =>
    exact .withChannel c p fun c ch => ((Follows.refl c).modifyChannel p _).push _
  | drainOne p pm =>
    refine .withChannel c p fun c ch => ?_
    have hbytes := (Follows.refl c).modifyMux (f := fun m => { m with bufferedBytes :=
      if m.bufferedBytes ≥ pm.data.length then m.bufferedBytes - pm.data.length else 0 }) rfl
    split_ifs
    · exact hbytes
    · exact hbytes.trans (follows_dispatch _ _ _ _)
  | closing p =>
    exact .withChannel c p fun c _ =>
      (((Follows.refl c).setSlots p _).push _).enterIf (by simp) _
  | remoteClose p =>
    refine .withChannel c p fun c ch => ?_
    split_ifs
    · exact .refl c
    · exact (((Follows.refl c).modifyChannel p _).setSlots p _).push _
    · exact (((Follows.refl c).modifyChannel p _).setSlots p _).push _
  | channelDestroy p =>
    refine .withChannel c p fun c ch => ?_
    split_ifs
    · exact .refl c
    · exact ((((Follows.refl c).modifyChannel p _).setSlots p _).push _).enterIf (by simp) _
  | removeChannel p =>
    refine .withChannel c p fun c _ => ?_
    have hremove : (c.mux.removeChannel p).destroyed = c.mux.destroyed := by
      simp only [Mux.removeChannel]
      split <;> rfl
    exact ((Follows.refl c).modifyMux hremove).trans (.freed _ p)
  | callOnClose p => exact (Follows.refl c).enter (by simp)
  | drain p => exact .withChannel c p fun c ch => (Follows.refl c).enterIf (by simp) _
  | forEach p => exact (Follows.access c p).enter (by simp)
  | destroyLoop =>
    split
    · exact (Follows.refl c).modifyMux rfl
    · exact (Follows.refl c).push _

/-! ## Steps and runs -/

variable {c}

lemma Follows.silent {c' : Config} (h : Follows c c') (hflag : c.Flagged)
    (hsilent : c.SilentAfterDestroy) : c'.Flagged ∧ c'.SilentAfterDestroy := by
  obtain ⟨hs, htrace, hbegin, hwrite⟩ := h.trace
  refine ⟨?_, ?_⟩
  · simpa [Flagged, htrace, hbegin, h.destroyed] using hflag
  · rw [SilentAfterDestroy, htrace, Trace.always_append]
    refine ⟨hsilent, fun history e rest hsplit => ?_⟩
    cases e with
    | called cb =>
      cases cb with
      | write frame =>
        -- the mux is not destroyed, or it would not have written
        have hin : .called (.write frame) ∈ hs := by simp [hsplit]
        have hlive : .destroying ∉ c.trace := fun hmem => hwrite (hflag.1 hmem) frame hin
        have hnew : .destroying ∉ history := fun hmem => hbegin (by simp [hsplit, hmem])
        simp [SilenceLaw, hlive, hnew]
      | _ => trivial
    | _ => trivial

/-- The library is about to enter a public method. -/
def Enters (c : Config) (a : Action) (op : Op) : Prop :=
  a = .run ∧ c.stack.head? = some (.task (.method (.op op)))

lemma Enters.step_eq {a : Action} {op : Op} (h : c.Enters a op) :
    c.step a = runMethod { c with stack := c.stack.tail } (.op op) := by
  obtain ⟨rfl, hhead⟩ := h
  obtain ⟨rest, hstack⟩ := List.head?_eq_some_iff.1 hhead
  simp [step, hstack, runTask]

lemma follows_step {a : Action} (huncork : ¬ c.Enters a .uncork) (hdestroy : ¬ c.Enters a .destroy) :
    Follows c (c.step a) := by
  cases a with
  | call m =>
    simp only [step]
    split_ifs
    · exact (Follows.refl c).push _
    · exact .refl c
  | ret =>
    simp only [step]
    split
    · exact .of_eq rfl rfl
    · exact .refl c
  | run =>
    simp only [step]
    split
    next t rest hstack =>
      have hpop : Follows c { c with stack := rest } := .of_eq rfl rfl
      cases t with
      | method m =>
        refine hpop.trans (follows_runMethod _ m ?_ ?_)
        · rintro rfl
          exact huncork ⟨rfl, by rw [hstack]; rfl⟩
        · rintro rfl
          exact hdestroy ⟨rfl, by rw [hstack]; rfl⟩
      | _ => exact hpop.trans (follows_runTask _ _ (by simp))
    next => exact .refl c

lemma flagged_step (hflag : c.Flagged) (a : Action) : (c.step a).Flagged := by
  by_cases huncork : c.Enters a .uncork
  · have hmux : (Mux.uncork c.mux).destroyed = c.mux.destroyed := by
      simp only [Mux.uncork]
      split_ifs <;> rfl
    rw [huncork.step_eq, runMethod, uncork, enterIf]
    split_ifs <;> simpa [Flagged, modifyMux, enter, hmux] using hflag
  by_cases hdestroy : c.Enters a .destroy
  · rw [hdestroy.step_eq, runMethod]
    split_ifs
    · exact hflag
    · simp [Flagged, log, push, modifyMux]
  · obtain ⟨hs, htrace, hbegin, -⟩ := (follows_step huncork hdestroy).trace
    simpa [Flagged, htrace, hbegin, (follows_step huncork hdestroy).destroyed] using hflag

/-- **A step keeps the silence exactly if its uncorking is in time.** -/
theorem silent_step_iff (hflag : c.Flagged) (hsilent : c.SilentAfterDestroy) (a : Action) :
    (c.step a).SilentAfterDestroy ↔ c.UncorksInTime a := by
  by_cases huncork : c.Enters a .uncork
  · have hC : c.UncorksInTime a ↔
        (c.mux.destroyed = true → c.mux.corkCount ≠ 1 ∨ c.mux.batch = []) := by
      simp [UncorksInTime, huncork.1, huncork.2]
    rw [hC, huncork.step_eq, runMethod, uncork, enterIf]
    split_ifs with hwrites
    · -- the batch is written
      simp only [Bool.and_eq_true, decide_eq_true_eq, bne_iff_ne, ne_eq] at hwrites
      rw [SilentAfterDestroy, enter, modifyMux, Trace.always_concat]
      simp only [hwrites, ne_eq, not_true_eq_false, or_self, imp_false, SilenceLaw]
      exact (and_iff_right hsilent).trans (not_congr hflag)
    · refine iff_of_true hsilent fun _ => ?_
      by_contra hnot
      rw [not_or, not_not] at hnot
      simp [hnot.1, hnot.2] at hwrites
  · have hC : c.UncorksInTime a := fun ha hhead => absurd ⟨ha, hhead⟩ huncork
    refine iff_of_true ?_ hC
    by_cases hdestroy : c.Enters a .destroy
    · rw [hdestroy.step_eq, runMethod]
      split_ifs
      · exact hsilent
      · exact Trace.always_concat.2 ⟨hsilent, trivial⟩
    · exact ((follows_step huncork hdestroy).silent hflag hsilent).2

end Config

/-- **A destroyed mux is silent exactly if it is uncorked in time**: in a run of a mux whose callbacks,
and the write function, call methods of the mux and of its channels as they like, the write function is
not called after `destroy` has begun, at any point of the run, if and only if no last `uncork` is
entered while the mux is destroyed and the batch has entries. -/
theorem silentAfterDestroy_iff_uncorksInTime (actions : List Config.Action) :
    Runs.EveryState Config.step Config.SilentAfterDestroy {} actions ↔
      Runs.EveryStep Config.step Config.UncorksInTime {} actions := by
  have hflag : Config.Flagged {} := by simp [Config.Flagged]
  have hsilent : Config.SilentAfterDestroy {} := Trace.always_nil _
  exact Runs.everyState_iff_everyStep (I := Config.Flagged) (P := Config.SilentAfterDestroy)
    (fun _ a h => Config.flagged_step h a)
    (fun _ a hflag hsilent => Config.silent_step_iff hflag hsilent a) hflag hsilent

/-- A channel whose OPEN is in the batch when the mux is destroyed; `on_close` uncorks. -/
def corkedClose : List Config.Action :=
  [.call (.op (.createChannel (.single 112) [] .nil true)), .run,
    .call (.setCallbacks 0 { onClose := true }), .run, .call (.op .cork), .run,
    .call (.op (.open 0 .nil)), .run, .run,
    .call (.op .destroy), .run, .run, .run, .run, .run, .run, .call (.op .uncork), .run]

/-- The OPEN is written when the channel is gone and the mux is destroyed. -/
theorem not_silentAfterDestroy_corkedClose :
    ¬ ∀ actions : List Config.Action, (Runs.run Config.step {} actions).SilentAfterDestroy := by
  intro h
  have htrace : (Runs.run Config.step {} corkedClose).trace =
      [.access 0, .access 0, .access 0, .destroying, .access 0, .access 0, .access 0, .freed 0,
        .called (.onClose 0)] ++ [.called (.write [0, 0, 0, 6, 1, 1, 1, 112, 0, 0])] := by
    decide +kernel
  have hsilent := h corkedClose
  rw [Config.SilentAfterDestroy, htrace, Trace.always_concat] at hsilent
  exact hsilent.2 (by decide)

end HyperDHT.Protomux
