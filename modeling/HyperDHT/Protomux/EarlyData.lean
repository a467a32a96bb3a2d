import Mathlib.Algebra.GroupWithZero.Nat
import HyperDHT.Protomux.Invariant

/-!
# Data that arrives before the local channel opens

A remote end may send data as soon as it has paired its own channel, which can be before the
local channel is created and opened. The buffer `pending_messages_` and the counter
`buffered_bytes_` are meant for this data; but `handle_data` finds the channel through
`remote_to_channel_`, which gets its entry only when the channel is paired. Early data is
therefore dropped, and what a channel dispatches when it opens is nothing.

## Main definitions

* `Protomux.EarlyWindow` — a remote OPEN arrives, then a window of calls and frames follows,
  at the end of which the local channel is created and not yet opened.
* `Protomux.earlyData` — the data that arrives for a remote id in the window.
* `Protomux.EarlyDataDispatched` — when the local channel opens, it has dispatched that data.

## Main results

* `Protomux.earlyDataDispatched_iff` — the data is dispatched exactly when there is none.
* `Protomux.not_earlyDataDispatched_of_one_message` — a message that is lost.
-/

set_option autoImplicit false

namespace HyperDHT.Protomux

open Mux

/-- The messages dispatched on a channel, in order. -/
def dispatched (p : Ptr) (events : List Event) : List (UInt32 × List UInt8) :=
  events.filterMap fun
    | .dispatch q type data => if q = p then some (type, data) else none
    | _ => none

/-- The messages for the remote id `r` in a call sequence. -/
def dataFor (r : UInt32) (calls : List Call) : List (UInt32 × List UInt8) :=
  calls.filterMap fun
    | .data channelId data => if channelId = r then some (decodeMessage data) else none
    | _ => none

/-- The messages that arrive for the remote id `r` in a window, alone or in batches. -/
def earlyData (r : UInt32) (window : List Op) : List (UInt32 × List UInt8) :=
  window.flatMap fun
    | .onData frame => dataFor r (onDataCalls frame)
    | _ => []

/-- A CLOSE for the remote id `r` arrives with the frame. -/
def ClosesRemote (r : UInt32) (op : Op) : Prop :=
  ∃ frame, op = .onData frame ∧ ∃ data, .close data ∈ onDataCalls frame ∧ decodeId data = some r

/-- The mux after the calls `before`, the remote OPEN and the window. -/
def afterWindow (before : List Op) (frame : List UInt8) (window : List Op) : Mux :=
  Runs.run step {} (before ++ .onData frame :: window)

/-- A well-formed remote OPEN arrives in `frame` while no local channel for its key has been
opened. In the window after it no CLOSE for the remote id arrives and at most `maxBuffered`
bytes of data do, and at its end `p` is a local channel for the key that is not opened yet. -/
structure EarlyWindow (before : List Op) (frame : List UInt8) (remote : PendingOpen)
    (window : List Op) (p : Ptr) : Prop where
  wellFormed : ∃ data, onDataCalls frame = [.open data] ∧ decodeOpen data = some remote
  noneOpened : ∀ c ∈ (Runs.run step {} before).channels,
    buildPairKey remote.protocol remote.id ∈ c.pairKeys → c.openSent = false
  notClosed : ∀ op ∈ window, ¬ ClosesRemote remote.remoteLocalId op
  bounded : ((earlyData remote.remoteLocalId window).map (·.2.length)).sum ≤ maxBuffered
  created : ∃ c ∈ (afterWindow before frame window).channels, c.ptr = p ∧
    buildPairKey remote.protocol remote.id ∈ c.pairKeys ∧ c.openSent = false

/-- When the local channel opens, the messages that arrived in the window have been dispatched
on it, in order and once each. -/
def EarlyDataDispatched (before : List Op) (frame : List UInt8) (remote : PendingOpen)
    (window : List Op) (p : Ptr) (handshake : Bytes) : Prop :=
  dispatched p ((afterWindow before frame window).channelOpen p handshake).events =
    earlyData remote.remoteLocalId window

/-! ## A channel dispatches nothing before it opens -/

@[simp] lemma dispatched_append (p : Ptr) (es es' : List Event) :
    dispatched p (es ++ es') = dispatched p es ++ dispatched p es' :=
  List.filterMap_append

/-- A channel that has dispatched a message exists, and its OPEN was sent. -/
def Quiet (p : Ptr) (m : Mux) : Prop :=
  dispatched p m.events ≠ [] →
    p < m.nextPtr ∧ ∀ c ∈ m.channels, c.ptr = p → c.openSent = true

/-- What a call may do to the channels: new channels get new pointers, and no OPEN is unsent. -/
structure Later (m m' : Mux) : Prop where
  nextPtr : m.nextPtr ≤ m'.nextPtr
  channels : ∀ c' ∈ m'.channels, m.nextPtr ≤ c'.ptr ∨
    ∃ c ∈ m.channels, c.ptr = c'.ptr ∧ (c.openSent = true → c'.openSent = true)

lemma Later.of_channels_eq {m m' : Mux} (hptr : m'.nextPtr = m.nextPtr)
    (hchannels : m'.channels = m.channels) : Later m m' where
  nextPtr := Nat.le_of_eq hptr.symm
  channels := fun c hc => Or.inr ⟨c, hchannels ▸ hc, rfl, id⟩

lemma Quiet.later {p : Ptr} {m m' : Mux} (h : Quiet p m) (hlater : Later m m')
    (hevents : dispatched p m'.events = dispatched p m.events) : Quiet p m' := by
  intro hne
  rw [hevents] at hne
  obtain ⟨hlt, hsent⟩ := h hne
  refine ⟨Nat.lt_of_lt_of_le hlt hlater.nextPtr, fun c' hc' hp => ?_⟩
  rcases hlater.channels c' hc' with hnew | ⟨c, hc, hptr, himp⟩
  · exact absurd (hp ▸ hnew) (Nat.not_le.2 hlt)
  · exact himp (hsent c hc (hptr.trans hp))

lemma Quiet.log {p : Ptr} {m : Mux} (h : Quiet p m) {e : Event} (he : dispatched p [e] = []) :
    Quiet p (m.log e) :=
  h.later (.of_channels_eq rfl rfl) (by simp [Mux.log, he])

lemma Quiet.writeFrame {p : Ptr} {m : Mux} (h : Quiet p m) (frame : List UInt8) :
    Quiet p (m.writeFrame frame) :=
  h.later (.of_channels_eq (by simp) (by simp)) (by simp)

lemma Quiet.modifyChannel {p : Ptr} {m : Mux} (h : Quiet p m) (q : Ptr) {f : Channel → Channel}
    (hptr : ∀ c, (f c).ptr = c.ptr) (hsent : ∀ c, c.openSent = true → (f c).openSent = true) :
    Quiet p (m.modifyChannel q f) := by
  refine h.later ⟨Nat.le_refl _, fun c' hc' => Or.inr ?_⟩ rfl
  obtain ⟨c, hc, rfl⟩ := List.mem_map.1 hc'
  refine ⟨c, hc, ?_⟩
  split_ifs
  · exact ⟨(hptr c).symm, hsent c⟩
  · exact ⟨rfl, id⟩

lemma Quiet.link {p : Ptr} {m : Mux} (h : Quiet p m) (q : Ptr) (remote : PendingOpen) :
    Quiet p (m.link q remote) := by
  refine h.later ⟨Nat.le_refl _, fun c' hc' => Or.inr ?_⟩ (by simp [Mux.link, dispatched])
  obtain ⟨c, hc, rfl⟩ := List.mem_map.1 hc'
  refine ⟨c, hc, ?_⟩
  split_ifs <;> exact ⟨rfl, id⟩

lemma Quiet.removeChannel {p : Ptr} {m : Mux} (h : Quiet p m) (q : Ptr) :
    Quiet p (m.removeChannel q) := by
  cases hget : m.channel? q with
  | none => simpa [Mux.removeChannel, hget] using h
  | some c =>
    simp only [Mux.removeChannel, hget]
    refine h.later ⟨Nat.le_refl _, fun c' hc' => Or.inr ?_⟩ rfl
    exact ⟨c', List.mem_of_mem_filter hc', rfl, id⟩

lemma Quiet.channelDestroy {p : Ptr} {m : Mux} (h : Quiet p m) (q : Ptr) :
    Quiet p (m.channelDestroy q) := by
  simp only [Mux.channelDestroy]
  split
  · exact h
  · split_ifs
    · exact h
    · have hmarked : Quiet p
          (m.modifyChannel q ({ · with destroyed := true, opened := false })) :=
        h.modifyChannel q (fun _ => rfl) (fun _ => id)
      exact (hmarked.log (e := .onDestroy q) rfl).removeChannel q

lemma Quiet.remoteClose {p : Ptr} {m : Mux} (h : Quiet p m) (q : Ptr) :
    Quiet p (m.remoteClose q) := by
  simp only [Mux.remoteClose]
  split
  · exact h
  · split_ifs
    · exact h
    · have hclosed : Quiet p (m.modifyChannel q ({ · with closed := true })) :=
        h.modifyChannel q (fun _ => rfl) (fun _ => id)
      exact (hclosed.channelDestroy q).log rfl

lemma Quiet.channelClose {p : Ptr} {m : Mux} (h : Quiet p m) (q : Ptr) :
    Quiet p (m.channelClose q) := by
  simp only [Mux.channelClose]
  split
  · exact h
  · split_ifs
    · exact h
    · have hclosed : Quiet p (m.modifyChannel q ({ · with closed := true })) :=
        h.modifyChannel q (fun _ => rfl) (fun _ => id)
      exact ((hclosed.writeFrame _).log (e := .onClose q) rfl).channelDestroy q

lemma Quiet.withPending {p : Ptr} {m : Mux} (h : Quiet p m)
    (pendingRemote : Key → Option PendingOpen) :
    Quiet p { m with pendingRemote := pendingRemote } :=
  h.later (.of_channels_eq rfl rfl) rfl

lemma Quiet.dispatch {p : Ptr} {m : Mux} (h : Quiet p m) (hwf : m.Wf) {c : Channel}
    (hc : c ∈ m.channels) (hopened : c.opened = true) (type : UInt32) (data : List UInt8) :
    Quiet p (m.dispatch c.ptr type data) := by
  by_cases hp : c.ptr = p
  · subst hp
    have hsent : c.ptr < m.nextPtr ∧ ∀ d ∈ m.channels, d.ptr = c.ptr → d.openSent = true := by
      refine ⟨hwf.ptr_lt c hc, fun d hd hptr => ?_⟩
      rw [hwf.eq_of_ptr hd hc hptr]
      exact (hwf.channels c hc).openSent hopened
    rcases dispatch_eq m c.ptr type data with heq | heq <;> rw [heq] <;> exact fun _ => hsent
  · rcases dispatch_eq m c.ptr type data with heq | heq <;> rw [heq] <;>
      exact h.later (.of_channels_eq rfl rfl) (by simp [dispatched, hp])

lemma Quiet.dispatchNotify {p : Ptr} {m : Mux} (h : Quiet p m)
    (protocol id handshake : List UInt8) : Quiet p (m.dispatchNotify protocol id handshake) := by
  rcases dispatchNotify_eq m protocol id handshake with heq | ⟨slot, heq⟩ <;> rw [heq]
  · exact h
  · exact h.later (.of_channels_eq rfl rfl) (by simp [dispatched])

lemma Quiet.handle {p : Ptr} {m : Mux} (h : Quiet p m) (hwf : m.Wf) (call : Call) :
    Quiet p (m.handle call) := by
  cases call with
  | «open» data =>
    simp only [Mux.handle, handleOpen]
    split
    · exact h
    · rename_i remote _
      rcases hwf.receiveOpen_cases remote with ⟨c, -, -, -, -, heq⟩ | ⟨-, heq⟩ <;> rw [heq]
      · exact h.link c.ptr remote
      · exact (h.withPending _).dispatchNotify _ _ _
  | reject data =>
    simp only [Mux.handle, handleReject]
    split
    · exact h
    · exact h.remoteClose _
  | close data =>
    simp only [Mux.handle, handleClose]
    split
    · exact h
    · exact h.remoteClose _
  | data channelId data =>
    rw [Mux.handle, hwf.handleData_eq]
    split
    · exact h
    · obtain ⟨c, hc, rfl, -, hopened⟩ := hwf.remote _ _ ‹_›
      exact h.dispatch hwf hc hopened _ _

lemma Quiet.onData {p : Ptr} {m : Mux} (h : Quiet p m) (hwf : m.Wf) (frame : List UInt8) :
    Quiet p (m.onData frame) := by
  rw [Mux.onData]
  induction onDataCalls frame generalizing m with
  | nil => exact h
  | cons call calls ih => exact ih (h.handle hwf call) (hwf.handle call)

lemma Quiet.channelOpen {p : Ptr} {m : Mux} (h : Quiet p m) (hwf : m.Wf) (q : Ptr)
    (handshake : Bytes) : Quiet p (m.channelOpen q handshake) := by
  have hsend : ∀ c, Quiet p (m.sendOpen c handshake) := fun c =>
    (h.modifyChannel c.ptr (f := ({ · with openSent := true })) (fun _ => rfl)
      (fun _ _ => rfl)).writeFrame _
  rcases hwf.channelOpen_cases q handshake with
    ⟨-, heq⟩ | ⟨c, -, -, -, -, ⟨-, heq⟩ | ⟨k, -, remote, -, heq⟩⟩ <;> rw [heq]
  · exact h
  · exact hsend c
  · exact ((hsend c).withPending _).link q remote

lemma Quiet.createChannel {p : Ptr} {m : Mux} (h : Quiet p m) (protocol : Bytes)
    (aliases : List Bytes) (id : Bytes) (unique : Bool) :
    Quiet p (m.createChannel protocol aliases id unique).1 := by
  simp only [Mux.createChannel]
  split_ifs
  · exact h
  · exact h
  · refine h.later ⟨Nat.le_succ _, fun c' hc' => ?_⟩ rfl
    rcases List.mem_append.1 hc' with hc' | hc'
    · exact Or.inr ⟨c', hc', rfl, fun hsent => hsent⟩
    · obtain rfl := List.mem_singleton.1 hc'
      exact Or.inl (Nat.le_refl _)

lemma Quiet.closeAll {p : Ptr} {m : Mux} (h : Quiet p m) (hwf : m.Wf) (n : ℕ) :
    Quiet p (closeAll n m) := by
  induction n generalizing m with
  | zero => exact h
  | succ n ih =>
    simp only [Mux.closeAll]
    split
    · exact h
    · exact ih (h.remoteClose _) (hwf.remoteClose _)

lemma quiet_step {p : Ptr} {m : Mux} (hwf : m.Wf) (h : Quiet p m) (op : Op) :
    Quiet p (step m op) := by
  cases op with
  | createChannel protocol aliases id unique => exact h.createChannel protocol aliases id unique
  | addMessage q handler => exact h.modifyChannel q (fun _ => rfl) (fun _ => id)
  | «open» q handshake => exact h.channelOpen hwf q handshake
  | send q messageType data =>
    simp only [step, Mux.channelSend]
    split
    · exact h
    · split_ifs
      · exact h
      · exact h.writeFrame _
  | close q => exact h.channelClose q
  | cork => exact h.later (.of_channels_eq rfl rfl) rfl
  | uncork =>
    simp only [step, Mux.uncork]
    split_ifs <;> exact h.later (.of_channels_eq rfl rfl) rfl
  | onData frame => exact h.onData hwf frame
  | pair protocol id => exact h.later (.of_channels_eq rfl rfl) rfl
  | unpair protocol id => exact h.later (.of_channels_eq rfl rfl) rfl
  | onNotify callback => exact h.later (.of_channels_eq rfl rfl) rfl
  | destroy =>
    simp only [step, Mux.destroy]
    split_ifs
    · exact h
    · have hmarked : Quiet p { m with destroyed := true } := h.later (.of_channels_eq rfl rfl) rfl
      have hwf' : { m with destroyed := true }.Wf := hwf.congr rfl rfl rfl rfl hwf.corked
      exact (hmarked.closeAll hwf' _).later (.of_channels_eq rfl rfl) rfl

/-- In every reachable mux, a channel whose OPEN was not sent has dispatched nothing. -/
theorem dispatched_eq_nil_of_not_openSent (ops : List Op) {c : Channel}
    (hc : c ∈ (Runs.run step {} ops).channels) (hsent : c.openSent = false) :
    dispatched c.ptr (Runs.run step {} ops).events = [] := by
  have hinv : (Runs.run step {} ops).Wf ∧ Quiet c.ptr (Runs.run step {} ops) :=
    Runs.run_invariant (P := fun m => m.Wf ∧ Quiet c.ptr m)
      (fun m op h => ⟨wf_step m op h.1, quiet_step h.1 h.2 op⟩)
      ⟨wf_init, fun hne => absurd rfl hne⟩ ops
  by_contra hne
  have := (hinv.2 hne).2 c hc rfl
  simp [hsent] at this

lemma dispatched_channelOpen {m : Mux} (hwf : m.Wf) (p q : Ptr) (handshake : Bytes) :
    dispatched p (m.channelOpen q handshake).events = dispatched p m.events := by
  have hsend : ∀ c, (m.sendOpen c handshake).events = m.events := by
    intro c
    simp [Mux.sendOpen, Mux.modifyChannel]
  rcases hwf.channelOpen_cases q handshake with
    ⟨-, heq⟩ | ⟨c, -, -, -, -, ⟨-, heq⟩ | ⟨k, -, remote, -, heq⟩⟩ <;> rw [heq]
  · rw [hsend]
  · simp [Mux.link, hsend, dispatched]

/-- **Early data is dispatched exactly when there is none**: in every reachable mux and for
every window, opening the local channel dispatches nothing, so the data that arrived in the
window is lost. -/
theorem earlyDataDispatched_iff (before : List Op) (frame : List UInt8) (remote : PendingOpen)
    (window : List Op) (p : Ptr) (handshake : Bytes)
    (h : EarlyWindow before frame remote window p) :
    EarlyDataDispatched before frame remote window p handshake ↔
      earlyData remote.remoteLocalId window = [] := by
  obtain ⟨c, hc, rfl, -, hsent⟩ := h.created
  have hnone : dispatched c.ptr (afterWindow before frame window).events = [] :=
    dispatched_eq_nil_of_not_openSent _ hc hsent
  have hopen := dispatched_channelOpen (wf_run (before ++ .onData frame :: window)) c.ptr c.ptr
    handshake
  rw [EarlyDataDispatched, afterWindow, hopen, ← afterWindow, hnone, eq_comm]

/-! ## A message that is lost -/

/-- The OPEN of channel `localId` of the remote end for the protocol `p` with an empty id. -/
def openP (localId : UInt32) : List UInt8 :=
  openFrame localId (.single 112) .nil .nil

/-- The local end creates a channel for the protocol `p`. -/
def createP : Op := .createChannel (.single 112) [] .nil true

/-- The OPEN of `openP`, as it is stored. -/
def pendingP (localId : UInt32) : PendingOpen := ⟨localId, [], [112], []⟩

lemma earlyWindow_of_frames (frames : List (List UInt8))
    (h : (frames.flatMap onDataCalls).all fun | .close _ => false | _ => true)
    (hsmall : ((earlyData 7 (frames.map .onData ++ [createP])).map (·.2.length)).sum ≤ maxBuffered)
    (hcreated : ∃ c ∈ (afterWindow [] (openP 7) (frames.map .onData ++ [createP])).channels,
      c.ptr = 0 ∧ buildPairKey [112] [] ∈ c.pairKeys ∧ c.openSent = false) :
    EarlyWindow [] (openP 7) (pendingP 7) (frames.map .onData ++ [createP]) 0 where
  wellFormed := ⟨(openP 7).drop 2, by decide +kernel, by decide +kernel⟩
  noneOpened := by simp
  notClosed := by
    rintro op hop ⟨frame, rfl, data, hdata, -⟩
    have hframe : frame ∈ frames := by simpa [createP] using hop
    exact absurd (List.all_eq_true.1 h _ (List.mem_flatMap.2 ⟨frame, hframe, hdata⟩)) (by simp)
  bounded := hsmall
  created := hcreated

/-- Without early data nothing is lost: the window has a message for another remote id only. -/
theorem earlyDataDispatched_of_other_id :
    EarlyDataDispatched [] (openP 7) (pendingP 7) ([[8, 0, 42]].map .onData ++ [createP]) 0
      ⟨[], by decide⟩ :=
  (earlyDataDispatched_iff [] (openP 7) (pendingP 7) ([[8, 0, 42]].map .onData ++ [createP]) 0
    ⟨[], by decide⟩ (earlyWindow_of_frames _ (by decide +kernel) (by decide +kernel)
      (by decide +kernel))).2 (by decide +kernel)

/-- A message for the remote id arrives between the OPEN and the local open, and is lost. -/
theorem not_earlyDataDispatched_of_one_message :
    EarlyWindow [] (openP 7) (pendingP 7) ([[7, 0, 42]].map .onData ++ [createP]) 0 ∧
      ¬ EarlyDataDispatched [] (openP 7) (pendingP 7) ([[7, 0, 42]].map .onData ++ [createP]) 0
        ⟨[], by decide⟩ := by
  refine ⟨earlyWindow_of_frames _ (by decide +kernel) (by decide +kernel)
    (by decide +kernel), ?_⟩
  unfold EarlyDataDispatched
  decide +kernel

end HyperDHT.Protomux
