import HyperDHT.SecretStream.Delivery

/-!
# A mux over a secret stream

The wiring of the relay path in `connect.cpp` and `server.cpp`: the write function of a mux calls `write` of a duplex and
does not look at what it returns, and `on_message` gives what it gets to `on_data`. `write` refuses a frame before the
stream is connected, and the channel is opened right after the call of `start`.

## Main definitions

* `SecretStream.Wire`, `SecretStream.wireStep` — two muxes over the two ends of a stream, joined by reliable byte streams.
* `SecretStream.FramesKept` — the frames that a mux has written reach the other one, or a stream is destroyed.
* `SecretStream.WritesConnected` — the condition on the steps: a mux writes only frames that fit, and only when its stream is
  connected.

## Main results

* `SecretStream.framesKept_of_writesConnected` — runs of such steps lose no frame.
* `SecretStream.not_framesKept_openAtOnceRun` — a channel that is opened right after `start`.

## Design

The bytes on their way are those that one end has sent and the other one has not read; any number of them arrives at a
time. A frame of no bytes that `on_data` gets is a keepalive of a peer that uses them, and is not a frame of the mux.
-/

set_option autoImplicit false

namespace HyperDHT.SecretStream

open Protomux (Side Mux Op Bytes)

/-! ## What a mux writes -/

section Writes

open Protomux Protomux.Mux

/-- A mux goes on, and writes frames that are not empty. -/
structure Writes (m m' : Mux) : Prop where
  destroyed : m'.destroyed = m.destroyed
  outbox : ∃ frames, m'.outbox = m.outbox ++ frames ∧ ∀ f ∈ frames, f ≠ []

/-- A mux goes on, and writes nothing. -/
structure Silent (m m' : Mux) : Prop where
  destroyed : m'.destroyed = m.destroyed
  outbox : m'.outbox = m.outbox

lemma Silent.refl (m : Mux) : Silent m m := ⟨rfl, rfl⟩

lemma Silent.trans {m m' m'' : Mux} (h : Silent m m') (h' : Silent m' m'') : Silent m m'' :=
  ⟨h'.destroyed.trans h.destroyed, h'.outbox.trans h.outbox⟩

lemma Silent.foldl {ι : Type} {f : Mux → ι → Mux} (h : ∀ m i, Silent m (f m i)) (is : List ι) (m : Mux) :
    Silent m (is.foldl f m) := by
  induction is generalizing m with
  | nil => exact Silent.refl m
  | cons i is ih => exact (h m i).trans (ih (f m i))

lemma Silent.writes {m m' : Mux} (h : Silent m m') : Writes m m' :=
  ⟨h.destroyed, [], by simp [h.outbox], by simp⟩

lemma Writes.trans {m m' m'' : Mux} (h : Writes m m') (h' : Writes m' m'') : Writes m m'' := by
  obtain ⟨frames, hframes, hne⟩ := h.outbox
  obtain ⟨frames', hframes', hne'⟩ := h'.outbox
  refine ⟨h'.destroyed.trans h.destroyed, frames ++ frames', by rw [hframes', hframes, List.append_assoc], ?_⟩
  intro f hf
  exact (List.mem_append.1 hf).elim (hne f) (hne' f)

lemma silent_log (m : Mux) (e : Event) : Silent m (m.log e) := ⟨rfl, rfl⟩

lemma silent_modifyChannel (m : Mux) (p : Ptr) (f : Protomux.Channel → Protomux.Channel) :
    Silent m (m.modifyChannel p f) := ⟨rfl, rfl⟩

lemma silent_dispatch (m : Mux) (p : Ptr) (type : UInt32) (data : List UInt8) :
    Silent m (m.dispatch p type data) := by
  unfold Mux.dispatch
  dsimp only
  split
  · split_ifs
    · exact (silent_log m _).trans (silent_log _ _)
    · exact silent_log m _
  · exact silent_log m _

lemma silent_drainPending (m : Mux) (p : Ptr) : Silent m (m.drainPending p) := by
  unfold drainPending
  split
  · exact Silent.refl m
  · refine (silent_modifyChannel m p _).trans (Silent.foldl (fun m pm => ?_) _ _)
    unfold drainOne
    dsimp only
    generalize hm' : ({ m with bufferedBytes := _ } : Mux) = m'
    have hcount : Silent m m' := by
      rw [← hm']
      exact ⟨rfl, rfl⟩
    split
    · exact hcount
    · exact hcount.trans (silent_dispatch _ _ _ _)

lemma silent_fullyOpen (m : Mux) (p : Ptr) (handshake : List UInt8) :
    Silent m (m.fullyOpen p handshake) := by
  unfold fullyOpen
  split
  · exact Silent.refl m
  · split_ifs
    · exact Silent.refl m
    · exact ((silent_modifyChannel m p _).trans (silent_log _ _)).trans (silent_drainPending _ _)

lemma silent_tryPair (m : Mux) (p : Ptr) (remote : PendingOpen) : Silent m (m.tryPair p remote) := by
  refine Silent.trans ?_ (silent_fullyOpen _ p remote.handshake)
  exact ⟨rfl, rfl⟩

lemma silent_removeChannel (m : Mux) (p : Ptr) : Silent m (m.removeChannel p) := by
  unfold removeChannel
  split <;> exact ⟨rfl, rfl⟩

lemma silent_channelDestroy (m : Mux) (p : Ptr) : Silent m (m.channelDestroy p) := by
  unfold channelDestroy
  split
  · exact Silent.refl m
  · split_ifs
    · exact Silent.refl m
    · exact ((silent_modifyChannel m p _).trans (silent_log _ _)).trans (silent_removeChannel _ p)

lemma silent_remoteClose (m : Mux) (p : Ptr) : Silent m (m.remoteClose p) := by
  unfold remoteClose
  split
  · exact Silent.refl m
  · split_ifs
    · exact Silent.refl m
    · exact ((silent_modifyChannel m p _).trans (silent_channelDestroy _ p)).trans (silent_log _ _)

lemma silent_dispatchNotify (m : Mux) (protocol id handshake : List UInt8) :
    Silent m (m.dispatchNotify protocol id handshake) := by
  unfold dispatchNotify
  dsimp only
  split_ifs
  · exact silent_log m _
  · exact silent_log m _
  · exact silent_log m _
  · exact Silent.refl m

lemma silent_handle (m : Mux) (call : Protomux.Call) : Silent m (m.handle call) := by
  cases call with
  | «open» data =>
    simp only [Mux.handle, handleOpen]
    split
    · exact Silent.refl m
    · unfold receiveOpen
      dsimp only
      split
      · exact silent_tryPair m _ _
      · refine Silent.trans ?_ (silent_dispatchNotify _ _ _ _)
        exact ⟨rfl, rfl⟩
  | reject data =>
    simp only [Mux.handle, handleReject]
    split
    · exact Silent.refl m
    · exact silent_remoteClose m _
  | close data =>
    simp only [Mux.handle, handleClose]
    split
    · exact Silent.refl m
    · exact silent_remoteClose m _
  | data channelId data =>
    simp only [Mux.handle, handleData]
    split
    · exact Silent.refl m
    · split_ifs
      · exact Silent.refl m
      · exact Silent.refl m
      · exact ⟨rfl, rfl⟩
      · exact silent_dispatch m _ _ _

/-- **Receiving** writes nothing. -/
theorem silent_onData (m : Mux) (frame : List UInt8) : Silent m (m.onData frame) :=
  Silent.foldl silent_handle _ m

lemma writes_writeFrame (m : Mux) {frame : List UInt8} (h : frame ≠ []) :
    Writes m (m.writeFrame frame) := by
  unfold writeFrame
  split_ifs
  · exact (Silent.refl m).writes
  · exact Silent.writes ⟨rfl, rfl⟩
  · exact ⟨rfl, [frame], rfl, by simpa using h⟩

lemma writes_uncork (m : Mux) : Writes m m.uncork := by
  unfold uncork
  split_ifs with hlow hnested hempty
  · exact Silent.writes ⟨rfl, rfl⟩
  · exact Silent.writes ⟨rfl, rfl⟩
  · exact Silent.writes ⟨rfl, rfl⟩
  · refine ⟨rfl, [batchFrame m.batch], rfl, ?_⟩
    cases hbatch : m.batch with
    | nil => exact absurd hbatch hempty
    | cons e es => simp [batchFrame]

lemma silent_closeAll (n : ℕ) (m : Mux) : Silent m (closeAll n m) := by
  induction n generalizing m with
  | zero => exact Silent.refl m
  | succ n ih =>
    rw [closeAll]
    split
    · exact Silent.refl m
    · exact (silent_remoteClose m _).trans (ih _)

/-- **A call** writes frames that are not empty, and a destroyed mux stays so. -/
theorem step_writes (m : Mux) (op : Op) :
    (m.destroyed = true → (Protomux.step m op).destroyed = true) ∧
      ∃ frames, (Protomux.step m op).outbox = m.outbox ++ frames ∧ ∀ f ∈ frames, f ≠ [] := by
  have hwrites : ∀ {m'}, Writes m m' → (m.destroyed = true → m'.destroyed = true) ∧
      ∃ frames, m'.outbox = m.outbox ++ frames ∧ ∀ f ∈ frames, f ≠ [] :=
    fun h => ⟨fun hdestroyed => h.destroyed.trans hdestroyed, h.outbox⟩
  cases op with
  | createChannel protocol aliases id unique =>
    refine hwrites (Silent.writes ?_)
    simp only [Protomux.step, createChannel]
    split_ifs <;> exact ⟨rfl, rfl⟩
  | addMessage p handler => exact hwrites (Silent.writes ⟨rfl, rfl⟩)
  | «open» p handshake =>
    refine hwrites ?_
    simp only [Protomux.step, channelOpen]
    split
    · exact (Silent.refl m).writes
    · split_ifs
      · exact (Silent.refl m).writes
      · rename_i c _ _
        have hne : openFrame c.localId c.protocol c.id handshake ≠ [] := by
          simp [openFrame, varintEncode_ne_nil]
        have hopen : Writes m ((m.modifyChannel p ({ · with openSent := true })).writeFrame
            (openFrame c.localId c.protocol c.id handshake)) :=
          (silent_modifyChannel m p _).writes.trans (writes_writeFrame _ hne)
        split
        · exact hopen
        · refine hopen.trans (Silent.writes (Silent.trans ?_ (silent_tryPair _ p _)))
          exact ⟨rfl, rfl⟩
  | send p messageType data =>
    refine hwrites ?_
    simp only [Protomux.step, channelSend]
    split
    · exact (Silent.refl m).writes
    · split_ifs
      · exact (Silent.refl m).writes
      · exact writes_writeFrame m (by simp [dataFrame, varintEncode_ne_nil])
  | close p =>
    refine hwrites ?_
    simp only [Protomux.step, channelClose]
    split
    · exact (Silent.refl m).writes
    · split_ifs
      · exact (Silent.refl m).writes
      · rename_i c _ _
        have hne : closeFrame c.localId ≠ [] := by simp [closeFrame, varintEncode_ne_nil]
        have hclose : Writes m ((m.modifyChannel p ({ · with closed := true })).writeFrame
            (closeFrame c.localId)) :=
          (silent_modifyChannel m p _).writes.trans (writes_writeFrame _ hne)
        exact hclose.trans ((silent_log _ _).trans (silent_channelDestroy _ p)).writes
  | cork => exact hwrites (Silent.writes ⟨rfl, rfl⟩)
  | uncork => exact hwrites (writes_uncork m)
  | onData frame => exact hwrites (silent_onData m frame).writes
  | pair protocol id => exact hwrites (Silent.writes ⟨rfl, rfl⟩)
  | unpair protocol id => exact hwrites (Silent.writes ⟨rfl, rfl⟩)
  | onNotify callback => exact hwrites (Silent.writes ⟨rfl, rfl⟩)
  | destroy =>
    simp only [Protomux.step, Mux.destroy]
    split_ifs with hdestroyed
    · exact ⟨id, [], by simp, by simp⟩
    · have hclose := silent_closeAll m.channels.length { m with destroyed := true }
      exact ⟨fun _ => hclose.destroyed, [], by simp [hclose.outbox], by simp⟩

end Writes

/-! ## The wiring -/

/-- Two muxes over the two ends of a stream. -/
structure Wire where
  pair : Pair
  mux : Side → Mux := fun _ => {}
  /-- The frames that a mux has passed to its write function. -/
  passed : Side → List (List UInt8) := fun _ => []
  /-- The frames that were given to `on_data` of a mux. -/
  onData : Side → List (List UInt8) := fun _ => []

/-- What can happen: the start of a duplex, the acknowledgement of its header, the arrival of some bytes that the other
end has sent, the timer of its keepalives, its destruction, and a call of a method of a mux or its channels. -/
inductive WireInput where
  | start (side : Side)
  | headerAck (side : Side)
  | arrive (side : Side) (count : ℕ)
  | keepAlive (side : Side)
  | destroy (side : Side) (error : Int)
  | call (side : Side) (op : Op)

namespace Wire

/-- The write function of a mux, which does not look at what `write` returns. -/
def writeFunction (L : Sodium) (s : Side) (w : Wire) (frame : List UInt8) : Wire :=
  { w with
    pair := pairStep L w.pair (s, .write frame)
    passed := Function.update w.passed s (w.passed s ++ [frame]) }

/-- The `on_message` callback of a duplex. -/
def onMessage (s : Side) (w : Wire) (data : List UInt8) : Wire :=
  if (w.mux s).destroyed then w
  else
    { w with
      mux := Function.update w.mux s ((w.mux s).onData data)
      onData := Function.update w.onData s (w.onData s ++ [data]) }

/-- A duplex takes an input, and its new messages go to the mux. -/
def stream (L : Sodium) (w : Wire) (s : Side) (i : Input) : Wire :=
  let pair := pairStep L w.pair (s, i)
  ((pair.duplex s).messages.drop (w.pair.duplex s).messages.length).foldl (onMessage s)
    { w with pair := pair }

/-- A call of a method of a mux, and its new frames go to the duplex. -/
def call (L : Sodium) (w : Wire) (s : Side) (op : Op) : Wire :=
  let m := Protomux.step (w.mux s) op
  m.outbox.foldl (writeFunction L s)
    { w with mux := Function.update w.mux s { m with outbox := [] } }

/-- The bytes on their way to a side. -/
def inFlight (w : Wire) (s : Side) : List UInt8 :=
  (w.pair.duplex s.other).sent.drop (w.pair.fed s).length

end Wire

/-- A step of the two ends. -/
def wireStep (L : Sodium) (w : Wire) : WireInput → Wire
  | .start s => w.stream L s .start
  | .headerAck s => w.stream L s (.headerAck 0)
  | .arrive s count => w.stream L s (.read ((w.inFlight s).take count))
  | .keepAlive s => w.stream L s .keepAlive
  | .destroy s error => w.stream L s (.destroy error)
  | .call s op => w.call L s op

/-- The wiring before anything happens. -/
def Wire.init (L : Sodium) (ends : Ends) : Wire := { pair := Pair.init L ends }

/-- The frames of a mux among some messages. -/
def framesOf (messages : List (List UInt8)) : List (List UInt8) := messages.filter (· ≠ [])

/-- **No frame of `s` is lost**: the frames that `on_data` of the other side was given are the first ones that the mux
of `s` has passed to its write function, and all of them once all bytes and the acknowledgement of the header have arrived;
or a stream, or the mux that should get them, was destroyed. -/
def FramesKeptFrom (s : Side) (w : Wire) : Prop :=
  (w.pair.duplex s).destroyed = true ∨ (w.pair.duplex s.other).destroyed = true ∨
    (w.mux s.other).destroyed = true ∨
      (framesOf (w.onData s.other) <+: w.passed s ∧
        (w.inFlight s.other = [] → (w.pair.duplex s.other).headerSent = true →
          framesOf (w.onData s.other) = w.passed s))

instance (s : Side) (w : Wire) : Decidable (FramesKeptFrom s w) :=
  inferInstanceAs (Decidable (_ ∨ _ ∨ _ ∨ (_ ∧ (_ → _ → _))))

/-- No frame is lost. -/
def FramesKept (w : Wire) : Prop := ∀ s, FramesKeptFrom s w

/-- The condition on the steps: a mux passes a frame to its write function only when its stream is connected, or destroyed,
and only a frame that `write` has room for. -/
def WritesConnected (w : Wire) : WireInput → Prop
  | .call s op => (Protomux.step (w.mux s) op).outbox = [] ∨ (w.pair.duplex s).destroyed = true ∨
      ((w.pair.duplex s).connected = true ∧
        ∀ frame ∈ (Protomux.step (w.mux s) op).outbox, frame.length ≤ maxAtomicWrite)
  | _ => True

instance (w : Wire) : (i : WireInput) → Decidable (WritesConnected w i)
  | .call _ _ => inferInstanceAs (Decidable (_ ∨ _ ∨ (_ ∧ ∀ _ ∈ _, _)))
  | .start _ => .isTrue trivial
  | .headerAck _ => .isTrue trivial
  | .arrive _ _ => .isTrue trivial
  | .keepAlive _ => .isTrue trivial
  | .destroy _ _ => .isTrue trivial

/-! ## What a step of a duplex does to the wiring -/

namespace Duplex

variable {L : Sodium} {peer : PushState}

/-- What goes on in one direction: messages are added, and a destroyed stream stays so. -/
structure Grows (d d' : Duplex) : Prop where
  messages : d.messages <+: d'.messages
  destroyed : d.destroyed = true → d'.destroyed = true

lemma Grows.refl (d : Duplex) : Grows d d := ⟨List.prefix_rfl, id⟩

lemma Grows.trans {d d' d'' : Duplex} (h : Grows d d') (h' : Grows d' d'') : Grows d d'' :=
  ⟨h.messages.trans h'.messages, fun hdestroyed => h'.destroyed (h.destroyed hdestroyed)⟩

lemma grows_destroy (d : Duplex) (error : Int) : Grows d (d.destroy error) := by
  unfold Duplex.destroy
  split_ifs
  · exact Grows.refl d
  · exact ⟨List.prefix_rfl, fun _ => rfl⟩

lemma grows_maybeFireConnect (d : Duplex) : Grows d d.maybeFireConnect := by
  rcases maybeFireConnect_cases d with ⟨heq, -⟩ | ⟨-, -, heq⟩
  · rw [heq]
    exact Grows.refl d
  · rw [heq]
    exact ⟨List.prefix_append _ _, id⟩

lemma grows_handleFrame (d : Duplex) (msg : List UInt8) : Grows d (d.handleFrame L peer msg) := by
  rcases @handleFrame_cases L peer d msg with
    ⟨-, -, error, heq⟩ | ⟨-, crypto, -, heq⟩ |
      ⟨-, crypto, plain, -, ⟨-, heq⟩ | ⟨pt, -, ⟨-, heq⟩ | ⟨-, heq⟩⟩⟩
  · rw [heq]
    refine Grows.trans ?_ (grows_destroy _ _)
    exact ⟨List.prefix_rfl, id⟩
  · rw [heq]
    refine Grows.trans ?_ (grows_maybeFireConnect _)
    exact ⟨List.prefix_rfl, id⟩
  · rw [heq]
    exact ⟨List.prefix_rfl, id⟩
  · rw [heq]
    exact ⟨List.prefix_append _ _, id⟩
  · rw [heq]
    split_ifs
    · refine Grows.trans ?_ (grows_destroy _ _)
      exact ⟨List.prefix_rfl, id⟩
    · exact ⟨List.prefix_rfl, id⟩

lemma grows_processIncomingBytes (d : Duplex) (data : List UInt8) :
    Grows d (d.processIncomingBytes L peer data) := by
  unfold Duplex.processIncomingBytes
  split_ifs
  · exact Grows.refl d
  · refine drain_induction (P := Grows d) ?_ ?_ ?_ ⟨List.prefix_rfl, id⟩
    · exact fun d' bytes h => h.trans ⟨List.prefix_rfl, id⟩
    · exact fun d' msg _ h => h.trans (grows_handleFrame d' msg)
    · exact fun d' error h => h.trans (grows_destroy d' error)

lemma Wf.grows_write {d : Duplex} (h : d.Wf L) (data : List UInt8) :
    Grows d (d.write L data).1 ∧ (d.write L data).1.ended = d.ended := by
  rcases h.write_cases data with ⟨rc, -, heq⟩ | ⟨-, -, -, -, heq⟩
  · rw [heq]
    exact ⟨Grows.refl d, rfl⟩
  · rw [heq]
    exact ⟨⟨List.prefix_rfl, id⟩, rfl⟩

/-- **Every input but `end`**. -/
lemma Wf.grows_step {d : Duplex} (h : d.Wf L) {i : Input} (hend : i ≠ .end) :
    Grows d (d.step L peer i) ∧ (d.step L peer i).ended = d.ended := by
  cases i with
  | start =>
    rcases h.start_cases with heq | ⟨-, -, heq⟩
    · simp only [Duplex.step, heq]
      exact ⟨Grows.refl d, trivial⟩
    · simp only [Duplex.step, heq]
      exact ⟨⟨List.prefix_rfl, id⟩, trivial⟩
  | headerAck status =>
    simp only [Duplex.step]
    by_cases hstarted : d.started = true
    · rw [if_pos hstarted, Duplex.headerAck]
      by_cases hok : status ≥ 0
      · rw [if_pos hok]
        refine ⟨Grows.trans ?_ (grows_maybeFireConnect { d with headerSent := true }),
          (kept_maybeFireConnect { d with headerSent := true }).ended⟩
        exact ⟨List.prefix_rfl, id⟩
      · rw [if_neg hok]
        exact ⟨grows_destroy d status, (kept_destroy d status).ended⟩
    · rw [if_neg hstarted]
      exact ⟨Grows.refl d, rfl⟩
  | read data => exact ⟨grows_processIncomingBytes d _, (kept_processIncomingBytes d _).ended⟩
  | write data => exact h.grows_write data
  | keepAlive =>
    simp only [Duplex.step, writes]
    split_ifs
    · exact h.grows_write []
    · exact ⟨Grows.refl d, rfl⟩
  | «end» => exact absurd rfl hend
  | destroy error => exact ⟨grows_destroy d error, (kept_destroy d error).ended⟩

lemma framesOf_accepts {d : Duplex} {i : Input} (hwrite : ∀ data, i ≠ .write data) :
    framesOf (d.accepts L i) = [] := by
  cases i with
  | write data => exact absurd rfl (hwrite data)
  | keepAlive =>
    simp only [accepts, writes]
    split_ifs
    · simp only [framesOf, List.filter_filter]
      simp
    · rfl
  | _ => rfl

end Duplex

/-! ## Runs -/

section Runs

variable {L : Sodium} {ends : Ends}

lemma framesOf_append (xs ys : List (List UInt8)) : framesOf (xs ++ ys) = framesOf xs ++ framesOf ys :=
  List.filter_append xs ys

lemma framesOf_visible (keepAliveMs : UInt64) (messages : List (List UInt8)) :
    framesOf (visible keepAliveMs messages) = framesOf messages := by
  unfold framesOf visible
  split_ifs
  · rw [List.filter_filter]
    simp
  · rfl

/-- What holds of the wiring in every state of a run whose steps meet the condition. -/
structure Wire.Wf (L : Sodium) (ends : Ends) (w : Wire) : Prop where
  pair : w.pair.Wf L ends
  honest : ∀ t, w.pair.Honest t
  ended : ∀ s, (w.pair.duplex s).ended = false
  outbox : ∀ s, (w.mux s).outbox = []
  passed : ∀ s, (w.pair.duplex s).destroyed = true ∨ framesOf (w.pair.written s) = w.passed s
  received : ∀ s, (w.mux s).destroyed = true ∨ w.onData s = (w.pair.duplex s).messages

lemma wireWf_init (hagree : ends.Agree) : (Wire.init L ends).Wf L ends where
  pair := pairWf_init
  honest := honest_init hagree
  ended _ := rfl
  outbox _ := rfl
  passed _ := .inr rfl
  received _ := .inr rfl

lemma foldl_onMessage (s : Side) (w : Wire) (messages : List (List UInt8)) :
    let w' := messages.foldl (Wire.onMessage s) w
    w'.pair = w.pair ∧ w'.passed = w.passed ∧ (∀ t, Silent (w.mux t) (w'.mux t)) ∧
      (∀ t, t ≠ s → w'.onData t = w.onData t) ∧
        ((w.mux s).destroyed = true ∨ w'.onData s = w.onData s ++ messages) := by
  induction messages generalizing w with
  | nil => exact ⟨rfl, rfl, fun t => Silent.refl _, fun t _ => rfl, .inr (by simp)⟩
  | cons data messages ih =>
    obtain ⟨hpair, hpassed, hmux, hother, hself⟩ := ih (w.onMessage s data)
    rw [List.foldl_cons]
    by_cases hdestroyed : (w.mux s).destroyed = true
    · have heq : w.onMessage s data = w := by rw [Wire.onMessage, if_pos hdestroyed]
      rw [heq] at hpair hpassed hmux hother ⊢
      exact ⟨hpair, hpassed, hmux, hother, .inl hdestroyed⟩
    · have heq : w.onMessage s data =
          { w with
            mux := Function.update w.mux s ((w.mux s).onData data)
            onData := Function.update w.onData s (w.onData s ++ [data]) } := by
        rw [Wire.onMessage, if_neg hdestroyed]
      rw [heq] at hpair hpassed hmux hother hself ⊢
      refine ⟨hpair, hpassed, fun t => Silent.trans ?_ (hmux t), fun t ht => ?_, ?_⟩
      · rcases eq_or_ne t s with rfl | hne
        · simpa using silent_onData (w.mux t) data
        · simpa [hne] using Silent.refl (w.mux t)
      · simpa [ht] using hother t ht
      · refine hself.imp (fun htrue => ?_) fun hall => ?_
        · rw [← (silent_onData (w.mux s) data).destroyed]
          simpa using htrue
        · simpa using hall

/-- **An input of a duplex**: only what the other end has sent arrives, and all that it delivers goes to the mux. -/
lemma wireWf_stream {w : Wire} (h : w.Wf L ends) (s : Side) {i : Input} (hend : i ≠ .end)
    (hwrite : ∀ data, i ≠ .write data)
    (hfed : w.pair.fed s ++ (w.pair.duplex s).reads i <+: (w.pair.duplex s.other).sent) :
    (w.stream L s i).Wf L ends := by
  obtain ⟨hgrows, hended⟩ :=
    @Duplex.Wf.grows_step L (w.pair.duplex s.other).crypto.push _ (h.pair.wf s) i hend
  have hduplex : (pairStep L w.pair (s, i)).duplex s =
      (w.pair.duplex s).step L (w.pair.duplex s.other).crypto.push i := by simp [pairStep]
  have hothers : ∀ t, t ≠ s → (pairStep L w.pair (s, i)).duplex t = w.pair.duplex t :=
    fun t ht => by simp [pairStep, ht]
  obtain ⟨hpair, hpassed, hmux, hother, hself⟩ := foldl_onMessage s
    { w with pair := pairStep L w.pair (s, i) }
    (((pairStep L w.pair (s, i)).duplex s).messages.drop (w.pair.duplex s).messages.length)
  refine
    { pair := hpair ▸ pairWf_step w.pair (s, i) h.pair
      honest := fun t => hpair ▸ (h.honest t).step h.pair (s, i) fun hs => by subst hs; exact hfed
      ended := fun t => ?_
      outbox := fun t => (hmux t).outbox.trans (h.outbox t)
      passed := fun t => ?_
      received := fun t => ?_ }
  · rw [Wire.stream, hpair]
    rcases eq_or_ne t s with rfl | hne
    · simp only [hduplex, hended, h.ended]
    · simp only [hothers t hne, h.ended]
  · rw [Wire.stream, hpair, hpassed]
    rcases eq_or_ne t s with rfl | hne
    · refine (h.passed t).imp (fun hdestroyed => ?_) fun hpassed => ?_
      · simp only [hduplex]
        exact hgrows.destroyed hdestroyed
      · simp [pairStep, framesOf_append, Duplex.framesOf_accepts hwrite, hpassed]
    · simpa [pairStep, hne] using h.passed t
  · rw [Wire.stream, hpair, (hmux t).destroyed]
    rcases eq_or_ne t s with rfl | hne
    · refine or_iff_not_imp_left.2 fun hlive => ?_
      obtain ⟨more, hmore⟩ := hgrows.messages
      rw [hself.resolve_left hlive, (h.received t).resolve_left hlive]
      simp only [hduplex, ← hmore, List.drop_left]
    · simpa [hother t hne, hothers t hne] using h.received t

/-- **A frame** that is passed to the write function. -/
lemma wireWf_writeFunction {w : Wire} (h : w.Wf L ends) (s : Side) {frame : List UInt8}
    (hne : frame ≠ []) (hfits : (w.pair.duplex s).destroyed = true ∨
      ((w.pair.duplex s).connected = true ∧ frame.length ≤ maxAtomicWrite)) :
    (w.writeFunction L s frame).Wf L ends ∧
      ((w.pair.duplex s).destroyed = true →
        ((w.writeFunction L s frame).pair.duplex s).destroyed = true) ∧
        ((w.pair.duplex s).connected = true →
          ((w.writeFunction L s frame).pair.duplex s).connected = true) := by
  have hwf := h.pair.wf s
  obtain ⟨hgrows, hended⟩ := hwf.grows_write frame
  have hduplex : (pairStep L w.pair (s, .write frame)).duplex s =
      ((w.pair.duplex s).write L frame).1 := by simp [pairStep, Duplex.step]
  have hothers : ∀ t, t ≠ s → (pairStep L w.pair (s, .write frame)).duplex t = w.pair.duplex t :=
    fun t ht => by simp [pairStep, ht]
  have hmessages : ((w.pair.duplex s).write L frame).1.messages = (w.pair.duplex s).messages ∧
      ((w.pair.duplex s).write L frame).1.connected = (w.pair.duplex s).connected := by
    rcases hwf.write_cases frame with ⟨rc, -, heq⟩ | ⟨-, -, -, -, heq⟩
    · rw [heq]
      exact ⟨rfl, rfl⟩
    · rw [heq]
      exact ⟨rfl, rfl⟩
  refine ⟨?_, fun hdestroyed => ?_, fun hconnected => ?_⟩
  · refine
      { pair := pairWf_step w.pair (s, .write frame) h.pair
        honest := fun t => (h.honest t).step h.pair (s, .write frame) fun hs => ?_
        ended := fun t => ?_
        outbox := h.outbox
        passed := fun t => ?_
        received := fun t => ?_ }
    · subst hs
      simpa [Duplex.reads] using (h.honest s).fed
    · rcases eq_or_ne t s with rfl | hne
      · simp only [Wire.writeFunction, hduplex, hended, h.ended]
      · simp only [Wire.writeFunction, hothers t hne, h.ended]
    · rcases eq_or_ne t s with rfl | hne'
      · cases hdestroyed : (w.pair.duplex t).destroyed with
        | true =>
          left
          simp only [Wire.writeFunction, hduplex]
          exact hgrows.destroyed hdestroyed
        | false =>
          obtain ⟨hconnected, hlength⟩ := hfits.resolve_left (by simp [hdestroyed])
          have haccepted := hwf.write_eq hdestroyed (h.ended t) hconnected hlength
          have hpassed := (h.passed t).resolve_left (by simp [hdestroyed])
          have haccepts : (w.pair.duplex t).accepts L (.write frame) = [frame] := by
            simp [Duplex.accepts, Duplex.writes, haccepted]
          have hframe : framesOf [frame] = [frame] := by simp [framesOf, hne]
          right
          simp only [Wire.writeFunction, pairStep, Function.update_self]
          rw [framesOf_append, hpassed, haccepts, hframe]
      · simpa [Wire.writeFunction, pairStep, hne'] using h.passed t
    · rcases eq_or_ne t s with rfl | hne'
      · simpa only [Wire.writeFunction, hduplex, hmessages.1] using h.received t
      · simpa only [Wire.writeFunction, hothers t hne'] using h.received t
  · simp only [Wire.writeFunction, hduplex]
    exact hgrows.destroyed hdestroyed
  · simp only [Wire.writeFunction, hduplex, hmessages.2, hconnected]

lemma wireWf_flush {w : Wire} (h : w.Wf L ends) (s : Side) {frames : List (List UInt8)}
    (hne : ∀ f ∈ frames, f ≠ []) (hfits : frames = [] ∨ (w.pair.duplex s).destroyed = true ∨
      ((w.pair.duplex s).connected = true ∧ ∀ f ∈ frames, f.length ≤ maxAtomicWrite)) :
    (frames.foldl (Wire.writeFunction L s) w).Wf L ends := by
  induction frames generalizing w with
  | nil => exact h
  | cons f frames ih =>
    have hfits := hfits.resolve_left (by simp)
    obtain ⟨hwf, hdestroyed, hconnected⟩ := wireWf_writeFunction h s (hne f (by simp))
      (hfits.imp id fun hboth => ⟨hboth.1, hboth.2 f (by simp)⟩)
    refine ih hwf (fun g hg => hne g (by simp [hg])) (.inr ?_)
    exact hfits.imp hdestroyed fun hboth =>
      ⟨hconnected hboth.1, fun g hg => hboth.2 g (by simp [hg])⟩

/-- **Every step** that meets the condition. -/
theorem wireWf_step (w : Wire) (i : WireInput) (h : w.Wf L ends) (hwrites : WritesConnected w i) :
    (wireStep L w i).Wf L ends := by
  have hnone : ∀ s {i : Input}, (w.pair.duplex s).reads i = [] →
      w.pair.fed s ++ (w.pair.duplex s).reads i <+: (w.pair.duplex s.other).sent := by
    intro s i hreads
    rw [hreads, List.append_nil]
    exact (h.honest s).fed
  cases i with
  | start s => exact wireWf_stream h s (by simp) (by simp) (hnone s rfl)
  | headerAck s => exact wireWf_stream h s (by simp) (by simp) (hnone s rfl)
  | arrive s count =>
    refine wireWf_stream h s (by simp) (by simp) ?_
    simp only [Duplex.reads]
    split_ifs
    · obtain ⟨more, hmore⟩ := (h.honest s).fed
      rw [Wire.inFlight, ← hmore, List.drop_left]
      exact (List.prefix_append_right_inj _).2 (List.take_prefix count more)
    · rw [List.append_nil]
      exact (h.honest s).fed
  | keepAlive s => exact wireWf_stream h s (by simp) (by simp) (hnone s rfl)
  | destroy s error => exact wireWf_stream h s (by simp) (by simp) (hnone s rfl)
  | call s op =>
    obtain ⟨hdestroyed, frames, hframes, hne⟩ := step_writes (w.mux s) op
    rw [h.outbox s, List.nil_append] at hframes
    refine wireWf_flush ?_ s (by rwa [hframes]) hwrites
    refine { h with outbox := fun t => ?_, received := fun t => ?_ }
    · rcases eq_or_ne t s with rfl | hne'
      · simp
      · simpa [hne'] using h.outbox t
    · rcases eq_or_ne t s with rfl | hne'
      · simpa using (h.received t).imp hdestroyed id
      · simpa [hne'] using h.received t

lemma framesKept_of_wf {w : Wire} (h : w.Wf L ends) : FramesKept w := by
  intro s
  cases hsender : (w.pair.duplex s).destroyed with
  | true => exact .inl hsender
  | false =>
    cases hreceiver : (w.pair.duplex s.other).destroyed with
    | true => exact .inr (.inl hreceiver)
    | false =>
      cases hmux : (w.mux s.other).destroyed with
      | true => exact .inr (.inr (.inl hmux))
      | false =>
        have hpassed := (h.passed s).resolve_left (by simp [hsender])
        have honData := (h.received s.other).resolve_left (by simp [hmux])
        have hsound := h.pair.sound s.other
        have hdelivers := delivers_of_honest h.pair (h.honest s.other) hreceiver
        simp only [Pair.Delivers, Side.other_other] at hdelivers
        rw [Side.other_other] at hsound
        refine .inr (.inr (.inr ⟨?_, fun harrived hsent => ?_⟩))
        · rw [honData, ← hpassed, h.pair.written, ← framesOf_visible (w.pair.duplex s.other).keepAliveMs
            (w.pair.duplex s).crypto.push.pushed]
          exact (hsound.messages.trans (visible_isPrefix (List.take_prefix _ _))).filter _
        · -- all bytes have arrived
          have hfed : w.pair.fed s.other = (w.pair.duplex s).sent := by
            obtain ⟨more, hmore⟩ := (h.honest s.other).fed
            rw [Side.other_other] at hmore
            rw [Wire.inFlight, Side.other_other, ← hmore, List.drop_left] at harrived
            rw [← hmore, harrived, List.append_nil]
          have hcount := hdelivers.2.2 hfed
          cases hreceived : (w.pair.duplex s.other).headerReceived with
          | true =>
            have hconnected := (h.pair.wf s.other).prompt hsent hreceived
            rw [honData, hdelivers.2.1 hconnected, framesOf_visible, hcount, List.take_length, hpassed]
          | false =>
            -- nothing was sent, not even the header
            have hpull : (w.pair.duplex s.other).crypto.pull = none := by
              have := (h.pair.wf s.other).pull
              rwa [hreceived, Option.isSome_eq_false_iff, Option.isNone_iff_eq_none] at this
            have hhandled : (w.pair.duplex s.other).handled = [] := by
              by_contra hne
              obtain ⟨p, hp, -⟩ := (h.honest s.other).tracks.later hne
              rw [hpull] at hp
              cases hp
            have hframes := ((h.pair.framed s.other).complete hreceiver).1
            rw [arrived, ← hframes, hhandled] at hcount
            have hwritten : w.pair.written s = [] := List.length_eq_zero_iff.1 hcount.symm
            have hmessages : (w.pair.duplex s.other).messages = [] := by
              refine (h.pair.wf s.other).messages ?_
              by_contra hconnected
              have := ((h.pair.wf s.other).connected (by simpa using hconnected)).2
              rw [hreceived] at this
              cases this
            rw [honData, hmessages, ← hpassed, hwritten]

/-- **No frame is lost** in a run whose muxes write only when their streams are connected. -/
theorem framesKept_of_writesConnected (L : Sodium) {ends : Ends} (hagree : ends.Agree) {run : List WireInput}
    (hwrites : Runs.EveryStep (wireStep L) WritesConnected (Wire.init L ends) run) :
    Runs.EveryState (wireStep L) FramesKept (Wire.init L ends) run :=
  (Runs.everyState_of_everyStep wireWf_step (wireWf_init hagree) hwrites).mono
    fun _ h => framesKept_of_wf h

end Runs

/-! ## Two runs -/

def plainName : Bytes := .single 1

def openAtOnceRun : List WireInput :=
  [.start .a, .start .b, .call .a (.createChannel plainName [] plainName false),
    .call .a (.open 0 .nil), .headerAck .a, .headerAck .b, .arrive .a 100, .arrive .b 100]

def openConnectedRun : List WireInput :=
  [.start .a, .start .b, .headerAck .a, .headerAck .b, .arrive .a 100, .arrive .b 40,
    .call .a (.createChannel plainName [] plainName false), .call .a (.open 0 .nil),
    .arrive .b 30, .arrive .b 30]

theorem framesKept_openConnectedRun :
    Runs.EveryState (wireStep plainSodium) FramesKept (Wire.init plainSodium plainEnds) openConnectedRun := by
  refine framesKept_of_writesConnected plainSodium ⟨?_, ?_, ?_⟩ (by decide +kernel)
  all_goals
    intro s
    cases s <;> rfl

/-- The OPEN of a channel that is opened at once never arrives, and no stream is destroyed. -/
theorem not_framesKept_openAtOnceRun :
    ¬ FramesKept (Runs.run (wireStep plainSodium) (Wire.init plainSodium plainEnds) openAtOnceRun) := by
  intro h
  exact absurd (h .a) (by decide +kernel)

end HyperDHT.SecretStream
