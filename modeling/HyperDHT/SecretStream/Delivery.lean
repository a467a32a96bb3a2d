import HyperDHT.Lib.Runs
import HyperDHT.Protomux.Network
import HyperDHT.SecretStream.Invariant

/-!
# What a secret stream delivers

Two duplexes, the two ends of one connection, and a network that may feed any bytes to either of them.

## Main definitions

* `SecretStream.Pair`, `pairStep` — the two ends, with what each has read and what `write` has accepted.
* `SecretStream.arrived` — how many messages have arrived as whole frames.
* `SecretStream.HonestLink` — the condition on the steps under which a side reads the bytes of the other one, and nothing
  but the parser can destroy its stream.

## Main results

* `SecretStream.delivery` — what is delivered is a first part of what was written, under any network; how the bytes are
  cut into chunks does not matter; and over an honest link everything is delivered.
-/

set_option autoImplicit false

namespace HyperDHT.SecretStream

open Protomux (Side)

/-! ## Two ends -/

/-- What the constructors of the two ends are given. -/
structure Ends where
  handshake : Side → DuplexHandshake
  header : Side → Header
  keepAliveMs : Side → UInt64

/-- The two ends come from one Noise handshake. -/
structure Ends.Agree (ends : Ends) : Prop where
  key : ∀ s : Side, (ends.handshake s).rxKey = (ends.handshake s.other).txKey
  hash : ∀ s : Side, (ends.handshake s).handshakeHash = (ends.handshake s.other).handshakeHash
  role : ∀ s : Side, (ends.handshake s).isInitiator = !(ends.handshake s.other).isInitiator

/-- The messages of an input that `write` accepts. -/
def Duplex.accepts (L : Sodium) (d : Duplex) (i : Input) : List (List UInt8) :=
  (d.writes i).filter fun data => (d.write L data).2 = 0

/-- Two duplexes. -/
structure Pair where
  duplex : Side → Duplex
  /-- The bytes that were given to `process_incoming_bytes`. -/
  fed : Side → List UInt8 := fun _ => []
  /-- The messages that `write` has accepted. -/
  written : Side → List (List UInt8) := fun _ => []

/-- The two ends before anything happens. -/
def Pair.init (L : Sodium) (ends : Ends) : Pair where
  duplex s := Duplex.new L (ends.handshake s) (ends.header s) (ends.keepAliveMs s)

/-- An input of one side. -/
def pairStep (L : Sodium) (p : Pair) (e : Side × Input) : Pair :=
  let (s, i) := e
  { duplex := Function.update p.duplex s
      ((p.duplex s).step L (p.duplex s.other).crypto.push i)
    fed := Function.update p.fed s (p.fed s ++ (p.duplex s).reads i)
    written := Function.update p.written s (p.written s ++ (p.duplex s).accepts L i) }

/-- How many messages are there as whole frames, behind the one of the header. -/
def arrived (bytes : List UInt8) : ℕ := (Framing.split nextFrame bytes).1.length - 1

/-- The input destroys the stream from outside: a call, a timeout or an error of the raw stream. -/
def Input.destroys : Input → Bool
  | .destroy _ => true
  | .headerAck status => status < 0
  | _ => false

/-- The condition under which the side `t` reads what the other side has sent, in order; at most 64 messages come before
the acknowledgement of its header; and its stream is not destroyed from outside. -/
def HonestLink (t : Side) (p : Pair) (e : Side × Input) : Prop :=
  e.1 = t →
    e.2.destroys = false ∧
      p.fed t ++ (p.duplex t).reads e.2 <+: (p.duplex t.other).sent ∧
        ((p.duplex t).headerSent = true ∨
          (visible (p.duplex t).keepAliveMs ((p.written t.other).take
            (arrived (p.fed t ++ (p.duplex t).reads e.2)))).length ≤ maxPending)

instance (t : Side) (p : Pair) (e : Side × Input) : Decidable (HonestLink t p e) :=
  inferInstanceAs (Decidable (_ → _ ∧ _ ∧ (_ ∨ _)))

/-! ## What a step does to an end -/

namespace Duplex

variable {L : Sodium} {peer : PushState}

/-- What stays the same over the life of a duplex. -/
structure SameEnd (d d' : Duplex) : Prop where
  localId : d'.crypto.localId = d.crypto.localId
  remoteId : d'.crypto.remoteId = d.crypto.remoteId
  rxKey : d'.crypto.rxKey = d.crypto.rxKey
  key : d'.crypto.push.key = d.crypto.push.key
  header : d'.crypto.push.header = d.crypto.push.header
  keepAlive : d'.keepAliveMs = d.keepAliveMs

lemma SameEnd.refl (d : Duplex) : SameEnd d d := by constructor <;> rfl

lemma SameEnd.trans {d d' d'' : Duplex} (h : SameEnd d d') (h' : SameEnd d' d'') : SameEnd d d'' where
  localId := h'.localId.trans h.localId
  remoteId := h'.remoteId.trans h.remoteId
  rxKey := h'.rxKey.trans h.rxKey
  key := h'.key.trans h.key
  header := h'.header.trans h.header
  keepAlive := h'.keepAlive.trans h.keepAlive

lemma Kept.sameEnd {d d' : Duplex} (h : Kept d d') : SameEnd d d' where
  localId := h.localId
  remoteId := h.remoteId
  rxKey := h.rxKey
  key := congrArg (·.key) h.push
  header := congrArg (·.header) h.push
  keepAlive := h.keepAlive

lemma Wf.write_push {d : Duplex} (h : d.Wf L) (data : List UInt8) :
    SameEnd d (d.write L data).1 ∧ (d.write L data).1.crypto.push.pushed =
      d.crypto.push.pushed ++ [data].filter fun data => (d.write L data).2 = 0 := by
  rcases h.write_cases data with ⟨rc, hrc, heq⟩ | ⟨-, -, -, -, heq⟩
  · simp [heq, hrc, SameEnd.refl]
  · rw [heq]
    exact ⟨by constructor <;> rfl, by simp [heq]⟩

/-- **The push state** moves with the accepted messages only. -/
theorem Wf.step_push {d : Duplex} (h : d.Wf L) (i : Input) :
    SameEnd d (d.step L peer i) ∧
      (d.step L peer i).crypto.push.pushed = d.crypto.push.pushed ++ d.accepts L i := by
  have hsame : ∀ {d'}, SameEnd d d' → d'.crypto.push = d.crypto.push → d.accepts L i = [] →
      SameEnd d d' ∧ d'.crypto.push.pushed = d.crypto.push.pushed ++ d.accepts L i := by
    intro d' hd' hpush hnone
    rw [hnone, List.append_nil, hpush]
    exact ⟨hd', rfl⟩
  have hkept : ∀ {d'}, Kept d d' → d.accepts L i = [] → SameEnd d d' ∧
      d'.crypto.push.pushed = d.crypto.push.pushed ++ d.accepts L i :=
    fun hd' => hsame hd'.sameEnd hd'.push
  cases i with
  | start =>
    rcases h.start_cases with heq | ⟨-, -, heq⟩
    · simp only [Duplex.step, heq]
      exact hkept (Kept.refl d) rfl
    · simp only [Duplex.step, heq]
      exact ⟨by constructor <;> rfl, by simp [accepts, writes]⟩
  | headerAck status =>
    simp only [Duplex.step]
    by_cases hstarted : d.started = true
    · rw [if_pos hstarted, Duplex.headerAck]
      by_cases hok : status ≥ 0
      · rw [if_pos hok]
        have hfire := kept_maybeFireConnect { d with headerSent := true }
        exact hsame (SameEnd.trans (by constructor <;> rfl) hfire.sameEnd) hfire.push rfl
      · rw [if_neg hok]
        exact hkept (kept_destroy d status) rfl
    · rw [if_neg hstarted]
      exact hkept (Kept.refl d) rfl
  | read data => exact hkept (kept_processIncomingBytes d _) rfl
  | write data => exact h.write_push data
  | keepAlive =>
    simp only [Duplex.step, accepts, writes]
    by_cases htick : d.keepAliveMs > 0 ∧ d.connected = true ∧ d.destroyed = false
    · rw [if_pos htick]
      exact h.write_push []
    · rw [if_neg htick]
      exact ⟨SameEnd.refl d, by simp⟩
  | «end» =>
    simp only [Duplex.step]
    by_cases hclosed : d.ended = true ∨ d.destroyed = true
    · rw [if_pos hclosed]
      exact hkept (Kept.refl d) rfl
    · rw [if_neg hclosed]
      exact hsame (by constructor <;> rfl) rfl rfl
  | destroy error => exact hkept (kept_destroy d error) rfl

lemma Wf.step_sent {d : Duplex} (h : d.Wf L) (i : Input) : d.sent <+: (d.step L peer i).sent := by
  have hkept : ∀ {d'}, Kept d d' → d.sent <+: d'.sent := by
    intro d' hd'
    rw [hd'.sent]
  have hwrite : ∀ data, d.sent <+: (d.write L data).1.sent := by
    intro data
    rcases h.write_cases data with ⟨rc, -, heq⟩ | ⟨-, -, -, -, heq⟩
    · rw [heq]
    · rw [heq]
      exact List.prefix_append _ _
  cases i with
  | start =>
    rcases h.start_cases with heq | ⟨-, -, heq⟩
    · simp only [Duplex.step, heq, List.prefix_rfl]
    · simp only [Duplex.step, heq, List.prefix_append]
  | headerAck status =>
    simp only [Duplex.step]
    split_ifs
    · unfold Duplex.headerAck
      split_ifs
      · rw [(kept_maybeFireConnect { d with headerSent := true }).sent]
      · exact hkept (kept_destroy d status)
    · exact List.prefix_rfl
  | read data => exact hkept (kept_processIncomingBytes d _)
  | write data => exact hwrite data
  | keepAlive =>
    simp only [Duplex.step, writes]
    split_ifs
    · exact hwrite []
    · exact List.prefix_rfl
  | «end» =>
    simp only [Duplex.step]
    split_ifs <;> exact List.prefix_rfl
  | destroy error => exact hkept (kept_destroy d error)

/-- The frames that were handled are those of the bytes that were read. -/
structure Framed (fed : List UInt8) (d : Duplex) : Prop where
  handled : d.handled <+: (Framing.split nextFrame fed).1
  /-- None is missing, unless the stream was destroyed. -/
  complete : d.destroyed = false →
    d.handled = (Framing.split nextFrame fed).1 ∧ d.recvBuf = (Framing.split nextFrame fed).2

lemma Framed.congr {fed : List UInt8} {d d' : Duplex} (h : Framed fed d)
    (hhandled : d'.handled = d.handled) (hbuf : d'.recvBuf = d.recvBuf)
    (hlive : d'.destroyed = false → d.destroyed = false) : Framed fed d' where
  handled := hhandled ▸ h.handled
  complete := by
    intro hdestroyed
    rw [hhandled, hbuf]
    exact h.complete (hlive hdestroyed)

lemma Framed.destroy {fed : List UInt8} {d : Duplex} (h : Framed fed d) (error : Int) :
    Framed fed (d.destroy error) :=
  h.congr (destroy_handled d error) (destroy_recvBuf d error)
    fun hfalse => absurd hfalse (by simp)

/-- **Chunks**: the frames of what was read so far do not depend on how it was read. -/
lemma Framed.processIncomingBytes {fed : List UInt8} {d : Duplex} (h : Framed fed d)
    (data : List UInt8) : Framed (fed ++ data) (d.processIncomingBytes L peer data) := by
  unfold Duplex.processIncomingBytes
  by_cases hdata : data = []
  · rw [if_pos hdata, hdata, List.append_nil]
    exact h
  · rw [if_neg hdata]
    have hsplit := nextFrame_codec.split_append fed data
    cases hdestroyed : d.destroyed with
    | true =>
      rw [drain_destroyed (d := d.buffer data) hdestroyed]
      refine ⟨?_, fun hfalse => absurd (hdestroyed.symm.trans hfalse) (by simp)⟩
      rw [hsplit]
      exact h.handled.trans (List.prefix_append _ _)
    | false =>
      obtain ⟨hhandled, hbuf⟩ := h.complete hdestroyed
      obtain ⟨frames, hframes, hprefix, hall⟩ := @handled_drain L peer (d.buffer data)
      have hbuffer : (d.buffer data).recvBuf = (Framing.split nextFrame fed).2 ++ data := by
        rw [← hbuf]
        rfl
      rw [hbuffer] at hprefix hall
      rw [show (d.buffer data).handled = (Framing.split nextFrame fed).1 from hhandled] at hframes
      refine ⟨?_, fun hlive => ?_⟩
      · rw [hframes, hsplit]
        exact (List.prefix_append_right_inj _).2 hprefix
      · obtain ⟨rfl, hrest⟩ := hall hlive
        rw [hsplit]
        exact ⟨hframes, hrest⟩

lemma Framed.write {fed : List UInt8} {d : Duplex} (h : Framed fed d) (hwf : d.Wf L)
    (data : List UInt8) : Framed fed (d.write L data).1 := by
  rcases hwf.write_cases data with ⟨rc, -, heq⟩ | ⟨-, -, -, -, heq⟩
  · rwa [heq]
  · rw [heq]
    exact h.congr rfl rfl id

theorem Framed.step {fed : List UInt8} {d : Duplex} (h : Framed fed d) (hwf : d.Wf L) (i : Input) :
    Framed (fed ++ d.reads i) (d.step L peer i) := by
  cases i with
  | start =>
    rw [show d.reads .start = [] from rfl, List.append_nil]
    rcases hwf.start_cases with heq | ⟨-, -, heq⟩
    · simpa only [Duplex.step, heq] using h
    · simp only [Duplex.step, heq]
      exact h.congr rfl rfl id
  | headerAck status =>
    rw [show d.reads (.headerAck status) = [] from rfl, List.append_nil]
    simp only [Duplex.step]
    split_ifs
    · unfold Duplex.headerAck
      split_ifs
      · exact h.congr (by simp) (by simp) (by simp)
      · exact h.destroy status
    · exact h
  | read data => exact h.processIncomingBytes _
  | write data =>
    rw [show d.reads (.write data) = [] from rfl, List.append_nil]
    exact h.write hwf data
  | keepAlive =>
    rw [show d.reads .keepAlive = [] from rfl, List.append_nil]
    simp only [Duplex.step, writes]
    split_ifs
    · exact h.write hwf []
    · exact h
  | «end» =>
    rw [show d.reads .end = [] from rfl, List.append_nil]
    simp only [Duplex.step]
    split_ifs
    · exact h
    · exact h.congr rfl rfl id
  | destroy error =>
    rw [show d.reads (.destroy error) = [] from rfl, List.append_nil]
    exact h.destroy error

lemma Tracks.write {e d : Duplex} (h : Tracks e d) (hwf : d.Wf L) (data : List UInt8) :
    Tracks e (d.write L data).1 ∧ (d.write L data).1.destroyed = d.destroyed := by
  rcases hwf.write_cases data with ⟨rc, -, heq⟩ | ⟨-, -, -, -, heq⟩
  · rw [heq]
    exact ⟨h, rfl⟩
  · rw [heq]
    exact ⟨h.congr rfl rfl rfl rfl rfl, rfl⟩

/-- **A step of an honest link** goes on tracking the peer, and does not destroy the stream if there is
room for what arrives. -/
theorem Tracks.step {e d : Duplex} (h : Tracks e d) (he : e.Wf L) (hwf : d.Wf L)
    (hsound : Sound e.crypto.push d) {fed : List UInt8} (hframed : Framed fed d) {i : Input}
    (hfed : fed ++ d.reads i <+: e.sent) :
    Tracks e (d.step L e.crypto.push i) ∧
      (d.destroyed = false → i.destroys = false → Room e d (arrived (fed ++ d.reads i)) →
        (d.step L e.crypto.push i).destroyed = false) := by
  cases i with
  | start =>
    rcases hwf.start_cases with heq | ⟨-, -, heq⟩
    · simp only [Duplex.step, heq]
      exact ⟨h, fun hlive _ _ => hlive⟩
    · simp only [Duplex.step, heq]
      exact ⟨h.congr rfl rfl rfl rfl rfl, fun hlive _ _ => hlive⟩
  | headerAck status =>
    simp only [Duplex.step]
    by_cases hstarted : d.started = true
    · rw [if_pos hstarted, Duplex.headerAck]
      by_cases hok : status ≥ 0
      · rw [if_pos hok]
        exact ⟨h.congr (by simp) (by simp) (by simp) (by simp) (by simp),
          fun hlive _ _ => by simpa using hlive⟩
      · rw [if_neg hok]
        refine ⟨h.destroy status, fun _ hinside => ?_⟩
        simp only [Input.destroys, decide_eq_false_iff_not] at hinside
        omega
    · rw [if_neg hstarted]
      exact ⟨h, fun hlive _ _ => hlive⟩
  | read data =>
    simp only [Duplex.step]
    by_cases hdata : d.reads (.read data) = []
    · rw [Duplex.processIncomingBytes, if_pos hdata]
      exact ⟨h, fun hlive _ _ => hlive⟩
    · have hstarted : d.started = true := by
        by_contra hnot
        simp [reads, hnot] at hdata
      rw [Duplex.processIncomingBytes, if_neg hdata]
      generalize d.reads (.read data) = bytes at hfed
      have hbuffer : Tracks e (d.buffer bytes) := h.congr rfl rfl rfl rfl rfl
      cases hlive : d.destroyed with
      | true =>
        rw [drain_destroyed (d := d.buffer bytes) hlive]
        exact ⟨hbuffer, fun hfalse => absurd hfalse (by simp)⟩
      | false =>
        obtain ⟨hhandled, hbuf⟩ := hframed.complete hlive
        -- what the peer has still to say begins with the buffer
        obtain ⟨more, hmore⟩ := hfed
        rw [he.sent, List.append_assoc] at hmore
        obtain ⟨later, hbodies, hrest⟩ := nextFrame_codec.split_isPrefix he.validBody hmore
        rw [← hhandled] at hbodies
        have hbytes : (d.buffer bytes).recvBuf ++ more =
            (((e.bodies L).drop d.handled.length).map frame).flatten := by
          rw [hbodies]
          simp [buffer, hbuf, hrest]
        have hcount : arrived (fed ++ bytes) = d.handled.length +
            (Framing.split nextFrame (d.recvBuf ++ bytes)).1.length - 1 := by
          rw [arrived, nextFrame_codec.split_append, List.length_append, hhandled, hbuf]
        obtain ⟨htracks, hdrain⟩ := Tracks.drain (d := d.buffer bytes) hbuffer hlive he { hwf with }
          hstarted (hsound.congr rfl rfl rfl rfl id) hbytes
        refine ⟨htracks, fun _ _ hroom => hdrain ?_⟩
        rw [hcount] at hroom
        exact hroom
  | write data =>
    obtain ⟨htracks, hsame⟩ := h.write hwf data
    exact ⟨htracks, fun hlive _ _ => hsame.trans hlive⟩
  | keepAlive =>
    simp only [Duplex.step, writes]
    split_ifs
    · obtain ⟨htracks, hsame⟩ := h.write hwf []
      exact ⟨htracks, fun hlive _ _ => hsame.trans hlive⟩
    · exact ⟨h, fun hlive _ _ => hlive⟩
  | «end» =>
    simp only [Duplex.step]
    split_ifs
    · exact ⟨h, fun hlive _ _ => hlive⟩
    · exact ⟨h.congr rfl rfl rfl rfl rfl, fun hlive _ _ => hlive⟩
  | destroy error =>
    exact ⟨h.destroy error, fun _ hinside => absurd hinside (by simp [Input.destroys])⟩

lemma Tracks.mono {e e' d : Duplex} (h : Tracks e d) (hsame : SameEnd e e') : Tracks e' d where
  rxKey := h.rxKey.trans hsame.key.symm
  remoteId := h.remoteId.trans hsame.localId.symm
  first := h.first
  later := by
    rw [hsame.key, hsame.header]
    exact h.later

end Duplex

/-! ## Runs of two ends -/

section Runs

variable {L : Sodium} {ends : Ends}

/-- What holds of two ends in every state. -/
structure Pair.Wf (L : Sodium) (ends : Ends) (p : Pair) : Prop where
  wf : ∀ s, (p.duplex s).Wf L
  sound : ∀ s, Duplex.Sound (p.duplex s.other).crypto.push (p.duplex s)
  written : ∀ s, p.written s = (p.duplex s).crypto.push.pushed
  same : ∀ s, Duplex.SameEnd ((Pair.init L ends).duplex s) (p.duplex s)
  framed : ∀ s, Duplex.Framed (p.fed s) (p.duplex s)

lemma pairWf_init : (Pair.init L ends).Wf L ends where
  wf s := Duplex.wf_new _ _ _
  sound s :=
    { pulled := by simp [Pair.init, Duplex.new, Crypto.new, Crypto.pulled]
      messages := List.nil_prefix
      complete := fun _ => by simp [Pair.init, Duplex.new, Crypto.new, visible] }
  written s := rfl
  same s := Duplex.SameEnd.refl _
  framed s :=
    { handled := List.nil_prefix
      complete := fun _ => ⟨rfl, rfl⟩ }

/-- **Every step** keeps it, whatever is read. -/
theorem pairWf_step (p : Pair) (e : Side × Input) (h : p.Wf L ends) : (pairStep L p e).Wf L ends := by
  obtain ⟨s, i⟩ := e
  obtain ⟨hsame, hpush⟩ := @Duplex.Wf.step_push L (p.duplex s.other).crypto.push _ (h.wf s) i
  refine ⟨fun t => ?_, fun t => ?_, fun t => ?_, fun t => ?_, fun t => ?_⟩
  · rcases eq_or_ne t s with rfl | hne
    · simpa [pairStep] using (h.wf t).step i
    · simpa [pairStep, hne] using h.wf t
  · rcases eq_or_ne t s with rfl | hne
    · simpa [pairStep] using (h.sound t).step (h.wf t) i
    · obtain rfl : s = t.other := Side.eq_other_of_ne hne.symm
      have hmore := (h.sound t).mono (hpush ▸ List.prefix_append _ _)
      simpa [pairStep, hne] using hmore
  · rcases eq_or_ne t s with rfl | hne
    · simp [pairStep, hpush, h.written]
    · simp [pairStep, hne, h.written]
  · rcases eq_or_ne t s with rfl | hne
    · simpa [pairStep] using (h.same t).trans hsame
    · simpa [pairStep, hne] using h.same t
  · rcases eq_or_ne t s with rfl | hne
    · simpa [pairStep] using (h.framed t).step (h.wf t) i
    · simpa [pairStep, hne] using h.framed t

/-- What holds besides if the side `t` reads what the other side has sent. -/
structure Pair.Honest (t : Side) (p : Pair) : Prop where
  tracks : Duplex.Tracks (p.duplex t.other) (p.duplex t)
  fed : p.fed t <+: (p.duplex t.other).sent

lemma honest_init (hagree : ends.Agree) (t : Side) : (Pair.init L ends).Honest t where
  tracks :=
    { rxKey := hagree.key t
      remoteId := by
        simp only [Pair.init, Duplex.new, Crypto.new]
        rw [hagree.hash t, hagree.role t, Bool.not_not]
      first := fun _ => rfl
      later := fun hnot => absurd rfl hnot }
  fed := List.nil_prefix

lemma Pair.Honest.step {t : Side} {p : Pair} (h : p.Honest t) (hwf : p.Wf L ends)
    (e : Side × Input)
    (hfed : e.1 = t → p.fed t ++ (p.duplex t).reads e.2 <+: (p.duplex t.other).sent) :
    (pairStep L p e).Honest t := by
  obtain ⟨s, i⟩ := e
  rcases eq_or_ne t s with rfl | hne
  · have htracks := (h.tracks.step (hwf.wf t.other) (hwf.wf t) (hwf.sound t) (hwf.framed t) (hfed rfl)).1
    exact
      { tracks := by simpa [pairStep] using htracks
        fed := by simpa [pairStep] using hfed rfl }
  · obtain rfl : s = t.other := Side.eq_other_of_ne hne.symm
    obtain ⟨hsame, -⟩ :=
      @Duplex.Wf.step_push L (p.duplex t.other.other).crypto.push _ (hwf.wf t.other) i
    have hsent := @Duplex.Wf.step_sent L (p.duplex t.other.other).crypto.push _ (hwf.wf t.other) i
    exact
      { tracks := by simpa [pairStep] using h.tracks.mono hsame
        fed := by simpa [pairStep] using h.fed.trans hsent }

/-- **A step of an honest link** keeps the stream alive. -/
theorem honest_step {t : Side} (p : Pair) (e : Side × Input)
    (h : p.Wf L ends ∧ p.Honest t ∧ (p.duplex t).destroyed = false) (hlink : HonestLink t p e) :
    (pairStep L p e).Wf L ends ∧ (pairStep L p e).Honest t ∧
      ((pairStep L p e).duplex t).destroyed = false := by
  obtain ⟨hwf, hhonest, hlive⟩ := h
  refine ⟨pairWf_step p e hwf, hhonest.step hwf e fun he => (hlink he).2.1, ?_⟩
  obtain ⟨s, i⟩ := e
  rcases eq_or_ne t s with rfl | hne
  · obtain ⟨hinside, hfed, hroom⟩ := hlink rfl
    rw [hwf.written] at hroom
    have hstep := (hhonest.tracks.step (hwf.wf t.other) (hwf.wf t) (hwf.sound t) (hwf.framed t) hfed).2
    simpa [pairStep] using hstep hlive hinside hroom
  · simpa [pairStep, hne] using hlive

/-- Over an honest link nothing destroys the stream, and what has arrived is delivered once the
stream is connected. -/
def Pair.Delivers (t : Side) (p : Pair) : Prop :=
  (p.duplex t).destroyed = false ∧
    ((p.duplex t).connected = true → (p.duplex t).messages =
      visible (p.duplex t).keepAliveMs ((p.written t.other).take (arrived (p.fed t)))) ∧
      (p.fed t = (p.duplex t.other).sent → arrived (p.fed t) = (p.written t.other).length)

lemma delivers_of_honest {t : Side} {p : Pair} (hwf : p.Wf L ends) (h : p.Honest t)
    (hlive : (p.duplex t).destroyed = false) : p.Delivers t := by
  obtain ⟨hhandled, -⟩ := (hwf.framed t).complete hlive
  refine ⟨hlive, fun hconnected => ?_, fun hfed => ?_⟩
  · have hall := (hwf.sound t).complete hlive
    rw [(hwf.wf t).pending hconnected, List.append_nil] at hall
    have hnonempty : (p.duplex t).handled ≠ [] := by
      intro hnil
      exact absurd (((hwf.wf t).connected hconnected).2.symm.trans (h.tracks.first hnil)) (by simp)
    obtain ⟨pull, hpull, -, -, hpulled⟩ := h.tracks.later hnonempty
    have hcount : arrived (p.fed t) = (p.duplex t).crypto.pulled := by
      rw [arrived, ← hhandled, ← hpulled, Crypto.pulled, hpull]
      rfl
    rw [hall, hcount, hwf.written]
  · have hsplit := nextFrame_codec.split_flatten (hwf.wf t.other).validBody []
    rw [List.append_nil, ← (hwf.wf t.other).sent, nextFrame_codec.split_none nextFrame_codec.next_nil]
      at hsplit
    rw [arrived, hfed, hsplit, hwf.written, Duplex.bodies]
    cases hstarted : (p.duplex t.other).started with
    | true => simp
    | false => simp [((hwf.wf t.other).unstarted hstarted).1]

/-- **What a secret stream delivers.** Whatever bytes a side reads, cut into chunks in any way: the messages it
delivers are a first part of those that the other side has written, without keepalives; `handle_frame` is called with
the frames of the bytes that were read, up to the destruction of the stream, and the chunks do not matter. The frame of
a message that `write` accepts passes the parser. Over an honest link the stream is never destroyed, once it is connected all
messages that have arrived are delivered, and all have arrived when all bytes have. -/
theorem delivery (L : Sodium) (ends : Ends) :
    (∀ (events : List (Side × Input)) (t : Side),
      let p := Runs.run (pairStep L) (Pair.init L ends) events
      (p.duplex t).messages <+: visible (ends.keepAliveMs t) (p.written t.other) ∧
        (p.duplex t).handled <+: (Framing.split nextFrame (p.fed t)).1 ∧
          ((p.duplex t).destroyed = false →
            (p.duplex t).handled = (Framing.split nextFrame (p.fed t)).1)) ∧
      (∀ (peer : PushState) (d : Duplex) (xs ys : List (List UInt8)), xs.flatten = ys.flatten →
        xs.foldl (Duplex.processIncomingBytes L peer) d = ys.foldl (Duplex.processIncomingBytes L peer) d) ∧
      (∀ key header before data rest, data.length ≤ maxAtomicWrite →
        parseFrame (frame (L.push key header before data) ++ rest) =
          .frame (L.push key header before data) rest) ∧
      (ends.Agree → ∀ (events : List (Side × Input)) (t : Side),
        Runs.EveryStep (pairStep L) (HonestLink t) (Pair.init L ends) events →
          Runs.EveryState (pairStep L) (Pair.Delivers t) (Pair.init L ends) events) := by
  refine ⟨fun events t => ?_, fun peer d xs ys hflatten => ?_,
    fun key header before data rest hlength => ?_, fun hagree events t hevents => ?_⟩
  · have hwf := Runs.run_invariant (P := Pair.Wf L ends) pairWf_step pairWf_init events
    refine ⟨?_, (hwf.framed t).handled, fun hlive => ((hwf.framed t).complete hlive).1⟩
    rw [hwf.written, ← show _ = ends.keepAliveMs t from (hwf.same t).keepAlive]
    exact (hwf.sound t).messages.trans (visible_isPrefix (List.take_prefix _ _))
  · have hchunks : ∀ (chunks : List (List UInt8)) (d : Duplex),
        chunks.foldl (Duplex.processIncomingBytes L peer) d =
          d.processIncomingBytes L peer chunks.flatten := by
      intro chunks
      induction chunks with
      | nil => exact fun d => (if_pos rfl).symm
      | cons chunk chunks ih =>
        intro d
        rw [List.foldl_cons, ih, List.flatten_cons, Duplex.processIncomingBytes_append]
    rw [hchunks, hchunks, hflatten]
  · refine parseFrame_frame ⟨?_, ?_⟩ rest
    · rw [L.length_push, abytes]
      omega
    · rw [L.length_push, frameLenMax]
      omega
  · exact (Runs.everyState_of_everyStep honest_step ⟨pairWf_init, honest_init hagree t, rfl⟩
      hevents).mono fun p h => delivers_of_honest h.1 h.2.1 h.2.2

end Runs

/-! ## A run -/

lemma length_padded (message : List UInt8) :
    ((message ++ List.replicate 32 0).take 32).length = 32 := by
  simp

def plainSodium : Sodium where
  generichash message _ := ⟨(message ++ List.replicate 32 0).take 32, length_padded message⟩
  push _ _ before data := data ++ List.replicate 17 (UInt8.ofNat before.length)
  length_push := by simp [abytes]

def plainEnds : Ends where
  handshake
    | .a => ⟨.replicate 32 1, .replicate 32 2, .replicate 64 0, true⟩
    | .b => ⟨.replicate 32 2, .replicate 32 1, .replicate 64 0, false⟩
  header
    | .a => .replicate 24 3
    | .b => .replicate 24 4
  keepAliveMs _ := 5000

/-- What a side of `plainEnds` has sent after some events. -/
def plainSent (s : Side) (events : List (Side × Input)) : List UInt8 :=
  ((Runs.run (pairStep plainSodium) (Pair.init plainSodium plainEnds) events).duplex s).sent

def plainWrites : List (Side × Input) :=
  [(.b, .start), (.a, .start), (.a, .headerAck 0), (.a, .read (plainSent .b [(.b, .start)])),
    (.a, .write [7]), (.a, .keepAlive), (.a, .write [8, 9])]

def plainRun : List (Side × Input) :=
  plainWrites ++
    [(.b, .read ((plainSent .a plainWrites).take 70)), (.b, .read ((plainSent .a plainWrites).drop 70)),
      (.b, .headerAck 0)]

theorem delivery_plainRun :
    Runs.EveryState (pairStep plainSodium) (Pair.Delivers .b) (Pair.init plainSodium plainEnds) plainRun ∧
      ((Runs.run (pairStep plainSodium) (Pair.init plainSodium plainEnds) plainRun).duplex .b).messages =
        [[7], [8, 9]] := by
  refine ⟨?_, by decide +kernel⟩
  refine (delivery plainSodium plainEnds).2.2.2 ⟨?_, ?_, ?_⟩ plainRun .b (by decide +kernel)
  all_goals
    intro s
    cases s <;> rfl

end HyperDHT.SecretStream
