import HyperDHT.Protomux.Invariant

/-!
# Frames that are cut off

The decoders of the mux return an empty field both where a field is not there and where it is cut off, and a
varint that is cut off is zero. An OPEN whose id or handshake is cut off is taken for one with an empty id or
handshake, and a data message whose type is cut off, or does not fit into 32 bits, for one of another type.

## Main definitions

* `Protomux.WholeOpen` — an OPEN with nothing cut off.
* `Protomux.MalformedMessage` — a data message whose type is cut off, or is not a number of 32 bits.
* `Mux.Unaffected` — such an OPEN changes nothing, and such a message is given to no handler.
* `Mux.Repeats`, `Mux.Harmless` — an OPEN that is known, and frames that do no harm.

## Main results

* `Mux.handleOpen_eq_self_iff`, `Mux.handled_handleData_iff` — which messages have no effect.
* `Mux.unaffected_iff` — frames that are cut off have no effect exactly if they do no harm.
* `Mux.not_unaffected_cutFrame` — an OPEN whose id is cut off.

## Design

The handshake of an OPEN is optional, so an OPEN may end after the id.
-/

set_option autoImplicit false

namespace HyperDHT.Protomux

open Runs

/-! ## Fields -/

/-- The length of a field is there, and as many bytes as it says. -/
def WholeBuffer (bytes : List UInt8) : Prop :=
  WholeVarint bytes ∧ (varintDecode bytes).1.toNat ≤ (varintDecode bytes).2.length

instance : DecidablePred WholeBuffer := fun _ => inferInstanceAs (Decidable (_ ∧ _))

/-- The remote id, the protocol and the id of an OPEN are there as a whole, and so is the handshake, if
there is one. -/
def WholeOpen (data : List UInt8) : Prop :=
  let afterId := (varintDecode data).2
  let afterProtocol := (bufferDecode afterId).2
  let handshake := (bufferDecode afterProtocol).2
  WholeVarint data ∧ WholeBuffer afterId ∧ WholeBuffer afterProtocol ∧
    (handshake = [] ∨ WholeBuffer handshake)

instance : DecidablePred WholeOpen := fun _ =>
  inferInstanceAs (Decidable (_ ∧ _ ∧ _ ∧ (_ ∨ _)))

/-- The type of a data message is cut off, or does not fit into 32 bits. -/
def MalformedMessage (data : List UInt8) : Prop :=
  ¬ WholeVarint data ∨ (varintDecode data).1 > uint32Max

namespace Mux

variable {m : Mux} {data : List UInt8} {remote : PendingOpen} {channelId : UInt32}

/-- The calls of the handlers of messages. -/
def handled (m : Mux) : List Event :=
  m.events.filter fun
    | .onMessage .. => true
    | _ => false

/-- **A message that is cut off has no effect**: an OPEN changes nothing, and data is given to no handler. -/
def Unaffected (m : Mux) : Call → Prop
  | .open data => ¬ WholeOpen data → m.handle (.open data) = m
  | .data channelId data => MalformedMessage data → (m.handle (.data channelId data)).handled = m.handled
  | _ => True

/-- The OPEN is stored already, no channel waits for it, and nobody is told of it. -/
structure Repeats (m : Mux) (remote : PendingOpen) : Prop where
  stored : m.pendingRemote (buildPairKey remote.protocol remote.id) = some remote
  unasked : ∀ c, m.findByPairKey (buildPairKey remote.protocol remote.id) = some c →
    c.openSent = true → c.opened = true
  pairNotify : m.pairNotify (buildPairKey remote.protocol remote.id) = false
  protoNotify : m.pairNotify (buildPairKey remote.protocol []) = false
  onNotify : m.onNotify = false

/-- The remote id is that of a channel with a handler for the type. -/
def HasHandler (m : Mux) (channelId type : UInt32) : Prop :=
  ∃ p c, m.remoteToChannel channelId = some p ∧ m.channel? p = some c ∧
    c.messages[type.toNat]? = some true

/-- A message that is cut off does no harm: an OPEN has no remote id or no protocol then, or repeats
another one; and no handler is there for data. -/
def Harmless (m : Mux) : Call → Prop
  | .open data => ¬ WholeOpen data → ∀ remote, decodeOpen data = some remote → m.Repeats remote
  | .data channelId data => MalformedMessage data → ¬ m.HasHandler channelId (decodeMessage data).1
  | _ => True

/-! ## Which messages have no effect -/

lemma events_dispatchNotify_iff (m : Mux) (protocol id handshake : List UInt8) :
    (m.dispatchNotify protocol id handshake).events = m.events ↔
      m.pairNotify (buildPairKey protocol id) = false ∧ m.pairNotify (buildPairKey protocol []) = false ∧
        m.onNotify = false := by
  unfold dispatchNotify log
  dsimp only
  split_ifs with hkey hproto hglobal <;> simp [*]

/-- **An OPEN has no effect** exactly if it repeats another one. -/
lemma receiveOpen_eq_self_iff (h : m.Wf) (remote : PendingOpen) :
    m.receiveOpen remote = m ↔ m.Repeats remote := by
  rcases h.receiveOpen_cases remote with ⟨c, -, hfind, hsent, hopened, heq⟩ | ⟨hunasked, heq⟩
  · rw [heq]
    refine iff_of_false (fun hsame => ?_) fun hrepeats => ?_
    · have hevents := congrArg (fun m => m.events.length) hsame
      simp [link] at hevents
    · rw [hrepeats.unasked c hfind hsent] at hopened
      cases hopened
  · rw [heq]
    have hsilent := events_dispatchNotify_iff { m with
        pendingRemote := Function.update m.pendingRemote
          (buildPairKey remote.protocol remote.id) (some remote) } remote.protocol remote.id remote.handshake
    have hpending : ({ m with
        pendingRemote := Function.update m.pendingRemote
          (buildPairKey remote.protocol remote.id) (some remote) }.dispatchNotify
        remote.protocol remote.id remote.handshake).pendingRemote = Function.update m.pendingRemote
          (buildPairKey remote.protocol remote.id) (some remote) := by
      unfold dispatchNotify log
      dsimp only
      split_ifs <;> rfl
    constructor
    · intro hsame
      rw [hsame] at hsilent hpending
      obtain ⟨hkey, hproto, hglobal⟩ := hsilent.1 rfl
      refine ⟨?_, hunasked, hkey, hproto, hglobal⟩
      rw [hpending, Function.update_self]
    · intro hrepeats
      rw [← hrepeats.stored, Function.update_eq_self]
      change m.dispatchNotify remote.protocol remote.id remote.handshake = m
      simp only [dispatchNotify, hrepeats.pairNotify, hrepeats.protoNotify, hrepeats.onNotify,
        Bool.false_eq_true, if_false]

/-- **An OPEN message has no effect** exactly if what it says repeats another one, where it says something. -/
lemma handleOpen_eq_self_iff (h : m.Wf) (data : List UInt8) :
    m.handleOpen data = m ↔ ∀ remote, decodeOpen data = some remote → m.Repeats remote := by
  unfold handleOpen
  cases decodeOpen data with
  | none => simp
  | some remote => simpa using receiveOpen_eq_self_iff h remote

/-- **A data message is given to no handler** exactly if there is none for its type. -/
lemma handled_handleData_iff (h : m.Wf) (channelId : UInt32) (data : List UInt8) :
    (m.handleData channelId data).handled = m.handled ↔
      ¬ m.HasHandler channelId (decodeMessage data).1 := by
  rw [h.handleData_eq]
  unfold HasHandler
  cases hmap : m.remoteToChannel channelId with
  | none => simp
  | some p =>
    obtain ⟨c, hc, rfl, -, -⟩ := h.remote _ _ hmap
    have hfind : m.channel? c.ptr = some c := h.channel? hc
    have hlogged : (m.log (.dispatch c.ptr (decodeMessage data).1 (decodeMessage data).2)).channel? c.ptr =
        some c := hfind
    simp only [dispatch, hlogged, Option.some.injEq, exists_and_left, exists_eq_left', hfind]
    split
    next hhandler => simp [handled, log, hhandler]
    next hnone => simp [handled, log, hnone]

lemma unaffected_iff_harmless (h : m.Wf) (call : Call) : m.Unaffected call ↔ m.Harmless call := by
  cases call with
  | «open» data => exact imp_congr_right fun _ => handleOpen_eq_self_iff h data
  | data channelId data => exact imp_congr_right fun _ => handled_handleData_iff h channelId data
  | _ => exact Iff.rfl

/-- **Malformed frames have no effect** exactly if they do no harm: in every reachable mux, for every
frame that is received, and for every message in it, if it is a batch. -/
theorem unaffected_iff (ops : List Op) (frame : List UInt8) :
    EveryStep handle Unaffected (run step {} ops) (onDataCalls frame) ↔
      EveryStep handle Harmless (run step {} ops) (onDataCalls frame) :=
  everyStep_iff (I := Wf) (fun _ call h => unaffected_iff_harmless h call)
    (fun _ call h _ => h.handle call) (wf_run ops)

/-- An OPEN of a channel of protocol `p`. Its id should have five bytes, and the frame ends there. -/
def cutFrame : List UInt8 := [0, 1, 1, 1, 112, 5]

/-- It is taken for the OPEN of a channel without an id. -/
theorem not_unaffected_cutFrame :
    ¬ EveryStep handle Unaffected (run step {} []) (onDataCalls cutFrame) := by
  have hcalls : onDataCalls cutFrame = [.open [1, 1, 112, 5]] := rfl
  rw [hcalls]
  intro hall
  have hcut : ¬ WholeOpen [1, 1, 112, 5] := by decide
  have hsame := congrArg (fun m => m.pendingRemote (buildPairKey [112] [])) (hall.1 hcut)
  revert hsame
  decide

end Mux

end HyperDHT.Protomux
