import HyperDHT.Announcer.Cycles
import HyperDHT.Announcer.Restart
import HyperDHT.Handlers.Basic

/-!
# The record of a listening server

A node answers `FIND_PEER` for the target of a server of its own with the record that the router has. The
server copies the record of its announcer into the router when it begins to listen, and never again; the
announcer makes a new one at the end of every cycle.

## Main definitions

* `Listener` — a server as far as its announcer and the router go, with `Listener.step`.
* `Announcer.CycleEnds` — a cycle ends in a step.
* `Listener.Current` — the router serves the record with the relays of the announcer.

## Main results

* `Announcer.relays_onDone`, `Announcer.relays_update` — the relays after a cycle has ended.
* `Announcer.relays_step_iff` — when an announcer without relays gets some.
* `Listener.current_iff` — the record is current in exactly the runs in which no cycle ends while there are
  active relays.
* `Listener.not_current_announcedTwice` — a server that has a relay, which its record does not name.

## Design

What the announcer does on its own comes as an input of the announcer; the calls that only its owner makes
do not come that way. A server that is closed gives up its announcer, and with it all callbacks.
-/

set_option autoImplicit false

namespace HyperDHT

open Compact Handlers Query Routing Rpc Ops Runs

/-! ## The relays of an announcer -/

namespace Announcer

variable {c : Config} {net : Net} {s : Announcer}

/-- The relays, as peers are told of them. -/
def infosOf (relays : List RelayNode) : List RelayInfo :=
  relays.map fun relay => RelayInfo.mk relay.addr relay.peerAddr

/-- A cycle would end as soon as it starts. -/
def EndsAtOnce (c : Config) (net : Net) : Prop := (findPeer c net).query.pendingDoneFired = true

lemma relays_onDone_of {again : Announcer → Announcer}
    (hagain : ∀ s, s.relays = infosOf s.activeRelays → (again s).relays = infosOf s.activeRelays)
    (halive : s.alive = true) (hrunning : s.running = true) :
    (s.onDone c again).relays = infosOf s.activeRelays := by
  unfold onDone buildRelays
  dsimp only
  rw [if_pos halive, if_pos hrunning]
  split
  · exact hagain _ rfl
  · rfl

lemma relays_updateAt_of_eq (fuel : ℕ) (h : s.relays = infosOf s.activeRelays) :
    (updateAt c net fuel s).relays = infosOf s.activeRelays := by
  induction fuel generalizing s with
  | zero => exact h
  | succ fuel ih =>
    unfold updateAt
    split
    · exact h
    next hfree =>
      dsimp only
      split
      · rw [Bool.or_eq_true, not_or] at hfree
        by_cases halive : s.alive = true
        · exact relays_onDone_of (s := { s with
            updating := true, queries := s.queries ++ [findPeer c net] }) (fun _ => ih) halive
            (by simpa using hfree.2)
        · unfold onDone
          dsimp only
          rw [if_neg halive]
          exact h
      · exact h

/-- **The relays after the end of a cycle** are those that are active. -/
theorem relays_onDone (net : Net) (halive : s.alive = true) (hrunning : s.running = true) :
    (s.onDone c (update c net)).relays = infosOf s.activeRelays :=
  relays_onDone_of (fun _ => relays_updateAt_of_eq _) halive hrunning

lemma relays_onDone_of_deaf {again : Announcer → Announcer}
    (h : ¬ (s.alive = true ∧ s.running = true)) : (s.onDone c again).relays = s.relays := by
  unfold onDone
  dsimp only
  split
  next halive =>
    rw [if_neg fun hrunning => h ⟨halive, hrunning⟩]
  · rfl

/-- **The relays after the start of a cycle** are those that are active if the cycle ends at once. -/
theorem relays_update (c : Config) (net : Net) (s : Announcer) :
    ((s.alive = true ∧ s.running = true) ∧ s.updating = false ∧ EndsAtOnce c net ∧
        (update c net s).relays = infosOf s.activeRelays) ∨
      (¬ ((s.alive = true ∧ s.running = true) ∧ s.updating = false ∧ EndsAtOnce c net) ∧
        (update c net s).relays = s.relays) := by
  unfold update updateFuel updateAt
  split
  next hblocked =>
    refine .inr ⟨?_, rfl⟩
    rintro ⟨⟨_, hrunning⟩, hfree, _⟩
    simp [hfree, hrunning] at hblocked
  next hfree =>
    rw [Bool.or_eq_true, not_or, Bool.not_eq_true, Bool.not_eq_true', Bool.not_eq_false] at hfree
    dsimp only
    split
    next hdone =>
      by_cases hheard : s.alive = true ∧ s.running = true
      · refine .inl ⟨hheard, hfree.1, hdone, ?_⟩
        exact relays_onDone_of (s := { s with
          updating := true, queries := s.queries ++ [findPeer c net] })
          (fun _ => relays_updateAt_of_eq 1) hheard.1 hheard.2
      · refine .inr ⟨fun h => hheard h.1, ?_⟩
        exact relays_onDone_of_deaf (s := { s with
          updating := true, queries := s.queries ++ [findPeer c net] }) hheard
    next hwaits => exact .inr ⟨fun h => hwaits h.2.2, rfl⟩

/-! ## The end of a cycle -/

/-- What happens to a query ends it. -/
def QueryEnds (c : Config) (s : Announcer) (number : ℕ) (i : HyperDHT.Input) : Prop :=
  ∃ w, s.queries[number]? = some w ∧ w.query.pendingDoneFired = false ∧
    (w.step c.blake2b i).query.pendingDoneFired = true

/-- A ping is the last one of its round, and not enough relays have answered. -/
def LastPing (s : Announcer) (number : ℕ) (answered : Bool) : Prop :=
  ∃ round, s.pings[number]? = some round ∧ round.waiting ≠ 0 ∧ round.pending = 1 ∧
    round.activeCount + answered.toNat < min round.total minActive

/-- A cycle ends: its query does, or it is started and ends at once. -/
def CycleEnds (c : Config) (s : Announcer) : Input → Prop
  | .response net number k resp => QueryEnds c s number (.response net.env k resp)
  | .timeout net number k => QueryEnds c s number (.timeout net.env k)
  | .refresh net | .bgTimer net => s.updating = false ∧ EndsAtOnce c net
  | .ping net number answered => s.LastPing number answered ∧ s.updating = false ∧ EndsAtOnce c net
  | _ => False

/-- An announcer that does not run was stopped. -/
def Stopped (s : Announcer) : Prop := s.running = false → s.alive = false

/-- A cycle ends that takes active relays over. -/
def TakesOver (c : Config) (s : Announcer) (i : Input) : Prop :=
  (s.alive = true ∧ s.running = true) ∧ s.activeRelays ≠ [] ∧ CycleEnds c s i

lemma infosOf_eq_nil_iff {relays : List RelayNode} : infosOf relays = [] ↔ relays = [] :=
  List.map_eq_nil_iff

lemma relays_update_iff (hnone : s.relays = []) :
    (update c net s).relays = [] ↔
      ¬ ((s.alive = true ∧ s.running = true) ∧ s.activeRelays ≠ [] ∧ s.updating = false ∧
        EndsAtOnce c net) := by
  obtain ⟨hheard, hfree, hends, hrelays⟩ | ⟨hnot, hrelays⟩ := relays_update c net s
  · rw [hrelays, infosOf_eq_nil_iff]
    constructor
    · exact fun hactive h => h.2.1 hactive
    · exact fun h => by_contra fun hactive => h ⟨hheard, hactive, hfree, hends⟩
  · rw [hrelays]
    exact ⟨fun _ h => hnot ⟨h.1, h.2.2⟩, fun _ => hnone⟩

lemma relays_walk_iff (hkept : s.Kept) (hnone : s.relays = []) (number : ℕ) (i : HyperDHT.Input) :
    (s.walk c net number i).relays = [] ↔
      ¬ ((s.alive = true ∧ s.running = true) ∧ s.activeRelays ≠ [] ∧ QueryEnds c s number i) := by
  cases hw : s.queries[number]? with
  | none =>
    have hsame : s.walk c net number i = s := by
      unfold walk
      rw [hw]
    rw [hsame]
    refine ⟨fun _ => ?_, fun _ => hnone⟩
    rintro ⟨-, -, w, hw', -⟩
    rw [hw] at hw'
    cases hw'
  | some w =>
    have hsame := hear_sameCycle c s number w (w.step c.blake2b i)
    have hactive := hear_activeRelays c s number w (w.step c.blake2b i)
    have hrelays : (s.hear c number w (w.step c.blake2b i)).relays = s.relays := by
      rw [hear, foldl_onReply]
      split <;> rfl
    have halive : (s.hear c number w (w.step c.blake2b i)).alive = s.alive := hsame.alive
    have hrunning : (s.hear c number w (w.step c.blake2b i)).running = s.running := hsame.running
    rw [walk_eq hkept hw]
    dsimp only
    split
    next hends =>
      by_cases hheard : s.alive = true ∧ s.running = true
      · rw [relays_onDone net (halive.trans hheard.1) (hrunning.trans hheard.2), hactive,
          infosOf_eq_nil_iff]
        constructor
        · exact fun hnil h => h.2.1 hnil
        · exact fun h => by_contra fun hne => h ⟨hheard, hne, w, hw, hends⟩
      · rw [relays_onDone_of_deaf (by rwa [halive, hrunning]), hrelays]
        exact ⟨fun _ h => hheard h.1, fun _ => hnone⟩
    next hgoes =>
      rw [hrelays]
      refine ⟨fun _ => ?_, fun _ => hnone⟩
      rintro ⟨-, -, w', hw', hends⟩
      obtain rfl := Option.some.inj (hw.symm.trans hw')
      exact hgoes hends

/-- **When an announcer without relays gets some**: a cycle ends, and there are active relays. -/
theorem relays_step_iff (hkept : s.Kept) (hstopped : s.Stopped) (hnone : s.relays = []) (i : Input) :
    (s.step c i).relays = [] ↔ ¬ TakesOver c s i := by
  have hkeeps {j : Input} (h : (s.step c j).relays = []) (hnot : ¬ CycleEnds c s j) :
      (s.step c j).relays = [] ↔ ¬ TakesOver c s j :=
    ⟨fun _ htakes => hnot htakes.2.2, fun _ => h⟩
  cases i with
  | start net =>
    refine hkeeps ?_ id
    unfold step start
    dsimp only
    split
    · exact hnone
    next hidle =>
      have halive := hstopped (Bool.eq_false_of_not_eq_true hidle)
      refine (relays_update_iff (s := { s with running := true }) hnone).2 fun h => ?_
      exact Bool.noConfusion (halive.symm.trans h.1.1)
  | stop =>
    refine hkeeps ?_ id
    cases hrunning : s.running with
    | false => simpa [step, stopImpl, hrunning] using hnone
    | true =>
      unfold step
      dsimp only
      rw [stopImpl_eq hrunning]
  | stopWithoutUnannounce =>
    refine hkeeps ?_ id
    cases hrunning : s.running with
    | false => simpa [step, stopImpl, hrunning] using hnone
    | true =>
      unfold step
      dsimp only
      rw [stopImpl_eq hrunning]
  | refresh net =>
    rw [step, refresh_eq]
    exact relays_update_iff hnone
  | notifyOnline net =>
    refine hkeeps ?_ id
    unfold step notifyOnline
    dsimp only
    split
    · exact hnone
    · exact (relays_update_iff rfl).2 fun h => h.2.1 rfl
  | bgTimer net =>
    unfold step
    dsimp only
    split
    next hidle =>
      refine ⟨fun _ h => ?_, fun _ => hnone⟩
      simp [h.1.2] at hidle
    · exact relays_update_iff hnone
  | pingTimer =>
    refine hkeeps ?_ id
    unfold step pingRelays
    dsimp only
    split_ifs <;> exact hnone
  | response net number k resp => exact relays_walk_iff hkept hnone number _
  | timeout net number k => exact relays_walk_iff hkept hnone number _
  | announced k resp =>
    refine hkeeps ?_ id
    unfold step
    dsimp only
    split
    · exact hnone
    · unfold onAnnounced
      split <;> exact hnone
  | announceTimeout k => exact hkeeps hnone id
  | ping net number answered =>
    unfold step
    dsimp only
    cases hround : s.pings[number]? with
    | none =>
      refine ⟨fun _ => ?_, fun _ => hnone⟩
      rintro ⟨-, -, ⟨round, hround', -⟩, -⟩
      rw [hround] at hround'
      cases hround'
    | some round =>
      dsimp only
      split
      next hwaiting =>
        refine ⟨fun _ => ?_, fun _ => hnone⟩
        rintro ⟨-, -, ⟨round', hround', hwaits, -⟩, -⟩
        obtain rfl := Option.some.inj (hround.symm.trans hround')
        exact hwaits hwaiting
      next hwaits =>
        unfold onPing
        dsimp only
        split
        next halive =>
          split
          next hlast =>
            have hone : round.pending = 1 := by omega
            rw [refresh_eq, relays_update_iff (by exact hnone)]
            refine not_congr ⟨?_, ?_⟩
            · rintro ⟨hheard, hactive, hfree, hends⟩
              exact ⟨hheard, hactive, ⟨round, hround, hwaits, hone, hlast.2⟩, hfree, hends⟩
            · rintro ⟨hheard, hactive, -, hfree, hends⟩
              exact ⟨hheard, hactive, hfree, hends⟩
          next hlast =>
            refine ⟨fun _ => ?_, fun _ => hnone⟩
            rintro ⟨-, -, ⟨round', hround', -, hone, hfew⟩, -⟩
            obtain rfl := Option.some.inj (hround.symm.trans hround')
            exact hlast ⟨by omega, hfew⟩
        next hdeaf => exact ⟨fun _ h => hdeaf h.1.1, fun _ => hnone⟩

lemma Stopped.step (hstopped : s.Stopped) (hkept : s.Kept) (c : Config) (i : Input) :
    (s.step c i).Stopped := by
  have hsame {s' : Announcer} (hrunning : s'.running = s.running) (halive : s'.alive = s.alive) :
      s'.Stopped := by
    intro hidle
    rw [halive]
    exact hstopped (hrunning.symm.trans hidle)
  have hruns {s' : Announcer} (hrunning : s'.running = true) : s'.Stopped :=
    fun hidle => Bool.noConfusion (hidle.symm.trans hrunning)
  have hshape := step_shape c s i
  generalize s.step c i = s' at hshape ⊢
  cases hshape with
  | beside hcycle => exact hsame hcycle.running hcycle.alive
  | update net hcycle =>
    have hunmoved := update_unmoved c net
    exact hsame ((hunmoved _).running.trans hcycle.running) ((hunmoved _).alive.trans hcycle.alive)
  | start net => exact hruns (update_unmoved c net _).running
  | stop sendUnannounce _ hrunning =>
    intro _
    rw [stopImpl_eq hrunning]
  | notifyOnline net hrunning => exact hruns ((update_unmoved c net _).running.trans hrunning)
  | walk net number w j hw =>
    have hheard := hear_sameCycle c s number w (w.step c.blake2b j)
    have hdone := onDone_unmoved (update_unmoved c net) (s.hear c number w (w.step c.blake2b j))
    rw [walk_eq hkept hw]
    dsimp only
    split
    · exact hsame (hdone.running.trans hheard.running) (hdone.alive.trans hheard.alive)
    · exact hsame hheard.running hheard.alive

/-- A call that only the owner of an announcer makes. -/
def Input.ofOwner : Input → Bool
  | .start _ | .stop | .stopWithoutUnannounce | .refresh _ | .notifyOnline _ => true
  | _ => false

end Announcer

open Announcer

/-! ## The server -/

/-- A server, as far as its announcer goes, and the record that the router has for its target. -/
structure Listener where
  listening : Bool := false
  closed : Bool := false
  suspended : Bool := false
  announcer : Option Announcer := none
  record : Option (List UInt8) := none

namespace Listener

variable {c : Config} {s : Listener}

/-- What may happen: the calls of the server, and what the announcer does on its own. -/
inductive Input where
  | listen (net : Net)
  | close (force : Bool)
  | refresh (net : Net)
  | notifyOnline (net : Net)
  | suspend
  | resume (net : Net)
  | announcer (i : Announcer.Input)

/-- The server begins to listen: the announcer is started, and its record copied into the router. -/
def listen (c : Config) (net : Net) (s : Listener) : Listener :=
  if s.listening then s
  else
    let announcer := (Announcer.init c).start c net
    { s with listening := true, announcer := some announcer, record := some announcer.record }

/-- The server closes: the announcer is given up, and the entry of the router removed. -/
def close (s : Listener) : Listener :=
  if s.closed then s
  else { s with closed := true, listening := false, announcer := none, record := none }

/-- What the announcer is given. -/
def toAnnouncer (s : Listener) : Input → Option Announcer.Input
  | .refresh net => if s.suspended then none else some (.refresh net)
  | .notifyOnline net => if s.closed || !s.listening then none else some (.notifyOnline net)
  | .suspend => if s.suspended then none else some .stop
  | .resume net => if s.suspended then some (.start net) else none
  | .announcer i => if i.ofOwner then none else some i
  | _ => none

/-- The announcer does what it is given. -/
def forward (c : Config) (s : Listener) (i : Input) : Listener :=
  { s with announcer := s.announcer.map fun a => ((s.toAnnouncer i).map (a.step c)).getD a }

/-- The server after an input. -/
def step (c : Config) (s : Listener) (i : Input) : Listener :=
  match i with
  | .listen net => s.listen c net
  | .close _ => s.close
  | .suspend => { s.forward c i with suspended := true }
  | .resume _ => { s.forward c i with suspended := false }
  | _ => s.forward c i

/-- The records of the router. -/
def router (c : Config) (s : Listener) (target : NodeId) : Option (List UInt8) :=
  if target = c.target then s.record.filter (!·.isEmpty) else none

/-- **The router serves the current record** of a server that listens: it names the relays of the announcer,
and is what the node answers who asks for the peer. -/
def Current (c : Config) (s : Listener) : Prop :=
  ∀ a, s.announcer = some a → ∃ record, s.router c c.target = some record ∧
    decodePeerRecord record = {
      publicKey := c.publicKey, relayAddresses := a.relays.map (·.relayAddress) } ∧
    ∀ (env : HandlerEnv) (r : RpcHandlers) (req : Incoming), r.router = some (s.router c) →
      req.target = some c.target → (r.handleFindPeer env req).2.bind (·.value) = some record

/-- A cycle of the announcer ends that takes active relays over. -/
def TakesOver (c : Config) (s : Listener) (i : Input) : Prop :=
  ∃ a j, s.announcer = some a ∧ s.toAnnouncer i = some j ∧ a.TakesOver c j

/-- What holds along every run: the router has the record of a fresh announcer. -/
structure Copied (c : Config) (s : Listener) : Prop where
  kept : ∀ a, s.announcer = some a → a.Kept
  stopped : ∀ a, s.announcer = some a → a.Stopped
  record : ∀ a, s.announcer = some a → s.record = some (Announcer.init c).record

lemma decodePeerRecord_init (c : Config) :
    decodePeerRecord (Announcer.init c).record = { publicKey := c.publicKey } := by
  have hfits : ([] : List Ipv4Address).length ≤ arrayMaxLength := Nat.zero_le _
  have hrelays := arrayDecode_arrayEncode ipv4Decode_ipv4Encode hfits []
  rw [List.append_nil] at hrelays
  simp [decodePeerRecord, Announcer.init, encodePeerRecord, State.forDecode, fixedDecode_append,
    hrelays]

lemma Copied.current_iff_eq (h : Copied c s) :
    s.Current c ↔ ∀ a, s.announcer = some a → a.relays = [] := by
  have hrouter {a : Announcer} (ha : s.announcer = some a) :
      s.router c c.target = some (Announcer.init c).record := by
    have hne : (Announcer.init c).record.isEmpty = false := by
      rw [List.isEmpty_eq_false_iff_exists_mem]
      exact ⟨_, List.mem_append_left _ (List.mem_of_getElem (i := 0) (h := by simp) rfl)⟩
    unfold router
    rw [if_pos rfl, h.record a ha, Option.filter_some_pos (by simp [hne])]
  constructor
  · intro hcurrent a ha
    obtain ⟨record, hrecord, hread, -⟩ := hcurrent a ha
    obtain rfl := Option.some.inj ((hrouter ha).symm.trans hrecord)
    rw [decodePeerRecord_init] at hread
    exact List.map_eq_nil_iff.1 (congrArg PeerRecord.relayAddresses hread).symm
  · intro hnone a ha
    refine ⟨_, hrouter ha, ?_, fun env r req hr htarget => ?_⟩
    · rw [decodePeerRecord_init, hnone a ha]
      rfl
    · unfold RpcHandlers.handleFindPeer
      rw [htarget, hr]
      dsimp only
      rw [Option.bind_some, hrouter ha]
      rfl

/-! ## What a server copies -/

lemma record_onDone {again : Announcer → Announcer}
    (hagain : ∀ a, a.activeRelays = [] → a.record = (Announcer.init c).record →
      (again a).record = (Announcer.init c).record) {a : Announcer} (hnone : a.activeRelays = [])
    (hrecord : a.record = (Announcer.init c).record) :
    (a.onDone c again).record = (Announcer.init c).record := by
  have hbuilt : encodePeerRecord {
      publicKey := c.publicKey
      relayAddresses := (infosOf a.activeRelays).map (·.relayAddress) } =
        (Announcer.init c).record := by
    rw [hnone]
    rfl
  unfold onDone buildRelays
  dsimp only
  split_ifs
  · exact hagain _ hnone hbuilt
  · exact hbuilt
  · exact hrecord
  · exact hrecord

lemma record_updateAt (net : Net) (fuel : ℕ) {a : Announcer} (hnone : a.activeRelays = [])
    (hrecord : a.record = (Announcer.init c).record) :
    (updateAt c net fuel a).record = (Announcer.init c).record := by
  induction fuel generalizing a with
  | zero => exact hrecord
  | succ fuel ih =>
    unfold updateAt
    split
    · exact hrecord
    · dsimp only
      split
      · exact record_onDone (fun a => ih) (a := { a with
          updating := true, queries := a.queries ++ [findPeer c net] }) hnone hrecord
      · exact hrecord

/-- **What a server copies** is the record of a fresh announcer. -/
lemma Copied.listen (h : Copied c s) (net : Net) : Copied c (s.listen c net) := by
  unfold Listener.listen
  split
  · exact h
  · have hstarted : (Announcer.init c).start c net =
        update c net { Announcer.init c with running := true } := rfl
    have hrunning : ((Announcer.init c).start c net).running = true := by
      rw [hstarted]
      exact (update_unmoved c net _).running
    refine ⟨fun a ha => ?_, fun a ha => ?_, fun a ha => ?_⟩
    · obtain rfl := Option.some.inj ha
      exact (kept_init c).step c (.start net)
    · obtain rfl := Option.some.inj ha
      exact fun hidle => Bool.noConfusion (hidle.symm.trans hrunning)
    · obtain rfl := Option.some.inj ha
      refine congrArg some ?_
      rw [hstarted]
      exact record_updateAt net updateFuel rfl rfl

lemma Copied.forward (h : Copied c s) (i : Input) : Copied c (s.forward c i) := by
  have hsteps {a' : Announcer} (ha' : (s.forward c i).announcer = some a') :
      ∃ a, s.announcer = some a ∧ (a' = a ∨ ∃ j, a' = a.step c j) := by
    obtain ⟨a, ha, rfl⟩ := Option.map_eq_some_iff.1 ha'
    refine ⟨a, ha, ?_⟩
    cases s.toAnnouncer i with
    | none => exact .inl rfl
    | some j => exact .inr ⟨j, rfl⟩
  refine ⟨fun a' ha' => ?_, fun a' ha' => ?_, fun a' ha' => ?_⟩
  · obtain ⟨a, ha, rfl | ⟨j, rfl⟩⟩ := hsteps ha'
    · exact h.kept a' ha
    · exact (h.kept a ha).step c j
  · obtain ⟨a, ha, rfl | ⟨j, rfl⟩⟩ := hsteps ha'
    · exact h.stopped a' ha
    · exact (h.stopped a ha).step (h.kept a ha) c j
  · obtain ⟨a, ha, -⟩ := hsteps ha'
    exact h.record a ha

lemma Copied.step (h : Copied c s) (i : Input) : Copied c (s.step c i) := by
  cases i with
  | listen net => exact h.listen net
  | close force =>
    change Copied c s.close
    unfold Listener.close
    split
    · exact h
    · exact ⟨nofun, nofun, nofun⟩
  | suspend => exact ⟨(h.forward _).kept, (h.forward _).stopped, (h.forward _).record⟩
  | resume net => exact ⟨(h.forward _).kept, (h.forward _).stopped, (h.forward _).record⟩
  | refresh net => exact h.forward _
  | notifyOnline net => exact h.forward _
  | announcer i => exact h.forward _

lemma relays_forward_iff (h : Copied c s) (hnone : ∀ a, s.announcer = some a → a.relays = []) (i : Input) :
    (∀ a, (s.forward c i).announcer = some a → a.relays = []) ↔ ¬ s.TakesOver c i := by
  unfold forward
  dsimp only
  cases ha : s.announcer with
  | none =>
    refine ⟨fun _ => ?_, fun _ a' ha' => by cases ha'⟩
    rintro ⟨a, j, ha', -⟩
    rw [ha] at ha'
    cases ha'
  | some a =>
    cases hj : s.toAnnouncer i with
    | none =>
      refine ⟨fun _ => ?_, fun _ a' ha' => ?_⟩
      · rintro ⟨a', j, -, hj', -⟩
        rw [hj] at hj'
        cases hj'
      · obtain rfl := Option.some.inj ha'
        exact hnone a ha
    | some j =>
      have hstep := @relays_step_iff c a (h.kept a ha) (h.stopped a ha) (hnone a ha) j
      constructor
      · rintro hrelays ⟨a', j', ha', hj', htakes⟩
        obtain rfl := Option.some.inj (ha.symm.trans ha')
        obtain rfl := Option.some.inj (hj.symm.trans hj')
        exact hstep.1 (hrelays _ rfl) htakes
      · intro hnot a' ha'
        obtain rfl := Option.some.inj ha'
        exact hstep.2 fun htakes => hnot ⟨a, j, ha, hj, htakes⟩

/-- **A step leaves the record current** exactly if the announcer takes no relays over. -/
lemma current_step_iff (h : Copied c s) (hcurrent : s.Current c) (i : Input) :
    (s.step c i).Current c ↔ ¬ s.TakesOver c i := by
  have hnone := h.current_iff_eq.1 hcurrent
  rw [(h.step i).current_iff_eq]
  cases i with
  | listen net =>
    refine ⟨fun _ ⟨a, j, _, hj, _⟩ => (nomatch hj), fun _ a ha => ?_⟩
    change (s.listen c net).announcer = some a at ha
    unfold listen at ha
    split at ha
    · exact hnone a ha
    · obtain rfl := Option.some.inj ha
      exact (relays_update_iff (s := { Announcer.init c with running := true }) rfl).2 fun hnot =>
        hnot.2.1 rfl
  | close force =>
    refine ⟨fun _ ⟨a, j, _, hj, _⟩ => (nomatch hj), fun _ a ha => ?_⟩
    change s.close.announcer = some a at ha
    unfold close at ha
    split at ha
    · exact hnone a ha
    · cases ha
  | suspend => exact relays_forward_iff h hnone _
  | resume net => exact relays_forward_iff h hnone _
  | refresh net => exact relays_forward_iff h hnone _
  | notifyOnline net => exact relays_forward_iff h hnone _
  | announcer i => exact relays_forward_iff h hnone _

lemma copied_fresh (c : Config) : Copied c {} := ⟨nofun, nofun, nofun⟩

/-- **The record is current** in every state of a run exactly if no cycle of the announcer ends that takes
active relays over. -/
theorem current_iff (c : Config) (is : List Input) :
    EveryState (step c) (Current c) {} is ↔ EveryStep (step c) (fun s i => ¬ s.TakesOver c i) {} is := by
  exact @everyState_iff_everyStep Listener Input (step c) (Copied c) (Current c) _
    (fun _ i h => h.step i) (fun _ i h hcurrent => current_step_iff h hcurrent i) {} (copied_fresh c)
    nofun is

/-! ## A server that gets a relay -/

def announcedTwice : List Input := [
  .listen oneNode,
  .announcer (.response oneNode 0 0 { token := some (List.Vector.replicate 32 5) }),
  .announcer (.announced 0 { fromAddr := knownAddr }),
  .announcer (.bgTimer oneNode),
  .announcer (.response oneNode 1 0 { token := some (List.Vector.replicate 32 5) })]

set_option maxRecDepth 10000 in
/-- **A server that has a relay**, which its record does not name. -/
theorem not_current_announcedTwice :
    ¬ EveryState (step zeroSigner) (Current zeroSigner) {} announcedTwice := by
  have hrelay : (run (step zeroSigner) {} announcedTwice).announcer.map (·.relays.length) = some 1 := by
    decide +kernel
  intro h
  obtain ⟨a, ha, hone⟩ := Option.map_eq_some_iff.1 hrelay
  have hcopied : Copied zeroSigner (run (step zeroSigner) {} announcedTwice) :=
    run_invariant (P := Copied zeroSigner) (fun _ i hs => hs.step i) (copied_fresh zeroSigner) announcedTwice
  rw [hcopied.current_iff_eq.1 h.run a ha] at hone
  cases hone

end Listener

end HyperDHT
