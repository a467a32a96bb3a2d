import HyperDHT.Server.Streams

/-!
# The relay and the other ways in

A client with a relay may get through to its session over the relay or on another way, whichever comes
first. The other ways end the session, which keeps its stream until then. The relay keeps the stream
as well, and does not ask whether the session is still there.

## Main definitions

* `Server.HandsOutFairly` — streams are handed out once, and those that were are not destroyed.
* `Server.LateUnchanged` — a relay that is heard of when its session has ended changes nothing.
* `Server.RelayWaits` — no relay is heard of in a way that does harm.

## Main results

* `Server.handsOutFairly_of_relayWaits` — the ways in race safely in every run in which no relay is heard
  of in a way that does harm.
-/

set_option autoImplicit false

namespace HyperDHT.Server

open Compact Handlers

variable {env : Env} {s s' : Server}

/-! ## The race -/

/-- Streams are handed out once, and those that were are not destroyed. -/
structure HandsOutFairly (s : Server) : Prop where
  once : (s.accepted.map (·.2.rawStream)).Nodup
  there : ∀ e ∈ s.accepted, ∃ p, ∃ st : RawStream, e.2.rawStream = some p ∧
    s.streams[p]? = some st ∧ st.destroyed = false

lemma Kept.handsOutFairly (h : Kept s) (hfair : s.custody.Fair) : HandsOutFairly s where
  once := h.labelled.nodup_rawStream hfair.1
  there := by
    intro e he
    obtain ⟨p, st, hp, hst, -⟩ := h.labelled.accepted e he
    refine ⟨p, st, hp, hst, ?_⟩
    have hgiven : p ∈ s.custody.given := List.mem_filterMap.2 ⟨e, he, hp⟩
    by_contra hdestroyed
    exact hfair.2 p hgiven ⟨st, hst, Bool.eq_true_of_not_eq_false hdestroyed⟩

/-- A relay that the server waits for and what it hears of it: that the sides are paired, or that it
failed. -/
def relayOutcome (s : Server) : Input → Option (RelayAttempt × Bool)
  | .relayConnect k .failed => (s.relayAttempts[k]?.filter (!·.pairing)).map (·, false)
  | .relayPair k (some _) => (s.relayAttempts[k]?.filter (·.pairing)).map (·, true)
  | .relayPairFailed k => (s.relayAttempts[k]?.filter (·.pairing)).map (·, false)
  | _ => none

/-- The session that the attempt belongs to still waits, with its stream. -/
def keepsStream (s : Server) (attempt : RelayAttempt) : Bool :=
  (s.connections.lookup attempt.hpId).bind (·.rawStream) == some attempt.rawStream

/-- A relay that is heard of when its session has ended is forgotten, and nothing else changes. -/
def LateUnchanged (env : Env) (s : Server) (i : Input) : Prop :=
  ∀ o ∈ relayOutcome s i, keepsStream s o.1 = false →
    step env s i = { s with relayAttempts := (step env s i).relayAttempts }

/-- No relay pairs the sides, unless the session still waits and there is no callback; and when one
fails its session still waits, or there is no other one under the id of it. -/
def RelayWaits (s : Server) (i : Input) : Prop :=
  s.closed = true ∨ ∀ o ∈ relayOutcome s i,
    if o.2 then keepsStream s o.1 = true ∧ s.onConnection = false
    else keepsStream s o.1 = true ∨ (s.connections.lookup o.1.hpId).isNone = true

instance (s : Server) (i : Input) : Decidable (RelayWaits s i) :=
  inferInstanceAs (Decidable (_ ∨ ∀ o ∈ relayOutcome s i, _))

lemma RelayWaits.not_calledByRelay {i : Input} (h : RelayWaits s i) : ¬ CalledByRelay s i s' := by
  rintro ⟨k, via, attempt, info, moved, rfl, hattempt, hpairing, hclosed, honConnection, -⟩
  rcases h with hgone | hwaits
  · rw [hclosed] at hgone
    cases hgone
  · have hpaired := hwaits (attempt, true) (by simp [relayOutcome, hattempt, hpairing])
    rw [if_pos rfl, honConnection] at hpaired
    cases hpaired.2

lemma clearSession_of_none {hpId : UInt32} (h : (s.connections.lookup hpId).isNone = true) :
    s.clearSession hpId = s := by
  rw [clearSession, Option.isNone_iff_eq_none.1 h]

lemma RelayWaits.lateUnchanged {i : Input} (h : RelayWaits s i) (env : Env) :
    LateUnchanged env s i := by
  rintro ⟨attempt, paired⟩ ho hended
  have hout : s.closed = false → paired = false ∧
      (s.connections.lookup attempt.hpId).isNone = true := by
    intro hclosed
    rcases h with hgone | hwaits
    · rw [hclosed] at hgone
      cases hgone
    · have hwait := hwaits (attempt, paired) ho
      cases paired with
      | true => simp [hended] at hwait
      | false => simpa [hended] using hwait
  cases i with
  | relayConnect k outcome =>
    cases outcome with
    | failed =>
      obtain ⟨a, ha, heq⟩ := Option.map_eq_some_iff.1 (Option.mem_def.1 ho)
      obtain ⟨hattempt, hpairing⟩ := Option.filter_eq_some_iff.1 ha
      cases heq
      have hnot : attempt.pairing = false := by simpa using hpairing
      simp only [step, onRelayConnect, hattempt, hnot, Bool.false_eq_true, if_false]
      split
      · rfl
      · next hclosed =>
        rw [clearSession_of_none (s := { s with relayAttempts := s.relayAttempts.eraseIdx k })
          (hout (Bool.eq_false_of_not_eq_true hclosed)).2]
    | _ => cases ho
  | relayPair k via =>
    cases via with
    | none => cases ho
    | some via =>
      obtain ⟨a, ha, heq⟩ := Option.map_eq_some_iff.1 (Option.mem_def.1 ho)
      obtain ⟨hattempt, hpairing⟩ := Option.filter_eq_some_iff.1 ha
      cases heq
      simp only [step, onRelayPair, hattempt, hpairing, Bool.not_true, Bool.false_eq_true, if_false]
      split
      · rfl
      · next hclosed => cases (hout (Bool.eq_false_of_not_eq_true hclosed)).1
  | relayPairFailed k =>
    obtain ⟨a, ha, heq⟩ := Option.map_eq_some_iff.1 (Option.mem_def.1 ho)
    obtain ⟨hattempt, hpairing⟩ := Option.filter_eq_some_iff.1 ha
    cases heq
    simp only [step, onRelayPairFailed, hattempt, hpairing, Bool.not_true, Bool.false_eq_true,
      if_false]
    split
    · rfl
    · next hclosed =>
      rw [clearSession_of_none (s := { s with relayAttempts := s.relayAttempts.eraseIdx k })
        (hout (Bool.eq_false_of_not_eq_true hclosed)).2]
  | _ => cases ho

/-- **The ways in race safely** in every run in which no relay is heard of in a way that does harm:
streams are handed out once and are not destroyed then, and a relay that is heard of too late changes
nothing.

**Proof sketch.** All that the server does with its streams is what their owner may do, as long as no
relay pairs the sides. -/
theorem handsOutFairly_of_relayWaits (env : Env) {is : List Input}
    (h : Runs.EveryStep (step env) RelayWaits {} is) :
    Runs.EveryState (step env) HandsOutFairly {} is ∧
      Runs.EveryStep (step env) (LateUnchanged env) {} is := by
  refine ⟨?_, h.mono fun s i hi => hi.lateUnchanged env⟩
  have hfirst : Kept {} ∧ Custody.Fair (custody {}) := ⟨kept_empty, by simp [custody, Custody.Fair]⟩
  refine (Runs.everyState_of_everyStep (P := fun s => Kept s ∧ Custody.Fair s.custody)
    (fun s i hs hi => ⟨hs.1.step env i, ?_⟩) hfirst h).mono fun s hs => hs.1.handsOutFairly hs.2
  rcases hs.1.steps env i with hsteps | hcalled
  · exact hs.2.steps hs.1.sound hsteps
  · exact absurd hcalled hi.not_calledByRelay

/-! ## A relay that pairs the sides -/

def relayedPayload : NoisePayload where
  udx := some { id := 9 }
  relayThrough := some { publicKey := List.Vector.replicate 32 5, token := List.Vector.replicate 32 6 }

def packetAddress : Ipv4Address := { host := List.Vector.replicate 4 7, port := 4242 }

/-- A client gets through by a packet, and its relay fails afterwards; that of another client fails
while its session still waits. -/
def lateRelayRun : List Input :=
  [.listen true, message [1] 1, message [2] 2, .packet 0 packetAddress 0, .relayConnect 1 .connected,
    .relayConnect 0 .failed, .relayPairFailed 0]

/-- The run of `handsOutFairly_of_relayWaits` with a packet and two relays that fail. -/
theorem handsOutFairly_lateRelayRun :
    Runs.EveryState (step (plainEnv relayedPayload)) HandsOutFairly {} lateRelayRun ∧
      Runs.EveryStep (step (plainEnv relayedPayload)) (LateUnchanged (plainEnv relayedPayload)) {}
        lateRelayRun :=
  handsOutFairly_of_relayWaits _ (by decide +kernel)

def pairedRun : List Input :=
  [.listen true, message [1] 1, .relayConnect 0 .connected,
    .relayPair 0 (some { remoteId := 3, address := packetAddress, socket := 0 })]

/-- **The stream that a relay hands out is destroyed**: the session ends before the callback is called,
and its stream with it. -/
theorem not_handsOutFairly_pairedRun :
    ¬ Runs.EveryState (step (plainEnv relayedPayload)) HandsOutFairly {} pairedRun := by
  intro hall
  have hstream : ((Runs.run (step (plainEnv relayedPayload)) {} pairedRun).streams.map
      (·.destroyed)) = [true] := by decide +kernel
  have haccepted : ((Runs.run (step (plainEnv relayedPayload)) {} pairedRun).accepted.map
      (·.2.rawStream)) = [some 0] := by decide +kernel
  obtain ⟨e, he, he0⟩ := List.mem_map.1 (haccepted ▸ List.mem_singleton.2 rfl :
    some 0 ∈ (Runs.run (step (plainEnv relayedPayload)) {} pairedRun).accepted.map (·.2.rawStream))
  obtain ⟨p, st, hp, hst, hthere⟩ := hall.run.there e he
  have hmem : st.destroyed ∈ (Runs.run (step (plainEnv relayedPayload)) {} pairedRun).streams.map
      (·.destroyed) := List.mem_map_of_mem (List.mem_of_getElem? hst)
  rw [hstream, List.mem_singleton, hthere] at hmem
  cases hmem

end HyperDHT.Server
