import HyperDHT.Holepunch.Strategies
import HyperDHT.Lib.Endless

/-!
# The end of a punch

A strategy that finds no probe is to end with `destroy()`. It does so after finitely many ticks, unless it asks
the pool for sockets and gets none with every tick, or acquired sockets for an address that is not verified any
more.

## Main definitions

* `Holepuncher.Round`, `Holepuncher.Attempt` — a tick with the changes before it, and what it leads to.
* `Holepuncher.Attempt.Ends` — the puncher gives up after finitely many ticks.

## Main results

* `Holepuncher.punches_punch` — a punch that begins makes the puncher punch.
* `Holepuncher.ends_iff` — when a punch comes to an end.
* `Holepuncher.not_ends_exhausted` — a pool without sockets, and an address that is not verified any more.
-/

set_option autoImplicit false

namespace HyperDHT.Holepuncher

open Compact Runs

variable {p q : Holepuncher} {tick : Tick} {now : ℕ}

/-! ## What a punch comes to -/

/-- A tick of the timer, and what the puncher is told before. -/
structure Round where
  updates : List Update := []
  tick : Tick := {}

/-- A puncher that punches, and how often its callback for the end was called since. -/
structure Attempt where
  puncher : Holepuncher
  aborts : ℕ := 0
  deriving DecidableEq

/-- The puncher when the timer fires. -/
def told (p : Holepuncher) (updates : List Update) : Holepuncher := updates.foldl update p

namespace Attempt

/-- A tick comes only if the timer runs. -/
def round (s : Attempt) (r : Round) : Attempt :=
  let p := s.puncher.told r.updates
  if p.timer = none then { s with puncher := p }
  else
    let (next, aborted) := p.onPunchTimer r.tick
    { puncher := next, aborts := s.aborts + aborted.toNat }

/-- **The punch comes to an end**: the timer never stops before the puncher is destroyed, and from some tick
on the puncher is destroyed, its timer does not run, and its callback was called once. -/
def Ends (p : Holepuncher) (rounds : ℕ → Round) : Prop :=
  (∀ n, (after round ⟨p, 0⟩ rounds n).puncher.timer = none →
    (after round ⟨p, 0⟩ rounds n).puncher.destroyed = true) ∧
  ∃ m, ∀ n ≥ m, (after round ⟨p, 0⟩ rounds n).puncher.destroyed = true ∧
    (after round ⟨p, 0⟩ rounds n).puncher.timer = none ∧
    (after round ⟨p, 0⟩ rounds n).aborts = (p.onAbort && !p.destroyed).toNat

end Attempt

/-! ## Rounds -/

lemma told_eq (p : Holepuncher) (updates : List Update) : p.told updates = { p with
    remoteAddresses := (p.told updates).remoteAddresses
    localFirewall := (p.told updates).localFirewall
    remoteFirewall := (p.told updates).remoteFirewall } := by
  induction updates generalizing p with
  | nil => rfl
  | cons u updates ih =>
    have hnext : p.told (u :: updates) = (p.update u).told updates := rfl
    rw [hnext, ih]
    cases u <;> rfl

lemma Punches.told (h : Punches p) (updates : List Update) : Punches (p.told updates) := by
  rw [told_eq]
  exact ⟨⟨h.lives.connected, h.lives.destroyed⟩, h.punching, h.timer, h.pool⟩

lemma rank_told (p : Holepuncher) (updates : List Update) : rank (p.told updates) = rank p := by
  rw [told_eq]
  rfl

namespace Attempt

variable {s : Attempt}

lemma round_of_timer_none (h : s.puncher.timer = none) (r : Round) :
    s.round r = { s with puncher := s.puncher.told r.updates } := by
  have htold : (s.puncher.told r.updates).timer = none := by
    rw [told_eq]
    exact h
  unfold round
  dsimp only
  rw [if_pos htold]

lemma round_of_timer (h : s.puncher.timer ≠ none) (r : Round) :
    s.round r = ⟨((s.puncher.told r.updates).onPunchTimer r.tick).1,
      s.aborts + ((s.puncher.told r.updates).onPunchTimer r.tick).2.toNat⟩ := by
  have htold : (s.puncher.told r.updates).timer ≠ none := by
    rw [told_eq]
    exact h
  unfold round
  dsimp only
  rw [if_neg htold]

/-- A puncher that punches, is over or is idle, with the calls of its callback. -/
inductive Stage (onAbort : Bool) (s : Attempt) : Prop
  | punches (hpunches : Punches s.puncher) (honAbort : s.puncher.onAbort = onAbort) (haborts : s.aborts = 0)
  | ended (hover : Over s.puncher) (haborts : s.aborts = onAbort.toNat)
  | idle (hidle : Idle s.puncher)

lemma over_round (h : Over s.puncher) (r : Round) :
    Over (s.round r).puncher ∧ (s.round r).aborts = s.aborts := by
  rw [round_of_timer_none h.timer]
  refine ⟨⟨?_, ?_⟩, rfl⟩
  · dsimp only
    rw [told_eq]
    exact h.destroyed
  · dsimp only
    rw [told_eq]
    exact h.timer

lemma idle_round (h : Idle s.puncher) (r : Round) : Idle (s.round r).puncher := by
  rw [round_of_timer_none h.timer]
  refine ⟨?_, ?_⟩
  · dsimp only
    rw [told_eq]
    exact h.timer
  · dsimp only
    rw [told_eq]
    exact h.destroyed

lemma stage_round {onAbort : Bool} (h : Stage onAbort s) (r : Round) : Stage onAbort (s.round r) := by
  cases h with
  | punches hpunches honAbort haborts =>
    have htold : (s.puncher.told r.updates).onAbort = onAbort := by
      rw [told_eq]
      exact honAbort
    rw [round_of_timer hpunches.timer]
    cases onPunchTimer_leads (hpunches.told r.updates) r.tick with
    | goesOn hnext _ haborted hsame =>
      exact .punches hnext (hsame.trans htold) (by rw [haborted, haborts]; rfl)
    | ended hnext haborted =>
      refine .ended hnext ?_
      rw [haborted, htold, haborts, Nat.zero_add]
    | starved _ hnext haborted hsame =>
      exact .punches hnext (hsame.trans htold) (by rw [haborted, haborts]; rfl)
    | unverified _ hnext _ => exact .idle hnext
  | ended hover haborts =>
    obtain ⟨hnext, hsame⟩ := over_round hover r
    exact .ended hnext (hsame.trans haborts)
  | idle hidle => exact .idle (idle_round hidle r)

lemma stage_after {rounds : ℕ → Round} (h : Punches p)
    (hverified : ∀ n, ¬ Unverified
      ((after round ⟨p, 0⟩ rounds n).puncher.told (rounds n).updates)) (n : ℕ) :
    Stage p.onAbort (after round ⟨p, 0⟩ rounds n) ∧ ¬ Idle (after round ⟨p, 0⟩ rounds n).puncher := by
  induction n with
  | zero => exact ⟨.punches h rfl rfl, fun hidle => h.timer hidle.timer⟩
  | succ n ih =>
    obtain ⟨hstage, hnot⟩ := ih
    refine ⟨stage_round hstage _, ?_⟩
    rw [after_succ]
    cases hstage with
    | punches hpunches honAbort haborts =>
      rw [round_of_timer hpunches.timer]
      cases onPunchTimer_leads (hpunches.told (rounds n).updates) (rounds n).tick with
      | goesOn hnext _ _ _ => exact fun hidle => hnext.timer hidle.timer
      | ended hnext _ => exact fun hidle => Bool.noConfusion (hnext.destroyed.symm.trans hidle.destroyed)
      | starved _ hnext _ _ => exact fun hidle => hnext.timer hidle.timer
      | unverified hunverified _ _ => exact absurd hunverified (hverified n)
    | ended hover haborts =>
      exact fun hidle => Bool.noConfusion ((over_round hover _).1.destroyed.symm.trans hidle.destroyed)
    | idle hidle => exact absurd hidle hnot

/-- **When a puncher that punches comes to an end**: if no tick is without a verified address, and only
finitely many get no socket.

**Proof sketch.** Each tick that gets a socket, if it asks for one, leaves less to do. -/
lemma ends_iff_of_punches (h : Punches p) (rounds : ℕ → Round) :
    Ends p rounds ↔
      (∀ n, ¬ Unverified ((after round ⟨p, 0⟩ rounds n).puncher.told (rounds n).updates)) ∧
      ∃ m, ∀ n ≥ m, ¬ Starved ((after round ⟨p, 0⟩ rounds n).puncher.told (rounds n).updates)
        (rounds n).tick := by
  have hstages (n : ℕ) : Stage p.onAbort (after round ⟨p, 0⟩ rounds n) :=
    after_invariant (P := Stage p.onAbort) (fun _ r hs => stage_round hs r) (Nat.zero_le n)
      (.punches h rfl rfl)
  constructor
  · rintro ⟨hnever, m, hend⟩
    refine ⟨fun n hunverified => ?_, m, fun n hn hstarved => ?_⟩
    · have hdone := hunverified.1
      rw [told_eq] at hdone
      cases hstages n with
      | punches hpunches _ _ =>
        have hidle := idle_of_unverified (hpunches.told (rounds n).updates) hunverified (rounds n).tick
        have hnext := hnever (n + 1)
        rw [after_succ, round_of_timer hpunches.timer] at hnext
        exact Bool.noConfusion ((hnext hidle.timer).symm.trans hidle.destroyed)
      | ended hover _ => simp [isDone, hover.destroyed] at hdone
      | idle hidle => exact Bool.noConfusion ((hnever n hidle.timer).symm.trans hidle.destroyed)
    · have hdone := hstarved.1
      rw [told_eq] at hdone
      simp [isDone, (hend n hn).1] at hdone
  · rintro ⟨hverified, hfed⟩
    have hstage := stage_after h hverified
    refine ⟨fun n htimer => ?_, ?_⟩
    · by_contra hdestroyed
      exact (hstage n).2 ⟨htimer, Bool.eq_false_iff.2 hdestroyed⟩
    · have hover : ∃ n, Over (after round ⟨p, 0⟩ rounds n).puncher := by
        refine @exists_after_of_rank Attempt Round round (fun s => Over s.puncher)
          (fun s r => Starved (s.puncher.told r.updates) r.tick) (fun s => rank s.puncher) ⟨p, 0⟩ rounds
          (fun n hnot => ?_) hfed
        cases (hstage n).1 with
        | punches hpunches honAbort haborts =>
          rw [after_succ, round_of_timer hpunches.timer]
          cases onPunchTimer_leads (hpunches.told (rounds n).updates) (rounds n).tick with
          | goesOn _ hrank _ _ =>
            rw [rank_told] at hrank
            exact .inr (.inl hrank)
          | ended hnext _ => exact .inl hnext
          | starved hstarved _ _ _ => exact .inr (.inr hstarved)
          | unverified hunverified _ _ => exact absurd hunverified (hverified n)
        | ended hover _ => exact absurd hover hnot
        | idle hidle => exact absurd hidle (hstage n).2
      obtain ⟨m, hm⟩ := hover
      have haborts : (after round ⟨p, 0⟩ rounds m).aborts = p.onAbort.toNat := by
        cases (hstage m).1 with
        | punches hpunches _ _ => exact absurd hm.timer hpunches.timer
        | ended _ haborts => exact haborts
        | idle hidle => exact absurd hidle (hstage m).2
      refine ⟨m, fun n hn => ?_⟩
      obtain ⟨hlast, hsame⟩ := after_invariant
        (P := fun s : Attempt => Over s.puncher ∧ s.aborts = p.onAbort.toNat)
        (fun s r hs => ⟨(over_round hs.1 r).1, ((over_round hs.1 r).2).trans hs.2⟩) hn ⟨hm, haborts⟩
      refine ⟨hlast.destroyed, hlast.timer, hsame.trans ?_⟩
      rw [h.lives.destroyed, Bool.not_false, Bool.and_true]

lemma ends_of_destroyed (h : p.destroyed = true) (rounds : ℕ → Round) :
    Ends p rounds ∧ ∀ n, (after round ⟨p, 0⟩ rounds n).puncher.isDone = true := by
  have hdestroyed (n : ℕ) : (after round ⟨p, 0⟩ rounds n).puncher.destroyed = true ∧
      (after round ⟨p, 0⟩ rounds n).aborts = 0 ∧
      (0 < n → (after round ⟨p, 0⟩ rounds n).puncher.timer = none) := by
    induction n with
    | zero => exact ⟨h, rfl, fun hpos => absurd hpos (lt_irrefl 0)⟩
    | succ n ih =>
      obtain ⟨hgone, haborts, -⟩ := ih
      rw [after_succ]
      by_cases htimer : (after round ⟨p, 0⟩ rounds n).puncher.timer = none
      · obtain ⟨hnext, hsame⟩ := over_round ⟨hgone, htimer⟩ (rounds n)
        exact ⟨hnext.destroyed, hsame.trans haborts, fun _ => hnext.timer⟩
      · have hdone : ((after round ⟨p, 0⟩ rounds n).puncher.told (rounds n).updates).isDone = true := by
          rw [told_eq]
          simp [isDone, hgone]
        rw [round_of_timer htimer, onPunchTimer_of_isDone hdone, told_eq]
        exact ⟨hgone, by rw [haborts]; rfl, fun _ => rfl⟩
  refine ⟨⟨fun n _ => (hdestroyed n).1, 1, fun n hn => ?_⟩, fun n => ?_⟩
  · refine ⟨(hdestroyed n).1, (hdestroyed n).2.2 hn, (hdestroyed n).2.1.trans ?_⟩
    rw [h, Bool.not_true, Bool.and_false]
    rfl
  · simp [isDone, (hdestroyed n).1]

end Attempt

/-! ## A punch comes to an end -/

lemma destroyed_destroy (p : Holepuncher) (h : p.destroyed = true) : (p.destroy now).1.destroyed = true := by
  unfold destroy
  rw [if_pos h]
  exact h

lemma WorksOut.destroyed (h : WorksOut p now q) (hgone : p.destroyed = true) :
    q.destroyed = true := by
  obtain ⟨r, hr, rfl | rfl⟩ := h
  · exact hr.destroyed.trans hgone
  · exact destroyed_destroy r (hr.destroyed.trans hgone)

lemma destroyed_punch (h : p.destroyed = true) : (p.punch tick).1.destroyed = true := by
  rcases punch_cases p tick with ⟨heq, -⟩ | ⟨q, hq, hbegun⟩
  · rw [heq]
    exact h
  · have hgone : q.destroyed = true := by
      rw [hq.eq]
      exact h
    rcases hbegun with ⟨-, heq⟩ | ⟨-, heq⟩ | ⟨-, -, heq⟩
    · rw [heq]
      exact (worksOut_consistentProbe q).destroyed hgone
    · rw [heq]
      exact (worksOut_randomProbes q).destroyed hgone
    · rw [heq]
      exact (works_openBirthdaySockets q).destroyed.trans hgone

/-- **A punch that begins**, of a puncher that lives, makes it punch. -/
lemma punches_punch (h : p.Lives) (hpool : p.holders ≠ [] → p.hasPool = true)
    (hpunch : (p.punch tick).2 = true) : Punches (p.punch tick).1 := by
  rcases punch_cases p tick with ⟨-, hnothing⟩ | ⟨q, hq, hbegun⟩
  · rcases hnothing with hconnected | hnot
    · exact Bool.noConfusion (h.connected.symm.trans hconnected)
    · exact Bool.noConfusion (hnot.symm.trans hpunch)
  · have hlives : q.Lives := by
      rw [hq.eq]
      exact ⟨h.connected, h.destroyed⟩
    have hpunching : q.punching = true := by rw [hq.eq]
    have hpooled : q.holders ≠ [] → q.hasPool = true := by
      rw [hq.eq]
      exact hpool
    rcases hbegun with ⟨hround, heq⟩ | ⟨hleft, heq⟩ | ⟨hvr, hhas, heq⟩
    · rw [heq]
      rcases @consistentProbe_cases q tick.now hlives hpunching with ⟨hgoes, -⟩ | ⟨-, hover⟩
      · exact punches_of_goesOn hlives hpunching hpooled hgoes
      · rw [hround] at hover
        exact absurd hover (by decide)
    · rw [heq]
      rcases @randomProbes_cases q tick hlives hpunching with ⟨hgoes, -⟩ | ⟨-, hover⟩
      · exact punches_of_goesOn hlives hpunching hpooled hgoes
      · rw [hleft] at hover
        exact absurd hover (by decide)
    · rw [heq]
      refine (punches_openBirthdaySockets hlives hpunching ?_ ?_).1
      · rw [hq.eq]
        exact hhas
      · rw [hq.eq]
        exact hvr

/-- **When a punch comes to an end.** Whatever calls were made before, if `punch` returns true and no
probe has come, the puncher is destroyed after finitely many ticks, its callback is called once, and its
timer never stops before, exactly if no tick finds that no address is verified while there are sockets of
the pool to send from, and only finitely many ticks get no socket from the pool when they ask for one
more.

**Proof sketch.** The sockets that are not acquired, the probes and the rounds that are left get fewer
with each tick that gets what it asks for. -/
theorem ends_iff (isInitiator hasPool : Bool) (stats : Option PunchStats) (calls : List Call) (tick : Tick)
    (hheard : (run act (create isInitiator hasPool stats) calls).connected = false)
    (hpunch : ((run act (create isInitiator hasPool stats) calls).punch tick).2 = true)
    (rounds : ℕ → Round) :
    let p := ((run act (create isInitiator hasPool stats) calls).punch tick).1
    let s := after Attempt.round ⟨p, 0⟩ rounds
    Attempt.Ends p rounds ↔
      (∀ n, ¬ Unverified ((s n).puncher.told (rounds n).updates)) ∧
      ∃ m, ∀ n ≥ m, ¬ Starved ((s n).puncher.told (rounds n).updates) (rounds n).tick := by
  cases hdestroyed : (run act (create isInitiator hasPool stats) calls).destroyed with
  | true =>
    obtain ⟨hends, hdone⟩ := Attempt.ends_of_destroyed (destroyed_punch hdestroyed) rounds
    have htold (n : ℕ) : ((after Attempt.round
        ⟨((run act (create isInitiator hasPool stats) calls).punch tick).1, 0⟩ rounds n).puncher.told
          (rounds n).updates).isDone = true := by
      rw [told_eq]
      exact hdone n
    refine ⟨fun _ => ⟨fun n h => ?_, 0, fun n _ h => ?_⟩, fun _ => hends⟩
    · exact Bool.noConfusion ((htold n).symm.trans h.1)
    · exact Bool.noConfusion ((htold n).symm.trans h.1)
  | false =>
    exact Attempt.ends_iff_of_punches (punches_punch ⟨hheard, hdestroyed⟩
      (holders_run isInitiator hasPool stats calls) hpunch) rounds

/-! ## A pool without sockets -/

def seenAddr : Ipv4Address := .ofOctets 192 0 2 9 49737

def randomCalls : List Call := [.setSendTtlFn true, .onAbort true,
  .update (.setLocalFirewall firewallRandom), .update (.setRemoteFirewall firewallConsistent),
  .update (.updateRemote [seenAddr] seenAddr.hostString)]

def lastSocket : Tick := { acquired := some ⟨1, false⟩ }

def randomClient : Holepuncher := ((run act (create true true none) randomCalls).punch lastSocket).1

theorem ends_iff_randomClient :
    (run act (create true true none) randomCalls).connected = false ∧
    ((run act (create true true none) randomCalls).punch lastSocket).2 = true ∧
    let s := after Attempt.round ⟨randomClient, 0⟩ fun _ => {}
    (Attempt.Ends randomClient (fun _ => {}) ↔
      (∀ n, ¬ Unverified ((s n).puncher.told [])) ∧ ∃ m, ∀ n ≥ m, ¬ Starved ((s n).puncher.told []) {}) :=
  ⟨rfl, by decide +kernel,
    ends_iff true true none randomCalls lastSocket rfl (by decide +kernel) fun _ => {}⟩

/-- **A punch that does not come to an end**: when the pool has no more sockets, the client asks for one with
every tick, forever; and when its addresses are set anew, it stops without an end. -/
theorem not_ends_exhausted :
    ((run act (create true true none) randomCalls).punch lastSocket).2 = true ∧
    ¬ Attempt.Ends randomClient (fun _ => {}) ∧
    ¬ Attempt.Ends randomClient
      (fun _ => { updates := [.setRemoteAddresses [seenAddr]], tick := lastSocket }) := by
  refine ⟨by decide +kernel, fun hends => ?_, fun hends => ?_⟩
  · have hround : Attempt.round ⟨randomClient, 0⟩ {} = ⟨randomClient, 0⟩ := by decide +kernel
    obtain ⟨m, hm⟩ := hends.2
    have hsame (n : ℕ) : after Attempt.round ⟨randomClient, 0⟩ (fun _ => {}) n = ⟨randomClient, 0⟩ := by
      induction n with
      | zero => rfl
      | succ n ih => rw [after_succ, ih, hround]
    have hdestroyed := (hm m le_rfl).1
    rw [hsame] at hdestroyed
    exact absurd hdestroyed (by decide +kernel)
  · have hidle := hends.1 1
    have hnow : (Attempt.round ⟨randomClient, 0⟩
        { updates := [.setRemoteAddresses [seenAddr]], tick := lastSocket }).puncher.timer = none ∧
      (Attempt.round ⟨randomClient, 0⟩
        { updates := [.setRemoteAddresses [seenAddr]], tick := lastSocket }).puncher.destroyed = false := by
      decide +kernel
    exact Bool.noConfusion ((hidle hnow.1).symm.trans hnow.2)

end HyperDHT.Holepuncher
