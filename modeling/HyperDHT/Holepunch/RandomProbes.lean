import HyperDHT.Holepunch.PunchEnd

/-!
# Random probing

Where only the firewall of the peer is random, a puncher is to send 1750 probes to random ports of the first
host, and then to give up. The last branch of `random_probes`, which gives up, is never taken: the timer calls
the function only as long as there are probes left, and then takes the strategy for the one with rounds.

## Main definitions

* `Holepuncher.ToRandomPort` — a probe to a random port of the first host.
* `Holepuncher.Executes` — a tick carries on a strategy.
* `Holepuncher.FollowsRandom` — the probes are sent, and the puncher gives up, all by its own strategy.

## Main results

* `Holepuncher.goesOn_of_randomProbes` — a tick for a random probe goes on.
* `Holepuncher.randomProbes_after` — what is sent before the last tick.
* `Holepuncher.not_followsRandom` — the puncher never gives up by its own strategy.
-/

set_option autoImplicit false

namespace HyperDHT.Holepuncher

open Compact Runs

/-- A probe to a random port of the first host. -/
def ToRandomPort (addrs : List RemoteAddr) (probe : Probe) : Prop :=
  ∃ ra ∈ addrs.head?, probe.ttl = none ∧ probe.addr.host = ra.addr.host ∧
    1000 ≤ probe.addr.port.toNat ∧ probe.addr.port.toNat ≤ 65535

/-- A tick carries on this strategy. -/
def Executes (s : Attempt) (r : Round) (strategy : Strategy) : Prop :=
  s.puncher.timer ≠ none ∧ s.puncher.isDone = false ∧ (s.puncher.told r.updates).strategy = strategy

/-- What was sent in the first ticks: this many probes, each to a random port of the host that was the
first one when it was sent. -/
def SentRandom (p : Holepuncher) (tick : Tick) (rounds : ℕ → Round) (n count : ℕ) : Prop :=
  let s := after Attempt.round ⟨(p.punch tick).1, 0⟩ rounds
  ∃ sent, (s n).puncher.probes = p.probes ++ sent ∧ sent.length = count ∧
    ∀ probe ∈ sent, ToRandomPort p.remoteAddresses probe ∨
      ∃ k < n, ToRandomPort ((s k).puncher.told (rounds k).updates).remoteAddresses probe

/-- **The strategy is followed**: after some ticks, which all carried on this strategy, as many probes as
are meant were sent, and the puncher was destroyed, with a call of its callback. -/
def FollowsRandom (p : Holepuncher) (tick : Tick) (rounds : ℕ → Round) : Prop :=
  let s := after Attempt.round ⟨(p.punch tick).1, 0⟩ rounds
  ∃ n, (s n).puncher.destroyed = true ∧ (s n).aborts = p.onAbort.toNat ∧
    (∀ k < n, ∀ strategy, Executes (s k) (rounds k) strategy → strategy = .randomProbes) ∧
    SentRandom p tick rounds n randomProbesCount

variable {p q : Holepuncher} {tick : Tick}

lemma probes_randomProbes (h : p.Lives) (hpunching : p.punching = true) (hleft : p.randomProbesLeft ≠ 0)
    (hsend : p.sendFn = true) (haddrs : p.remoteAddresses ≠ []) :
    ∃ probe, (p.randomProbes tick).1.probes = p.probes ++ [probe] ∧ ToRandomPort p.remoteAddresses probe := by
  obtain ⟨ra, rest, hra⟩ := List.exists_cons_of_ne_nil haddrs
  have hgoes : ¬ (!p.punching || p.connected) = true := by simp [hpunching, h.connected]
  have hport : (UInt16.ofNat (1000 + tick.random % 64536)).toNat = 1000 + tick.random % 64536 := by
    have hlt := Nat.mod_lt tick.random (show 64536 > 0 by decide)
    rw [UInt16.toNat_ofNat']
    omega
  have haddr : Ipv4Address.fromString ra.addr.hostString (UInt16.ofNat (1000 + tick.random % 64536)) =
      ⟨ra.addr.host, UInt16.ofNat (1000 + tick.random % 64536)⟩ :=
    Ipv4Address.fromString_hostString ⟨ra.addr.host, UInt16.ofNat (1000 + tick.random % 64536)⟩
  refine ⟨⟨⟨ra.addr.host, UInt16.ofNat (1000 + tick.random % 64536)⟩, none⟩, ?_,
    ra, by rw [hra]; rfl, rfl, rfl, ?_, ?_⟩
  · unfold randomProbes
    rw [if_neg hgoes, if_neg hleft, hra]
    dsimp only
    rw [haddr, sendProbe, if_pos hsend]
  · rw [hport]
    exact Nat.le_add_right _ _
  · rw [hport]
    have hlt := Nat.mod_lt tick.random (show 64536 > 0 by decide)
    omega

lemma length_probes_randomProbes_le (hleft : p.randomProbesLeft ≠ 0) :
    (p.randomProbes tick).1.probes.length ≤ p.probes.length + 1 := by
  have hsent (addr : Ipv4Address) : (p.sendProbe addr).probes.length ≤ p.probes.length + 1 := by
    unfold sendProbe
    split
    · simp
    · exact Nat.le_succ _
  unfold randomProbes
  split
  · exact Nat.le_succ _
  · dsimp only
    split
    · exact Nat.le_succ _
    · exact hsent _

/-- **What a punch towards a random firewall begins.** -/
lemma punch_eq_randomProbes (hheard : p.connected = false) (hlocal : p.localFirewall ≠ firewallRandom)
    (hremote : p.remoteFirewall = firewallRandom) (hpunch : (p.punch tick).2 = true) :
    ∃ q, Begun p q ∧ q.randomProbesLeft = randomProbesCount ∧ (p.punch tick).1 = (q.randomProbes tick).1 := by
  cases hthrottled : p.throttled tick.now with
  | true => simp [punch, hheard, hlocal, hremote, hthrottled] at hpunch
  | false =>
    refine ⟨{ p.countRandom.incrementRandomized with
      punching := true, randomProbesLeft := randomProbesCount }, ⟨?_⟩, rfl, ?_⟩
    · rw [countRandom_incrementRandomized_eq]
    · simp [punch, hheard, hlocal, hremote, hthrottled]

namespace Attempt

variable {s : Attempt}

lemma destroyed_round {r : Round}
    (honly : ∀ strategy, Executes s r strategy → strategy = .randomProbes) :
    (s.round r).puncher.destroyed = s.puncher.destroyed := by
  by_cases htimer : s.puncher.timer = none
  · rw [round_of_timer_none htimer, told_eq]
  · rw [round_of_timer htimer]
    dsimp only
    cases hdone : s.puncher.isDone with
    | true =>
      have htold : (s.puncher.told r.updates).isDone = true := by
        rw [told_eq]
        exact hdone
      rw [onPunchTimer_of_isDone htold, told_eq]
    | false =>
      have htold : (s.puncher.told r.updates).isDone = false := by
        rw [told_eq]
        exact hdone
      have hstrategy := honly _ ⟨htimer, hdone, rfl⟩
      have hleft : { s.puncher.told r.updates with timer := none }.randomProbesLeft ≠ 0 :=
        probes_of_strategy hstrategy
      rw [onPunchTimer_eq htold, hstrategy, carryOn, (works_randomProbes hleft).destroyed, told_eq]

lemma probes_round_of_destroyed (h : s.puncher.destroyed = true) (r : Round) :
    (s.round r).puncher.destroyed = true ∧ (s.round r).puncher.probes = s.puncher.probes := by
  by_cases htimer : s.puncher.timer = none
  · rw [round_of_timer_none htimer, told_eq]
    exact ⟨h, rfl⟩
  · have hdone : (s.puncher.told r.updates).isDone = true := by
      rw [told_eq]
      simp [isDone, h]
    rw [round_of_timer htimer, onPunchTimer_of_isDone hdone, told_eq]
    exact ⟨h, rfl⟩

end Attempt

/-- **The strategy is never followed to its end.**

**Proof sketch.** As long as no other strategy is carried on, nothing is destroyed, so the puncher was
destroyed before it began. But then it sends one probe at most. -/
lemma not_followsRandom_of_punch (hheard : p.connected = false) (hlocal : p.localFirewall ≠ firewallRandom)
    (hremote : p.remoteFirewall = firewallRandom) (hpunch : (p.punch tick).2 = true) (rounds : ℕ → Round) :
    ¬ FollowsRandom p tick rounds := by
  rintro ⟨n, hdestroyed, -, honly, sent, hprobes, hlength, -⟩
  set s := after Attempt.round ⟨(p.punch tick).1, 0⟩ rounds with hs
  have hsame : ∀ k ≤ n, (s k).puncher.destroyed = (p.punch tick).1.destroyed := by
    intro k hk
    induction k with
    | zero => rfl
    | succ k ih =>
      rw [hs, after_succ, Attempt.destroyed_round (honly k hk)]
      exact ih (Nat.le_of_succ_le hk)
  have hbefore : (p.punch tick).1.destroyed = true := (hsame n le_rfl).symm.trans hdestroyed
  have hquiet : (s n).puncher.destroyed = true ∧ (s n).puncher.probes = (p.punch tick).1.probes :=
    after_invariant
      (P := fun s : Attempt => s.puncher.destroyed = true ∧ s.puncher.probes = (p.punch tick).1.probes)
      (fun s r ⟨hgone, hkept⟩ => ⟨(Attempt.probes_round_of_destroyed hgone r).1,
        (Attempt.probes_round_of_destroyed hgone r).2.trans hkept⟩)
      (Nat.zero_le n) ⟨hbefore, rfl⟩
  obtain ⟨q, hq, hleft, heq⟩ := punch_eq_randomProbes hheard hlocal hremote hpunch
  have hfew : (p.punch tick).1.probes.length ≤ p.probes.length + 1 := by
    rw [heq]
    refine (length_probes_randomProbes_le ?_).trans ?_
    · rw [hleft]
      decide
    · rw [hq.eq]
  rw [← hquiet.2, hprobes, List.length_append, hlength] at hfew
  exact absurd hfew (by simp [randomProbesCount])

/-! ## What is sent -/

/-- A puncher without sockets in the midst of its random probes. -/
structure Probing (s : Attempt) (left : ℕ) : Prop where
  punches : Punches s.puncher
  holders : s.puncher.holders = []
  sendFn : s.puncher.sendFn = true
  addrs : s.puncher.remoteAddresses ≠ []
  left : s.puncher.randomProbesLeft = left

lemma strategy_of_holders (h : p.holders = []) :
    p.strategy = if p.randomProbesLeft > 0 then .randomProbes else .consistentProbe := by
  simp [strategy, h]

lemma Probing.executes {s : Attempt} {left : ℕ} (h : Probing s left) (r : Round) :
    Executes s r (if left > 0 then .randomProbes else .consistentProbe) := by
  refine ⟨h.punches.timer, h.punches.lives.isDone, ?_⟩
  have hholders : (s.puncher.told r.updates).holders = [] := by
    rw [told_eq]
    exact h.holders
  have hleft : (s.puncher.told r.updates).randomProbesLeft = left := by
    rw [told_eq]
    exact h.left
  rw [strategy_of_holders hholders, hleft]

lemma probing_randomProbes {left : ℕ} (h : p.Lives) (hpunching : p.punching = true)
    (hholders : p.holders = []) (hsend : p.sendFn = true) (haddrs : p.remoteAddresses ≠ [])
    (hleft : p.randomProbesLeft = left + 1) (n : ℕ) : Probing ⟨(p.randomProbes tick).1, n⟩ left := by
  have hsome : p.randomProbesLeft ≠ 0 := hleft ▸ Nat.succ_ne_zero left
  rcases @randomProbes_cases p tick h hpunching with ⟨hgoes, -⟩ | ⟨-, hzero⟩
  · refine ⟨punches_of_goesOn h hpunching (fun hne => absurd hholders hne) hgoes, ?_, ?_, ?_, ?_⟩
    · dsimp only
      rw [hgoes.eq]
      exact hholders
    · dsimp only
      rw [hgoes.eq]
      exact hsend
    · dsimp only
      rw [hgoes.eq]
      exact haddrs
    · rw [(counters_randomProbes h hpunching hsome).1, hleft]
      rfl
  · exact absurd hzero hsome

/-- **A tick in the midst of the probes** sends one more of them. -/
lemma Probing.round {s : Attempt} {left : ℕ} (h : Probing s (left + 1)) (r : Round)
    (haddrs : (s.puncher.told r.updates).remoteAddresses ≠ []) :
    Probing (s.round r) left ∧ ∃ probe, (s.round r).puncher.probes = s.puncher.probes ++ [probe] ∧
      ToRandomPort (s.puncher.told r.updates).remoteAddresses probe := by
  obtain ⟨-, -, hstrategy⟩ := h.executes r
  rw [if_pos (Nat.succ_pos left)] at hstrategy
  have hkept : (s.puncher.told r.updates).holders = [] ∧ (s.puncher.told r.updates).sendFn = true ∧
      (s.puncher.told r.updates).randomProbesLeft = left + 1 ∧
      (s.puncher.told r.updates).probes = s.puncher.probes := by
    rw [told_eq]
    exact ⟨h.holders, h.sendFn, h.left, rfl⟩
  obtain ⟨hholders, hsend, hleft, hprobes⟩ := hkept
  have htold := h.punches.told r.updates
  set q := s.puncher.told r.updates with hq
  have hfired : Lives { q with timer := none } := ⟨htold.lives.connected, htold.lives.destroyed⟩
  have hsome : q.randomProbesLeft ≠ 0 := hleft ▸ Nat.succ_ne_zero left
  rw [Attempt.round_of_timer h.punches.timer, ← hq, onPunchTimer_eq htold.lives.isDone, hstrategy, carryOn]
  refine ⟨@probing_randomProbes { q with timer := none } r.tick left hfired htold.punching hholders hsend
    haddrs hleft _, ?_⟩
  obtain ⟨probe, hsent, hto⟩ := @probes_randomProbes { q with timer := none } r.tick hfired htold.punching
    hsome hsend haddrs
  exact ⟨probe, hsent.trans (by rw [← hprobes]), hto⟩

/-- **What is sent before the last tick.** -/
lemma randomProbes_after (h : p.Lives) (hholders : p.holders = []) (hsend : p.sendFn = true)
    (haddrs : p.remoteAddresses ≠ []) (hlocal : p.localFirewall ≠ firewallRandom)
    (hremote : p.remoteFirewall = firewallRandom) (hpunch : (p.punch tick).2 = true) (rounds : ℕ → Round)
    (left n : ℕ) (hn : left + (n + 1) = randomProbesCount)
    (htold : ∀ k < n, ((after Attempt.round ⟨(p.punch tick).1, 0⟩ rounds k).puncher.told
      (rounds k).updates).remoteAddresses ≠ []) :
    Probing (after Attempt.round ⟨(p.punch tick).1, 0⟩ rounds n) left ∧
      SentRandom p tick rounds n (n + 1) := by
  induction n generalizing left with
  | zero =>
    obtain ⟨q, hq, hcount, heq⟩ := punch_eq_randomProbes h.connected hlocal hremote hpunch
    have hkept : q.Lives ∧ q.punching = true ∧ q.holders = [] ∧ q.sendFn = true ∧
        q.remoteAddresses = p.remoteAddresses ∧ q.probes = p.probes := by
      rw [hq.eq]
      exact ⟨⟨h.connected, h.destroyed⟩, rfl, hholders, hsend, rfl, rfl⟩
    obtain ⟨hlives, hpunching, hnone, hsends, hsame, hprobes⟩ := hkept
    have hleft : q.randomProbesLeft = left + 1 := hcount.trans hn.symm
    obtain ⟨probe, hsent, hto⟩ := @probes_randomProbes q tick hlives hpunching
      (hleft ▸ Nat.succ_ne_zero left) hsends (hsame ▸ haddrs)
    refine ⟨?_, [probe], ?_, rfl, ?_⟩
    · rw [after_zero, heq]
      exact probing_randomProbes hlives hpunching hnone hsends (hsame ▸ haddrs) hleft 0
    · rw [after_zero]
      dsimp only
      rw [heq, hsent, hprobes]
    · intro probe' hprobe'
      obtain rfl := List.mem_singleton.1 hprobe'
      exact .inl (hsame ▸ hto)
  | succ n ih =>
    obtain ⟨hprobing, sent, hsent, hlength, hto⟩ := ih (left + 1) (by omega)
      fun k hk => htold k (Nat.lt_succ_of_lt hk)
    obtain ⟨hnext, probe, hprobe, hlast⟩ := hprobing.round (rounds n) (htold n (Nat.lt_succ_self n))
    refine ⟨hnext, sent ++ [probe], ?_, by simp [hlength], ?_⟩
    · rw [after_succ, hprobe, hsent, List.append_assoc]
    · intro probe' hprobe'
      rcases List.mem_append.1 hprobe' with hold | hnew
      · rcases hto probe' hold with hfirst | ⟨k, hk, hk'⟩
        · exact .inl hfirst
        · exact .inr ⟨k, Nat.lt_succ_of_lt hk, hk'⟩
      · obtain rfl := List.mem_singleton.1 hnew
        exact .inr ⟨n, Nat.lt_succ_self n, hlast⟩

/-- **Random probing does not follow its strategy.** After a punch towards a random firewall the puncher
never gives up by this strategy alone, whatever it is told between the ticks. It sends what is meant, if
it lives, has no sockets of the pool and always knows an address; but the tick after the last probe
carries on the strategy with rounds instead of giving up.

**Proof sketch.** Every tick sends one more probe, as long as some are left. The function that would give
up then is not called again. -/
theorem not_followsRandom (p : Holepuncher) (tick : Tick) (hheard : p.connected = false)
    (hlocal : p.localFirewall ≠ firewallRandom) (hremote : p.remoteFirewall = firewallRandom)
    (haddrs : p.remoteAddresses ≠ []) (hpunch : (p.punch tick).2 = true) (rounds : ℕ → Round) :
    let s := after Attempt.round ⟨(p.punch tick).1, 0⟩ rounds
    ¬ FollowsRandom p tick rounds ∧
      (p.destroyed = false → p.holders = [] → p.sendFn = true →
        (∀ n < 1749, ((s n).puncher.told (rounds n).updates).remoteAddresses ≠ []) →
        SentRandom p tick rounds 1749 randomProbesCount ∧
          (∀ n < 1749, Executes (s n) (rounds n) .randomProbes) ∧
          Executes (s 1749) (rounds 1749) .consistentProbe) := by
  refine ⟨not_followsRandom_of_punch hheard hlocal hremote hpunch rounds, ?_⟩
  intro hlives hholders hsend htold
  have hafter := randomProbes_after ⟨hheard, hlives⟩ hholders hsend haddrs hlocal hremote hpunch rounds
  refine ⟨(hafter 0 1749 rfl htold).2, fun n hn => ?_, ?_⟩
  · have hleft : 1749 - n + (n + 1) = randomProbesCount := by
      simp only [randomProbesCount]
      omega
    have hexecutes := (hafter (1749 - n) n hleft fun k hk => htold k (hk.trans hn)).1.executes (rounds n)
    rwa [if_pos (by omega)] at hexecutes
  · exact (hafter 0 1749 rfl htold).1.executes (rounds 1749)

/-! ## A client that probes random ports -/

def randomAddr : Ipv4Address := .ofOctets 192 0 2 9 49737

def portsClient : Holepuncher := run act (create true false none) [.setSendFn true, .onAbort true,
  .update (.setLocalFirewall firewallConsistent), .update (.setRemoteFirewall firewallRandom),
  .update (.setRemoteAddresses [randomAddr])]

theorem not_followsRandom_portsClient :
    ((portsClient.connected = false ∧ portsClient.localFirewall ≠ firewallRandom) ∧
      portsClient.remoteFirewall = firewallRandom ∧ portsClient.remoteAddresses ≠ [] ∧
      (portsClient.punch {}).2 = true) ∧
    ¬ FollowsRandom portsClient {} (fun _ => {}) :=
  ⟨by decide +kernel,
    (not_followsRandom portsClient {} rfl (by decide) rfl (by decide) (by decide +kernel) fun _ => {}).1⟩

/-- **A client that gives up by another strategy**: it has sent all its probes, and begins rounds of
probes. -/
theorem leaves_random_portsClient :
    ¬ FollowsRandom portsClient {} (fun _ => {}) ∧
    Executes (after Attempt.round ⟨(portsClient.punch {}).1, 0⟩ (fun _ => {}) 1749) {} .consistentProbe := by
  have hafter := @randomProbes_after portsClient {} ⟨rfl, rfl⟩ rfl rfl (by decide) (by decide) rfl
    (by decide +kernel) fun _ => {}
  have haddrs (n : ℕ) (hn : n < 1749) : (after Attempt.round ⟨(portsClient.punch {}).1, 0⟩
      (fun _ => {}) n).puncher.remoteAddresses ≠ [] := by
    induction n using Nat.strong_induction_on with
    | h n ih =>
      have hleft : 1749 - n + (n + 1) = randomProbesCount := by
        simp only [randomProbesCount]
        omega
      exact (hafter (1749 - n) n hleft fun k hk => ih k hk (hk.trans hn)).1.addrs
  exact ⟨not_followsRandom_of_punch rfl (by decide) rfl (by decide +kernel) _,
    (hafter 0 1749 rfl haddrs).1.executes {}⟩

end HyperDHT.Holepuncher
