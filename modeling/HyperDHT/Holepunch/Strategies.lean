import HyperDHT.Holepunch.Puncher
import HyperDHT.Lib.Runs

/-!
# The strategies of a puncher

The strategies share one timer, and its callback guesses from the sockets and the counters which of them runs. A
tick of a puncher leaves less to do, or ends with `destroy()`. But one that gets no socket leaves as much to do as
there was, and one without a verified address leaves the puncher idle.

## Main definitions

* `Holepuncher.Strategy`, `Holepuncher.strategy` — the functions that a tick may call, and the one it calls.
* `Holepuncher.Call`, `Holepuncher.act` — the calls of a puncher.
* `Holepuncher.Works`, `Holepuncher.WorksOut` — what a strategy does to a puncher.
* `Holepuncher.Starved`, `Holepuncher.Unverified` — a tick gets no socket, or finds no verified address.
* `Holepuncher.Punches`, `Holepuncher.rank` — a puncher that punches, and how much it has to do.

## Main results

* `Holepuncher.holders_run` — only a puncher with a pool holds sockets.
* `Holepuncher.punch_cases` — what a punch begins with.
* `Holepuncher.onPunchTimer_leads` — what a tick leads to.
-/

set_option autoImplicit false

namespace HyperDHT.Holepuncher

open Compact Runs

/-! ## The strategy of a tick -/

/-- The functions that the timer calls. -/
inductive Strategy where
  | openBirthdaySockets
  | keepAliveRandomNat
  | randomProbes
  | consistentProbe
  deriving DecidableEq

/-- The one that it calls: it is guessed from the sockets and the counters. -/
def strategy (p : Holepuncher) : Strategy :=
  if !p.holders.isEmpty && p.holders.length < birthdaySockets && p.localFirewall == firewallRandom then
    .openBirthdaySockets
  else if !p.holders.isEmpty && p.holders.length ≥ birthdaySockets then .keepAliveRandomNat
  else if p.randomProbesLeft > 0 then .randomProbes
  else .consistentProbe

/-- The strategy is carried on; the second part says whether the puncher gave up. -/
def carryOn (p : Holepuncher) (tick : Tick) : Strategy → Holepuncher × Bool
  | .openBirthdaySockets => (p.openBirthdaySockets tick, false)
  | .keepAliveRandomNat => p.keepAliveRandomNat tick.now
  | .randomProbes => p.randomProbes tick
  | .consistentProbe => p.consistentProbe tick.now

variable {p q : Holepuncher} {tick : Tick} {now : ℕ}

/-- **A tick carries on the strategy.** -/
lemma onPunchTimer_eq (h : p.isDone = false) :
    p.onPunchTimer tick = { p with timer := none }.carryOn tick p.strategy := by
  have hdone : { p with timer := none }.isDone = false := h
  unfold onPunchTimer strategy
  dsimp only
  rw [if_neg (ne_true_of_eq_false hdone)]
  split_ifs <;> rfl

/-! ## The calls of a puncher -/

/-- What a puncher is told while it punches. -/
inductive Update where
  | setRemoteAddresses (addrs : List Ipv4Address)
  | updateRemote (addrs : List Ipv4Address) (verifiedHost : List Char)
  | setLocalFirewall (firewall : UInt32)
  | setRemoteFirewall (firewall : UInt32)

/-- The puncher is told something. -/
def update (p : Holepuncher) : Update → Holepuncher
  | .setRemoteAddresses addrs => p.setRemoteAddresses addrs
  | .updateRemote addrs verifiedHost => p.updateRemote addrs verifiedHost
  | .setLocalFirewall firewall => { p with localFirewall := firewall }
  | .setRemoteFirewall firewall => { p with remoteFirewall := firewall }

/-- The calls of a puncher, and what happens to it: its timer fires, and other punchers change the
counters. -/
inductive Call where
  | update (u : Update)
  | setSendFn (there : Bool)
  | setSendTtlFn (there : Bool)
  | onConnect (there : Bool)
  | onAbort (there : Bool)
  | punch (tick : Tick)
  | stop
  | sendProbe (addr : Ipv4Address)
  | openSession (addr : Ipv4Address)
  | onMessage (now : ℕ) (source : Ipv4Address) (socket : Option ℕ) (ref : Option SocketRef)
  | destroy (now : ℕ)
  | analyze (allowReopen : Bool)
  | onPunchTimer (tick : Tick)
  | count (stats : PunchStats)

/-- What a call makes of the puncher. -/
def act (p : Holepuncher) : Call → Holepuncher
  | .update u => p.update u
  | .setSendFn there => { p with sendFn := there }
  | .setSendTtlFn there => { p with sendTtlFn := there }
  | .onConnect there => { p with onConnect := there }
  | .onAbort there => { p with onAbort := there }
  | .punch tick => (p.punch tick).1
  | .stop => p.stop
  | .sendProbe addr => p.sendProbe addr
  | .openSession addr => p.openSession addr
  | .onMessage now source socket ref => (p.onMessage now source socket ref).1
  | .destroy now => (p.destroy now).1
  | .analyze allowReopen => (p.analyze allowReopen).1
  | .onPunchTimer tick => if p.timer = none then p else (p.onPunchTimer tick).1
  | .count stats => { p with stats := p.stats.map fun _ => stats }

/-- A puncher as it is made. -/
def create (isInitiator hasPool : Bool) (stats : Option PunchStats) : Holepuncher :=
  { isInitiator, hasPool, stats }

/-- The tick asks the pool for a socket and gets none. -/
def Starved (p : Holepuncher) (tick : Tick) : Prop :=
  p.isDone = false ∧ p.strategy = .openBirthdaySockets ∧ tick.acquired = none

/-- The tick is to send a probe from a socket of the pool, but no address is verified. -/
def Unverified (p : Holepuncher) : Prop :=
  p.isDone = false ∧ p.verifiedRemote = none ∧
    (p.strategy = .openBirthdaySockets ∨ p.strategy = .keepAliveRandomNat ∧ p.randomProbesLeft ≠ 0)

/-! ## The sockets of a puncher -/

/-- One more socket is acquired, and a probe sent from it. -/
def acquireOne (p : Holepuncher) (tick : Tick) (vr : RemoteAddr) : Holepuncher :=
  if p.holders.length < birthdaySockets then
    match tick.acquired with
    | none => p
    | some ref => { p with holders := p.holders ++ [ref] }.sendTtl vr.addr holepunchTtl
  else p

/-- The next socket is asked for, or the probes from the sockets begin. -/
def pace (p : Holepuncher) : Holepuncher :=
  if p.holders.length < birthdaySockets then { p with timer := some 0 }
  else
    { p with
      birthdayIndex := 0
      lowTtlRounds := 1
      randomProbesLeft := randomProbesCount
      timer := some 100 }

lemma openBirthdaySockets_cases (p : Holepuncher) (tick : Tick) :
    p.openBirthdaySockets tick = p ∨ p.openBirthdaySockets tick = { p with punching := false } ∨
      ∃ vr, p.hasPool = true ∧ p.openBirthdaySockets tick = (p.acquireOne tick vr).pace := by
  by_cases hskip : (!p.punching || p.isDone || !p.hasPool) = true
  · exact .inl (by rw [openBirthdaySockets, if_pos hskip])
  · have hpool : p.hasPool = true := by
      simp only [Bool.or_eq_true, Bool.not_eq_true', not_or, Bool.not_eq_false] at hskip
      exact hskip.2
    cases hvr : p.verifiedRemote with
    | none => exact .inr (.inl (by rw [openBirthdaySockets, if_neg hskip, hvr]))
    | some vr => exact .inr (.inr ⟨vr, hpool, by rw [openBirthdaySockets, if_neg hskip, hvr]; rfl⟩)

lemma openBirthdaySockets_of_unverified (hpunching : p.punching = true) (h : p.Lives)
    (hpool : p.hasPool = true) (hvr : p.verifiedRemote = none) :
    p.openBirthdaySockets tick = { p with punching := false } := by
  have hgoes : ¬ (!p.punching || p.isDone || !p.hasPool) = true := by
    simp [hpunching, h.isDone, hpool]
  rw [openBirthdaySockets, if_neg hgoes, hvr]

lemma openBirthdaySockets_of_verified {vr : RemoteAddr} (hpunching : p.punching = true) (h : p.Lives)
    (hpool : p.hasPool = true) (hvr : p.verifiedRemote = some vr) :
    p.openBirthdaySockets tick = (p.acquireOne tick vr).pace := by
  have hgoes : ¬ (!p.punching || p.isDone || !p.hasPool) = true := by
    simp [hpunching, h.isDone, hpool]
  rw [openBirthdaySockets, if_neg hgoes, hvr]
  rfl

/-! ## What a strategy does -/

/-- The second puncher is what a strategy makes of the first one while it goes on: the counters, the account, the
ends and the pool are as they were, and there are sockets only if there were some or there is a pool. -/
structure Works (p q : Holepuncher) : Prop where
  stats : q.stats = p.stats
  randomized : q.randomized = p.randomized
  connected : q.connected = p.connected
  destroyed : q.destroyed = p.destroyed
  hasPool : q.hasPool = p.hasPool
  holders : q.holders ≠ [] → p.holders ≠ [] ∨ p.hasPool = true

/-- A strategy goes on, and may give the puncher up after that. -/
def WorksOut (p : Holepuncher) (now : ℕ) (q : Holepuncher) : Prop :=
  ∃ r, Works p r ∧ (q = r ∨ q = (r.destroy now).1)

lemma Works.refl (p : Holepuncher) : Works p p := ⟨rfl, rfl, rfl, rfl, rfl, Or.inl⟩

lemma Works.trans {r : Holepuncher} (h : Works p q) (h' : Works q r) : Works p r where
  stats := h'.stats.trans h.stats
  randomized := h'.randomized.trans h.randomized
  connected := h'.connected.trans h.connected
  destroyed := h'.destroyed.trans h.destroyed
  hasPool := h'.hasPool.trans h.hasPool
  holders hr := (h'.holders hr).elim h.holders fun hpool => .inr (h.hasPool ▸ hpool)

lemma Works.isDone (h : Works p q) : q.isDone = p.isDone := by
  rw [Holepuncher.isDone, h.connected, h.destroyed, Holepuncher.isDone]

lemma Works.out (h : Works p q) : WorksOut p now q := ⟨q, h, .inl rfl⟩

lemma worksOut_giveUp (p : Holepuncher) : WorksOut p now ({ p with punching := false }.destroy now).1 :=
  ⟨{ p with punching := false }, ⟨rfl, rfl, rfl, rfl, rfl, Or.inl⟩, .inr rfl⟩

lemma works_sendProbe (p : Holepuncher) (addr : Ipv4Address) : Works p (p.sendProbe addr) := by
  rw [sendProbe_eq]
  exact ⟨rfl, rfl, rfl, rfl, rfl, Or.inl⟩

lemma works_sendTtl (p : Holepuncher) (addr : Ipv4Address) (ttl : ℕ) : Works p (p.sendTtl addr ttl) := by
  rw [sendTtl_eq]
  exact ⟨rfl, rfl, rfl, rfl, rfl, Or.inl⟩

lemma worksOut_consistentProbe (p : Holepuncher) : WorksOut p now (p.consistentProbe now).1 := by
  unfold consistentProbe
  split
  · split
    · exact worksOut_giveUp p
    · exact (Works.refl p).out
  · split
    · exact Works.out ⟨rfl, rfl, rfl, rfl, rfl, Or.inl⟩
    · rw [probeAll_eq]
      exact Works.out ⟨rfl, rfl, rfl, rfl, rfl, Or.inl⟩

lemma works_randomProbes (h : p.randomProbesLeft ≠ 0) : Works p (p.randomProbes tick).1 := by
  unfold randomProbes
  rw [if_neg h]
  split
  · exact .refl p
  · dsimp only
    split
    · exact ⟨rfl, rfl, rfl, rfl, rfl, Or.inl⟩
    · rw [sendProbe_eq]
      exact ⟨rfl, rfl, rfl, rfl, rfl, Or.inl⟩

lemma worksOut_randomProbes (p : Holepuncher) : WorksOut p tick.now (p.randomProbes tick).1 := by
  by_cases hleft : p.randomProbesLeft = 0
  · unfold randomProbes
    rw [if_pos hleft]
    split
    · exact (Works.refl p).out
    · exact worksOut_giveUp p
  · exact (works_randomProbes hleft).out

lemma works_openBirthdaySockets (p : Holepuncher) : Works p (p.openBirthdaySockets tick) := by
  rcases openBirthdaySockets_cases p tick with heq | heq | ⟨vr, hpool, heq⟩
  · rw [heq]
    exact .refl p
  · rw [heq]
    exact ⟨rfl, rfl, rfl, rfl, rfl, Or.inl⟩
  · have hacquired : Works p (p.acquireOne tick vr) := by
      unfold acquireOne
      split
      · split
        · exact .refl p
        next ref _ =>
          have hheld : Works p { p with holders := p.holders ++ [ref] } :=
            ⟨rfl, rfl, rfl, rfl, rfl, fun _ => .inr hpool⟩
          exact hheld.trans (works_sendTtl _ _ _)
      · exact .refl p
    have hpaced (q : Holepuncher) : Works q q.pace := by
      unfold pace
      split <;> exact ⟨rfl, rfl, rfl, rfl, rfl, Or.inl⟩
    rw [heq]
    exact hacquired.trans (hpaced _)

lemma worksOut_keepAliveRandomNat (p : Holepuncher) : WorksOut p now (p.keepAliveRandomNat now).1 := by
  unfold keepAliveRandomNat
  split
  · exact (Works.refl p).out
  split
  · exact worksOut_giveUp p
  split
  · exact Works.out ⟨rfl, rfl, rfl, rfl, rfl, Or.inl⟩
  next vr _ =>
    split
    · exact Works.out ⟨rfl, rfl, rfl, rfl, rfl, Or.inl⟩
    have hindex : Works p (if p.birthdayIndex ≥ p.holders.length then
        { p with birthdayIndex := 0, lowTtlRounds := p.lowTtlRounds - 1 } else p) := by
      split
      · exact ⟨rfl, rfl, rfl, rfl, rfl, Or.inl⟩
      · exact .refl p
    have hsent (q : Holepuncher) : Works q (match q.holders[q.birthdayIndex]? with
        | none => q
        | some ref =>
          if ref.closed then q
          else q.sendTtl vr.addr (if q.lowTtlRounds > 0 then holepunchTtl else defaultTtl)) := by
      split
      · exact .refl q
      · split
        · exact .refl q
        · exact works_sendTtl _ _ _
    refine (hindex.trans ((hsent _).trans ?_)).out
    exact ⟨rfl, rfl, rfl, rfl, rfl, Or.inl⟩

/-- **A strategy** leaves the puncher at work, or gives it up. -/
lemma worksOut_carryOn (p : Holepuncher) (strategy : Strategy) :
    WorksOut p tick.now (p.carryOn tick strategy).1 := by
  cases strategy with
  | openBirthdaySockets => exact (works_openBirthdaySockets p).out
  | keepAliveRandomNat => exact worksOut_keepAliveRandomNat p
  | randomProbes => exact worksOut_randomProbes p
  | consistentProbe => exact worksOut_consistentProbe p

/-- **A tick** leaves the puncher at work, or gives it up. -/
lemma worksOut_onPunchTimer (p : Holepuncher) : WorksOut p tick.now (p.onPunchTimer tick).1 := by
  have hfired : Works p { p with timer := none } := ⟨rfl, rfl, rfl, rfl, rfl, Or.inl⟩
  cases hdone : p.isDone with
  | true =>
    rw [onPunchTimer_of_isDone hdone]
    exact hfired.out
  | false =>
    rw [onPunchTimer_eq hdone]
    obtain ⟨r, hr, hout⟩ := worksOut_carryOn { p with timer := none } p.strategy
    exact ⟨r, hfired.trans hr, hout⟩

/-! ## Only a puncher with a pool holds sockets -/

/-- The second puncher has the pool of the first one, and sockets only if that had some or has a pool. -/
structure Supplied (p q : Holepuncher) : Prop where
  hasPool : q.hasPool = p.hasPool
  holders : q.holders ≠ [] → p.holders ≠ [] ∨ p.hasPool = true

lemma Supplied.trans {r : Holepuncher} (h : Supplied p q) (h' : Supplied q r) : Supplied p r where
  hasPool := h'.hasPool.trans h.hasPool
  holders hr := (h'.holders hr).elim h.holders fun hpool => .inr (h.hasPool ▸ hpool)

lemma supplied_of_eq (hpool : q.hasPool = p.hasPool) (hholders : q.holders = p.holders) : Supplied p q :=
  ⟨hpool, fun h => .inl (hholders ▸ h)⟩

lemma supplied_refl (p : Holepuncher) : Supplied p p := supplied_of_eq rfl rfl

lemma supplied_decrementRandomized (p : Holepuncher) : Supplied p (p.decrementRandomized now) := by
  unfold decrementRandomized
  split <;> exact supplied_of_eq rfl rfl

lemma supplied_destroy (p : Holepuncher) : Supplied p (p.destroy now).1 := by
  unfold destroy
  split
  · exact supplied_refl p
  · have hgone : Supplied p { p with destroyed := true, punching := false, holders := [], timer := none } :=
      ⟨rfl, fun h => absurd rfl h⟩
    dsimp only
    split
    · exact hgone.trans (supplied_of_eq rfl rfl)
    · exact (hgone.trans (supplied_decrementRandomized _)).trans (supplied_of_eq rfl rfl)

lemma Works.supplied (h : Works p q) : Supplied p q := ⟨h.hasPool, h.holders⟩

lemma WorksOut.supplied (h : WorksOut p now q) : Supplied p q := by
  obtain ⟨r, hr, rfl | rfl⟩ := h
  · exact hr.supplied
  · exact hr.supplied.trans (supplied_destroy r)

lemma supplied_update (p : Holepuncher) (u : Update) : Supplied p (p.update u) := by
  cases u <;> exact supplied_of_eq rfl rfl

/-- A puncher that begins to punch. -/
structure Begun (p q : Holepuncher) : Prop where
  eq : q = { p with
    punching := true
    stats := q.stats
    randomized := q.randomized
    punchRound := q.punchRound
    randomProbesLeft := q.randomProbesLeft }

lemma countRandom_incrementRandomized_eq (p : Holepuncher) :
    p.countRandom.incrementRandomized = { p with
      stats := p.countRandom.incrementRandomized.stats
      randomized := p.countRandom.incrementRandomized.randomized } := by
  unfold incrementRandomized countRandom
  split <;> rfl

/-- **A punch begins with a call of its strategy**, or changes nothing. -/
lemma punch_cases (p : Holepuncher) (tick : Tick) :
    (p.punch tick).1 = p ∧ (p.connected = true ∨ (p.punch tick).2 = false) ∨
      ∃ q, Begun p q ∧ (q.punchRound = 0 ∧ (p.punch tick).1 = (q.consistentProbe tick.now).1 ∨
        q.randomProbesLeft = randomProbesCount ∧ (p.punch tick).1 = (q.randomProbes tick).1 ∨
        p.verifiedRemote ≠ none ∧ p.hasPool = true ∧ (p.punch tick).1 = q.openBirthdaySockets tick) := by
  unfold punch
  split_ifs with hconnected _ _ _ _ hpool
  · exact .inl ⟨rfl, .inl hconnected⟩
  · exact .inr ⟨_, ⟨rfl⟩, .inl ⟨rfl, rfl⟩⟩
  · exact .inl ⟨rfl, .inr rfl⟩
  · refine .inr ⟨{ p.countRandom.incrementRandomized with
      punching := true, randomProbesLeft := randomProbesCount }, ⟨?_⟩, .inr (.inl ⟨rfl, rfl⟩)⟩
    rw [countRandom_incrementRandomized_eq]
  · exact .inl ⟨rfl, .inr rfl⟩
  · exact .inl ⟨rfl, .inr rfl⟩
  · have hready : p.verifiedRemote ≠ none ∧ p.hasPool = true := by simpa using hpool
    refine .inr ⟨{ p.countRandom.incrementRandomized with punching := true }, ⟨?_⟩,
      .inr (.inr ⟨hready.1, hready.2, rfl⟩)⟩
    rw [countRandom_incrementRandomized_eq]
  · exact .inl ⟨rfl, .inr rfl⟩

lemma Begun.supplied (h : Begun p q) : Supplied p q := by
  rw [h.eq]
  exact supplied_of_eq rfl rfl

lemma supplied_punch (p : Holepuncher) : Supplied p (p.punch tick).1 := by
  rcases punch_cases p tick with ⟨heq, -⟩ | ⟨q, hq, ⟨-, heq⟩ | ⟨-, heq⟩ | ⟨-, -, heq⟩⟩
  · rw [heq]
    exact supplied_refl p
  · rw [heq]
    exact hq.supplied.trans (worksOut_consistentProbe q).supplied
  · rw [heq]
    exact hq.supplied.trans (worksOut_randomProbes q).supplied
  · rw [heq]
    exact hq.supplied.trans (works_openBirthdaySockets q).supplied

lemma supplied_onMessage (p : Holepuncher) (source : Ipv4Address) (socket : Option ℕ)
    (ref : Option SocketRef) : Supplied p (p.onMessage now source socket ref).1 := by
  unfold onMessage
  split
  · exact supplied_refl p
  split
  · exact (works_sendProbe p source).supplied
  · have hfound : Supplied p { p with
        connected := true
        punching := false
        timer := none
        holders := match ref with
          | none => p.holders
          | some ref => if p.holders.isEmpty then p.holders else [ref] } := by
      refine ⟨rfl, fun h => .inl fun hnil => h ?_⟩
      cases ref <;> simp [hnil]
    exact (hfound.trans (supplied_decrementRandomized _)).trans (supplied_of_eq rfl rfl)

lemma supplied_act (p : Holepuncher) (c : Call) : Supplied p (p.act c) := by
  cases c with
  | update u => exact supplied_update p u
  | punch tick => exact supplied_punch p
  | sendProbe addr => exact (works_sendProbe p addr).supplied
  | openSession addr => exact (works_sendTtl p addr _).supplied
  | onMessage now source socket ref => exact supplied_onMessage p source socket ref
  | destroy now => exact supplied_destroy p
  | analyze allowReopen =>
    simp only [act, analyze]
    split_ifs <;> exact supplied_of_eq rfl rfl
  | onPunchTimer tick =>
    simp only [act]
    split
    · exact supplied_refl p
    · exact (worksOut_onPunchTimer p).supplied
  | setSendFn there => exact supplied_of_eq rfl rfl
  | setSendTtlFn there => exact supplied_of_eq rfl rfl
  | onConnect there => exact supplied_of_eq rfl rfl
  | onAbort there => exact supplied_of_eq rfl rfl
  | stop => exact supplied_of_eq rfl rfl
  | count stats => exact supplied_of_eq rfl rfl

/-- **Only a puncher with a pool holds sockets**, whatever calls were made. -/
theorem holders_run (isInitiator hasPool : Bool) (stats : Option PunchStats) (calls : List Call)
    (h : (run act (create isInitiator hasPool stats) calls).holders ≠ []) :
    (run act (create isInitiator hasPool stats) calls).hasPool = true := by
  have hsupplied : Supplied (create isInitiator hasPool stats)
      (run act (create isInitiator hasPool stats) calls) :=
    run_invariant (P := Supplied (create isInitiator hasPool stats))
      (fun _ c hp => hp.trans (supplied_act _ c)) (supplied_refl _) calls
  rcases hsupplied.holders h with hnil | hpool
  · exact absurd rfl hnil
  · exact hsupplied.hasPool.trans hpool

/-! ## What a tick leads to -/

/-- The puncher punches: it lives, and its timer runs. -/
structure Punches (p : Holepuncher) : Prop where
  lives : p.Lives
  punching : p.punching = true
  timer : p.timer ≠ none
  pool : p.holders ≠ [] → p.hasPool = true

/-- How much there is to do: the sockets that are not acquired, the probes and the rounds that are left. When
the last socket is acquired, the probes are counted anew. -/
def rank (p : Holepuncher) : ℕ :=
  (birthdaySockets - p.holders.length) * (randomProbesCount + 1) + p.randomProbesLeft +
    (consistentRounds - p.punchRound)

/-- The puncher was destroyed, and its timer does not run. -/
structure Over (p : Holepuncher) : Prop where
  destroyed : p.destroyed = true
  timer : p.timer = none

/-- The puncher is idle, and was not destroyed. -/
structure Idle (p : Holepuncher) : Prop where
  timer : p.timer = none
  destroyed : p.destroyed = false

/-- What a tick of a puncher leads to: there is less to do, or the puncher is over, or no socket was acquired,
or the puncher is idle. -/
inductive Leads (p : Holepuncher) (tick : Tick) (next : Holepuncher × Bool) : Prop
  | goesOn (hnext : Punches next.1) (hrank : rank next.1 < rank p) (haborted : next.2 = false)
      (honAbort : next.1.onAbort = p.onAbort)
  | ended (hnext : Over next.1) (haborted : next.2 = p.onAbort)
  | starved (hstarved : Starved p tick) (hnext : Punches next.1) (haborted : next.2 = false)
      (honAbort : next.1.onAbort = p.onAbort)
  | unverified (hunverified : Unverified p) (hnext : Idle next.1) (haborted : next.2 = false)

lemma over_destroy (h : p.Lives) :
    Over (p.destroy now).1 ∧ (p.destroy now).2 = p.onAbort := by
  have hkept (q : Holepuncher) : (q.decrementRandomized now).destroyed = q.destroyed ∧
      (q.decrementRandomized now).timer = q.timer := by
    unfold decrementRandomized
    split <;> exact ⟨rfl, rfl⟩
  unfold destroy
  rw [if_neg (ne_true_of_eq_false h.destroyed)]
  dsimp only
  rw [if_neg (ne_true_of_eq_false h.connected), h.connected]
  exact ⟨⟨(hkept _).1, (hkept _).2⟩, rfl⟩

lemma punches_of_goesOn (h : p.Lives) (hpunching : p.punching = true)
    (hpool : p.holders ≠ [] → p.hasPool = true) (hgoes : GoesOn p q) : Punches q := by
  refine ⟨⟨?_, ?_⟩, ?_, hgoes.timer, ?_⟩
  · rw [hgoes.connected, h.connected]
  · rw [hgoes.destroyed, h.destroyed]
  · rw [hgoes.punching, hpunching]
  · rw [hgoes.eq]
    exact hpool

lemma counters_consistentProbe (h : p.Lives) (hpunching : p.punching = true)
    (hround : p.punchRound < consistentRounds) :
    (p.consistentProbe now).1.punchRound = p.punchRound + 1 ∧
      (p.consistentProbe now).1.randomProbesLeft = p.randomProbesLeft := by
  have hgoes : ¬ (!p.punching || p.connected || decide (p.punchRound ≥ consistentRounds)) = true := by
    simp [hpunching, h.connected, not_le.2 hround]
  unfold consistentProbe
  rw [if_neg hgoes]
  split
  · exact ⟨rfl, rfl⟩
  · rw [probeAll_eq]
    exact ⟨rfl, rfl⟩

lemma counters_randomProbes (h : p.Lives) (hpunching : p.punching = true) (hleft : p.randomProbesLeft ≠ 0) :
    (p.randomProbes tick).1.randomProbesLeft = p.randomProbesLeft - 1 ∧
      (p.randomProbes tick).1.punchRound = p.punchRound := by
  have hgoes : ¬ (!p.punching || p.connected) = true := by simp [hpunching, h.connected]
  unfold randomProbes
  rw [if_neg hgoes, if_neg hleft]
  dsimp only
  split
  · exact ⟨rfl, rfl⟩
  · rw [sendProbe_eq]
    exact ⟨rfl, rfl⟩

lemma leads_consistentProbe (h : Punches p) :
    Leads p tick ({ p with timer := none }.consistentProbe tick.now) := by
  have hfired : Lives { p with timer := none } := ⟨h.lives.connected, h.lives.destroyed⟩
  rcases @consistentProbe_cases _ tick.now hfired h.punching with ⟨hgoes, hnot, hround⟩ | ⟨hover, -⟩
  · have hnext : GoesOn p ({ p with timer := none }.consistentProbe tick.now).1 := ⟨hgoes.eq, hgoes.timer⟩
    obtain ⟨hcounted, hleft⟩ := @counters_consistentProbe _ tick.now hfired h.punching hround
    refine .goesOn (punches_of_goesOn h.lives h.punching h.pool hnext) ?_ hnot (by rw [hnext.eq])
    have hholders : ({ p with timer := none }.consistentProbe tick.now).1.holders = p.holders := by
      rw [hnext.eq]
    dsimp only at hcounted hleft hround
    simp only [rank, hholders, hcounted, hleft]
    omega
  · obtain ⟨hgone, haborted⟩ := @over_destroy { p with timer := none, punching := false } tick.now
      ⟨h.lives.connected, h.lives.destroyed⟩
    rw [hover]
    exact .ended hgone haborted

lemma leads_randomProbes (h : Punches p) (hleft : p.randomProbesLeft ≠ 0) :
    Leads p tick ({ p with timer := none }.randomProbes tick) := by
  have hfired : Lives { p with timer := none } := ⟨h.lives.connected, h.lives.destroyed⟩
  rcases @randomProbes_cases _ tick hfired h.punching with ⟨hgoes, hnot, -⟩ | ⟨-, hzero⟩
  · have hnext : GoesOn p ({ p with timer := none }.randomProbes tick).1 := ⟨hgoes.eq, hgoes.timer⟩
    obtain ⟨hcounted, hround⟩ := @counters_randomProbes _ tick hfired h.punching hleft
    refine .goesOn (punches_of_goesOn h.lives h.punching h.pool hnext) ?_ hnot (by rw [hnext.eq])
    have hholders : ({ p with timer := none }.randomProbes tick).1.holders = p.holders := by rw [hnext.eq]
    dsimp only at hcounted hround
    simp only [rank, hholders, hcounted, hround]
    omega
  · exact absurd hzero hleft

lemma acquireOne_eq (p : Holepuncher) (tick : Tick) (vr : RemoteAddr) :
    p.acquireOne tick vr = { p with
      holders := (p.acquireOne tick vr).holders, probes := (p.acquireOne tick vr).probes } := by
  unfold acquireOne
  split
  · split
    · rfl
    · rw [sendTtl_eq]
  · rfl

lemma holders_acquireOne {vr : RemoteAddr} {ref : SocketRef} (hfew : p.holders.length < birthdaySockets)
    (href : tick.acquired = some ref) : (p.acquireOne tick vr).holders = p.holders ++ [ref] := by
  unfold acquireOne
  rw [if_pos hfew, href]
  dsimp only
  rw [sendTtl_eq]

lemma pace_eq (p : Holepuncher) : p.pace = { p with
    birthdayIndex := p.pace.birthdayIndex
    lowTtlRounds := p.pace.lowTtlRounds
    randomProbesLeft := p.pace.randomProbesLeft
    timer := p.pace.timer } := by
  unfold pace
  split <;> rfl

lemma timer_pace (p : Holepuncher) : p.pace.timer ≠ none := by
  unfold pace
  split <;> simp

lemma randomProbesLeft_pace_le (p : Holepuncher) :
    p.pace.randomProbesLeft ≤ p.randomProbesLeft + randomProbesCount := by
  unfold pace
  split
  · exact Nat.le_add_right _ _
  · exact Nat.le_add_left _ _

lemma holders_of_strategy
    (h : p.strategy = .openBirthdaySockets ∨ p.strategy = .keepAliveRandomNat) : p.holders ≠ [] := by
  rintro hnil
  have hstrategy : p.strategy = if p.randomProbesLeft > 0 then .randomProbes else .consistentProbe := by
    simp [strategy, hnil]
  rw [hstrategy] at h
  split at h <;> simp at h

lemma few_of_strategy (h : p.strategy = .openBirthdaySockets) : p.holders.length < birthdaySockets := by
  by_contra hmany
  have hstrategy : p.strategy ≠ .openBirthdaySockets := by
    simp only [strategy, hmany, decide_false, Bool.and_false, Bool.false_and, Bool.false_eq_true, if_false]
    split_ifs <;> simp
  exact hstrategy h

lemma punches_openBirthdaySockets (h : p.Lives) (hpunching : p.punching = true) (hpool : p.hasPool = true)
    (hvr : p.verifiedRemote ≠ none) :
    Punches (p.openBirthdaySockets tick) ∧ (p.openBirthdaySockets tick).onAbort = p.onAbort := by
  obtain ⟨vr, hvr⟩ := Option.ne_none_iff_exists'.1 hvr
  rw [openBirthdaySockets_of_verified hpunching h hpool hvr]
  refine ⟨⟨⟨?_, ?_⟩, ?_, timer_pace _, fun _ => ?_⟩, ?_⟩
  · rw [pace_eq, acquireOne_eq]
    exact h.connected
  · rw [pace_eq, acquireOne_eq]
    exact h.destroyed
  · rw [pace_eq, acquireOne_eq]
    exact hpunching
  · rw [pace_eq, acquireOne_eq]
    exact hpool
  · rw [pace_eq, acquireOne_eq]

lemma rank_openBirthdaySockets_lt {vr : RemoteAddr} {ref : SocketRef}
    (hfew : p.holders.length < birthdaySockets) (href : tick.acquired = some ref) :
    rank (p.acquireOne tick vr).pace < rank p := by
  have hleft : (p.acquireOne tick vr).pace.randomProbesLeft ≤ p.randomProbesLeft + randomProbesCount := by
    refine (randomProbesLeft_pace_le _).trans ?_
    rw [acquireOne_eq]
  have hheld : (p.acquireOne tick vr).pace.holders.length = p.holders.length + 1 := by
    rw [pace_eq]
    simp [holders_acquireOne hfew href]
  have hrounds : (p.acquireOne tick vr).pace.punchRound = p.punchRound := by
    rw [pace_eq, acquireOne_eq]
  have hdeficit : birthdaySockets - p.holders.length =
      (birthdaySockets - (p.holders.length + 1)) + 1 := by omega
  simp only [rank, hheld, hrounds, hdeficit, Nat.add_mul]
  omega

lemma leads_openBirthdaySockets (h : Punches p) (hstrategy : p.strategy = .openBirthdaySockets) :
    Leads p tick ({ p with timer := none }.openBirthdaySockets tick, false) := by
  have hfew := few_of_strategy hstrategy
  have hpool := h.pool (holders_of_strategy (.inl hstrategy))
  have hfired : Lives { p with timer := none } := ⟨h.lives.connected, h.lives.destroyed⟩
  cases hvr : p.verifiedRemote with
  | none =>
    rw [@openBirthdaySockets_of_unverified { p with timer := none } tick h.punching hfired hpool hvr]
    exact .unverified ⟨h.lives.isDone, hvr, .inl hstrategy⟩ ⟨rfl, h.lives.destroyed⟩ rfl
  | some vr =>
    obtain ⟨hnext, honAbort⟩ := @punches_openBirthdaySockets { p with timer := none } tick hfired
      h.punching hpool (Option.ne_none_iff_exists'.2 ⟨vr, hvr⟩)
    cases hacquired : tick.acquired with
    | none => exact .starved ⟨h.lives.isDone, hstrategy, hacquired⟩ hnext rfl honAbort
    | some ref =>
      refine .goesOn hnext ?_ rfl honAbort
      rw [@openBirthdaySockets_of_verified { p with timer := none } tick vr h.punching hfired hpool hvr]
      exact @rank_openBirthdaySockets_lt { p with timer := none } tick vr ref hfew hacquired

lemma probes_of_strategy (h : p.strategy = .randomProbes) : p.randomProbesLeft ≠ 0 := by
  rintro hzero
  have hstrategy : p.strategy ≠ .randomProbes := by
    simp only [strategy, hzero, gt_iff_lt, lt_self_iff_false, if_false]
    split_ifs <;> simp
  exact hstrategy h

/-- The cycle through the sockets begins again at its end. -/
def wrapIndex (p : Holepuncher) : Holepuncher :=
  if p.birthdayIndex ≥ p.holders.length then
    { p with birthdayIndex := 0, lowTtlRounds := p.lowTtlRounds - 1 } else p

/-- A probe from the current socket. -/
def sendFromHolder (p : Holepuncher) (vr : RemoteAddr) : Holepuncher :=
  match p.holders[p.birthdayIndex]? with
  | none => p
  | some ref =>
    if ref.closed then p
    else p.sendTtl vr.addr (if p.lowTtlRounds > 0 then holepunchTtl else defaultTtl)

lemma wrapIndex_eq (p : Holepuncher) : p.wrapIndex = { p with
    birthdayIndex := p.wrapIndex.birthdayIndex, lowTtlRounds := p.wrapIndex.lowTtlRounds } := by
  unfold wrapIndex
  split <;> rfl

lemma sendFromHolder_eq (p : Holepuncher) (vr : RemoteAddr) :
    p.sendFromHolder vr = { p with probes := (p.sendFromHolder vr).probes } := by
  unfold sendFromHolder
  split
  · rfl
  · split
    · rfl
    · rw [sendTtl_eq]

lemma keepAliveRandomNat_of_verified {vr : RemoteAddr} (hpunching : p.punching = true) (h : p.Lives)
    (hleft : p.randomProbesLeft ≠ 0) (hvr : p.verifiedRemote = some vr) (hholders : p.holders ≠ []) :
    p.keepAliveRandomNat now = ({ p.wrapIndex.sendFromHolder vr with
      birthdayIndex := p.wrapIndex.birthdayIndex + 1
      randomProbesLeft := p.wrapIndex.randomProbesLeft - 1
      timer := some randomProbeIntervalMs }, false) := by
  have hgoes : ¬ (!p.punching || p.isDone) = true := by simp [hpunching, h.isDone]
  have hsome : ¬ p.holders.isEmpty = true := by simpa using hholders
  unfold keepAliveRandomNat
  rw [if_neg hgoes, if_neg hleft, hvr]
  dsimp only
  rw [if_neg hsome]
  rfl

lemma keepAliveRandomNat_eq {vr : RemoteAddr} (hpunching : p.punching = true) (h : p.Lives)
    (hleft : p.randomProbesLeft ≠ 0) (hvr : p.verifiedRemote = some vr) (hholders : p.holders ≠ []) :
    p.keepAliveRandomNat now = ({ p with
      birthdayIndex := (p.keepAliveRandomNat now).1.birthdayIndex
      lowTtlRounds := (p.keepAliveRandomNat now).1.lowTtlRounds
      probes := (p.keepAliveRandomNat now).1.probes
      randomProbesLeft := p.randomProbesLeft - 1
      timer := some randomProbeIntervalMs }, false) := by
  rw [keepAliveRandomNat_of_verified hpunching h hleft hvr hholders, sendFromHolder_eq, wrapIndex_eq]

lemma keepAliveRandomNat_of_unverified (hpunching : p.punching = true) (h : p.Lives)
    (hleft : p.randomProbesLeft ≠ 0) (hvr : p.verifiedRemote = none) :
    p.keepAliveRandomNat now = ({ p with punching := false }, false) := by
  have hgoes : ¬ (!p.punching || p.isDone) = true := by simp [hpunching, h.isDone]
  rw [keepAliveRandomNat, if_neg hgoes, if_neg hleft, hvr]

lemma leads_keepAliveRandomNat (h : Punches p) (hstrategy : p.strategy = .keepAliveRandomNat) :
    Leads p tick ({ p with timer := none }.keepAliveRandomNat tick.now) := by
  have hholders := holders_of_strategy (.inr hstrategy)
  have hfired : Lives { p with timer := none } := ⟨h.lives.connected, h.lives.destroyed⟩
  by_cases hleft : p.randomProbesLeft = 0
  · obtain ⟨hgone, haborted⟩ := @over_destroy { p with timer := none, punching := false } tick.now
      ⟨h.lives.connected, h.lives.destroyed⟩
    have hover : { p with timer := none }.keepAliveRandomNat tick.now =
        { p with timer := none, punching := false }.destroy tick.now := by
      have hgoes : ¬ (!p.punching || { p with timer := none }.isDone) = true := by
        rw [hfired.isDone, h.punching]
        decide
      rw [keepAliveRandomNat, if_neg hgoes, if_pos hleft]
    rw [hover]
    exact .ended hgone haborted
  · cases hvr : p.verifiedRemote with
    | none =>
      rw [@keepAliveRandomNat_of_unverified { p with timer := none } tick.now h.punching hfired hleft hvr]
      exact .unverified ⟨h.lives.isDone, hvr, .inr ⟨hstrategy, hleft⟩⟩ ⟨rfl, h.lives.destroyed⟩ rfl
    | some vr =>
      rw [@keepAliveRandomNat_eq { p with timer := none } tick.now vr h.punching hfired hleft hvr hholders]
      refine .goesOn ⟨⟨h.lives.connected, h.lives.destroyed⟩, h.punching, by simp, h.pool⟩ ?_ rfl rfl
      simp only [rank]
      omega

/-- **What a tick leads to.** -/
theorem onPunchTimer_leads (h : Punches p) (tick : Tick) : Leads p tick (p.onPunchTimer tick) := by
  rw [onPunchTimer_eq h.lives.isDone]
  cases hstrategy : p.strategy with
  | openBirthdaySockets => exact leads_openBirthdaySockets h hstrategy
  | keepAliveRandomNat => exact leads_keepAliveRandomNat h hstrategy
  | randomProbes => exact leads_randomProbes h (probes_of_strategy hstrategy)
  | consistentProbe => exact leads_consistentProbe h

/-- **A tick without a verified address** leaves the puncher idle. -/
lemma idle_of_unverified (h : Punches p) (hunverified : Unverified p) (tick : Tick) :
    Idle (p.onPunchTimer tick).1 := by
  have hfired : Lives { p with timer := none } := ⟨h.lives.connected, h.lives.destroyed⟩
  obtain ⟨-, hvr, hstrategy | ⟨hstrategy, hleft⟩⟩ := hunverified
  · have hpool := h.pool (holders_of_strategy (.inl hstrategy))
    rw [onPunchTimer_eq h.lives.isDone, hstrategy, carryOn,
      @openBirthdaySockets_of_unverified { p with timer := none } tick h.punching hfired hpool hvr]
    exact ⟨rfl, h.lives.destroyed⟩
  · rw [onPunchTimer_eq h.lives.isDone, hstrategy, carryOn,
      @keepAliveRandomNat_of_unverified { p with timer := none } tick.now h.punching hfired hleft hvr]
    exact ⟨rfl, h.lives.destroyed⟩

end HyperDHT.Holepuncher
