import HyperDHT.Holepunch.Messages

/-!
# The puncher

The engine that sends probes to a peer until one of them gets through (`Holepuncher` of
`holepunch.cpp`). Its strategy follows from the firewalls of both sides: ten rounds of probes to all
addresses, probes to random ports of a host, or probes from many sockets.

## Main definitions

* `PunchStats` — the counters by which random strategies are limited.
* `Holepuncher` — a puncher, with `punch`, `onPunchTimer`, `onMessage`, `destroy` and `analyze`.
* `Holepuncher.GoesOn` — a strategy goes on.

## Main results

* `Holepuncher.punch_of_consistent`, `punch_of_random`, `punch_of_birthday` — what `punch` begins with
  each combination of firewalls.
* `Holepuncher.onPunchTimer_cases` — a tick of the timer goes on or destroys the puncher.

## Design

The counters are reached through a pointer; the field `stats` is what it points to. Where a function may
call a callback, it returns whether it did. A tick of the timer is given the random number and the socket
that it may need.
-/

set_option autoImplicit false

namespace HyperDHT

open Compact

/-- The counters of the punches. Times are in milliseconds. -/
structure PunchStats where
  randomPunches : ℤ := 0
  lastRandomPunch : ℕ := 0
  punchesConsistent : ℕ := 0
  punchesRandom : ℕ := 0
  punchesOpen : ℕ := 0
  randomPunchLimit : ℤ := 1
  randomPunchInterval : ℕ := 20000
  deriving DecidableEq

/-- A random strategy may be begun: there are not too many, and the last one ended long enough ago. -/
def PunchStats.canRandomPunch (stats : PunchStats) (now : ℕ) : Bool :=
  if stats.randomPunches ≥ stats.randomPunchLimit then false
  else if stats.lastRandomPunch > 0 ∧ now - stats.lastRandomPunch < stats.randomPunchInterval then false
  else true

/-- An address of the peer, and whether the peer was seen under its host. -/
structure RemoteAddr where
  addr : Ipv4Address
  verified : Bool := false
  deriving DecidableEq

/-- A socket of the pool. -/
structure SocketRef where
  socket : ℕ
  closed : Bool := false
  deriving DecidableEq

/-- A probe, and the time to live it is sent with if it is not the usual one. -/
structure Probe where
  addr : Ipv4Address
  ttl : Option ℕ := none
  deriving DecidableEq

def birthdaySockets : ℕ := 256
def holepunchTtl : ℕ := 5
def defaultTtl : ℕ := 64
def maxReopens : ℕ := 3
def consistentRounds : ℕ := 10
def randomProbesCount : ℕ := 1750
def consistentIntervalMs : ℕ := 1000
def randomProbeIntervalMs : ℕ := 20

/-- A puncher. `probes` collects what it has sent. -/
structure Holepuncher where
  isInitiator : Bool
  hasPool : Bool := false
  stats : Option PunchStats := none
  connected : Bool := false
  punching : Bool := false
  destroyed : Bool := false
  randomized : Bool := false
  localFirewall : UInt32 := firewallUnknown
  remoteFirewall : UInt32 := firewallUnknown
  remoteAddresses : List RemoteAddr := []
  punchRound : ℕ := 0
  randomProbesLeft : ℕ := 0
  birthdayIndex : ℕ := 0
  lowTtlRounds : ℕ := 1
  holders : List SocketRef := []
  reopenCount : ℕ := 0
  sendFn : Bool := false
  sendTtlFn : Bool := false
  onConnect : Bool := false
  onAbort : Bool := false
  /-- The timer runs, with this delay. -/
  timer : Option ℕ := none
  probes : List Probe := []
  deriving DecidableEq

/-- What a holepunch ends with. -/
structure PunchResult where
  success : Bool := false
  address : Ipv4Address := .zero
  firewall : UInt32 := 0
  socket : Option ℕ := none
  deriving DecidableEq

/-- What a tick of the timer may need: the time, a random number and a socket of the pool. -/
structure Tick where
  now : ℕ := 0
  random : ℕ := 0
  acquired : Option SocketRef := none

namespace Holepuncher

def isDone (p : Holepuncher) : Bool := p.destroyed || p.connected

/-! ## Addresses -/

def setRemoteAddresses (p : Holepuncher) (addrs : List Ipv4Address) : Holepuncher :=
  { p with remoteAddresses := addrs.map fun addr => { addr := addr } }

def isVerified (remoteAddresses : List RemoteAddr) (host : List Char) : Bool :=
  remoteAddresses.any fun ra => ra.verified && ra.addr.hostString == host

/-- The new addresses are entered one by one into the emptied list, in which the verified hosts are
looked for. -/
def updateRemote (p : Holepuncher) (addrs : List Ipv4Address) (verifiedHost : List Char) :
    Holepuncher :=
  { p with
    remoteAddresses := addrs.foldl (fun known addr =>
      known ++ [{
        addr := addr
        verified := (!verifiedHost.isEmpty && addr.hostString == verifiedHost) ||
          isVerified known addr.hostString }]) [] }

def verifiedRemote (p : Holepuncher) : Option RemoteAddr := p.remoteAddresses.find? (·.verified)

/-! ## Probes -/

def sendProbe (p : Holepuncher) (addr : Ipv4Address) : Holepuncher :=
  if p.sendFn then { p with probes := p.probes ++ [{ addr := addr }] } else p

def sendTtl (p : Holepuncher) (addr : Ipv4Address) (ttl : ℕ) : Holepuncher :=
  if p.sendTtlFn then { p with probes := p.probes ++ [{ addr := addr, ttl := some ttl }] } else p

def openSession (p : Holepuncher) (addr : Ipv4Address) : Holepuncher := p.sendTtl addr holepunchTtl

/-! ## The end of a puncher -/

def incrementRandomized (p : Holepuncher) : Holepuncher :=
  if p.randomized then p
  else
    { p with
      randomized := true
      stats := p.stats.map fun stats => { stats with randomPunches := stats.randomPunches + 1 } }

def decrementRandomized (p : Holepuncher) (now : ℕ) : Holepuncher :=
  if p.randomized then
    { p with
      randomized := false
      stats := p.stats.map fun stats => { stats with
        lastRandomPunch := now
        randomPunches := stats.randomPunches - 1 } }
  else p

def stop (p : Holepuncher) : Holepuncher := { p with punching := false, timer := none }

/-- The puncher is destroyed; the second part says whether its callback for this was called. -/
def destroy (p : Holepuncher) (now : ℕ) : Holepuncher × Bool :=
  if p.destroyed then (p, false)
  else
    let gone := { p with destroyed := true, punching := false, holders := [], timer := none }
    let ended := if p.connected then gone else gone.decrementRandomized now
    ({ ended with sendFn := false, sendTtlFn := false, onConnect := false, onAbort := false },
      !p.connected && p.onAbort)

/-! ## Strategies -/

/-- A round of probes; addresses that are not verified get one every fourth round only. -/
def probeAll (p : Holepuncher) : Holepuncher :=
  p.remoteAddresses.foldl (fun q ra =>
    if !ra.verified && p.punchRound &&& 3 != 0 then q
    else if ra.addr.port = 0 then q
    else q.sendProbe ra.addr) p

/-- Ten rounds of probes, one every second. -/
def consistentProbe (p : Holepuncher) (now : ℕ) : Holepuncher × Bool :=
  if !p.punching || p.connected || p.punchRound ≥ consistentRounds then
    if p.punching && !p.connected then { p with punching := false }.destroy now else (p, false)
  else if !p.isInitiator && p.punchRound == 0 then
    ({ p with punchRound := p.punchRound + 1, timer := some consistentIntervalMs }, false)
  else
    ({ p.probeAll with punchRound := p.punchRound + 1, timer := some consistentIntervalMs }, false)

/-- Probes to random ports of the first address. -/
def randomProbes (p : Holepuncher) (tick : Tick) : Holepuncher × Bool :=
  if !p.punching || p.connected then (p, false)
  else if p.randomProbesLeft = 0 then { p with punching := false }.destroy tick.now
  else
    let sent := match p.remoteAddresses with
      | [] => p
      | ra :: _ => p.sendProbe
          (Ipv4Address.fromString ra.addr.hostString (UInt16.ofNat (1000 + tick.random % 64536)))
    ({ sent with
      randomProbesLeft := p.randomProbesLeft - 1
      timer := some randomProbeIntervalMs }, false)

/-- One more socket of the pool; when there are enough, the probes from them begin. -/
def openBirthdaySockets (p : Holepuncher) (tick : Tick) : Holepuncher :=
  if !p.punching || p.isDone || !p.hasPool then p
  else
    match p.verifiedRemote with
    | none => { p with punching := false }
    | some vr =>
      let p := if p.holders.length < birthdaySockets then
          match tick.acquired with
          | none => p
          | some ref => { p with holders := p.holders ++ [ref] }.sendTtl vr.addr holepunchTtl
        else p
      if p.holders.length < birthdaySockets then { p with timer := some 0 }
      else
        { p with
          birthdayIndex := 0
          lowTtlRounds := 1
          randomProbesLeft := randomProbesCount
          timer := some 100 }

/-- A probe from the next of the sockets. -/
def keepAliveRandomNat (p : Holepuncher) (now : ℕ) : Holepuncher × Bool :=
  if !p.punching || p.isDone then (p, false)
  else if p.randomProbesLeft = 0 then { p with punching := false }.destroy now
  else
    match p.verifiedRemote with
    | none => ({ p with punching := false }, false)
    | some vr =>
      if p.holders.isEmpty then ({ p with punching := false }, false)
      else
        let p := if p.birthdayIndex ≥ p.holders.length then
          { p with birthdayIndex := 0, lowTtlRounds := p.lowTtlRounds - 1 } else p
        let sent := match p.holders[p.birthdayIndex]? with
          | none => p
          | some ref =>
            if ref.closed then p
            else p.sendTtl vr.addr (if p.lowTtlRounds > 0 then holepunchTtl else defaultTtl)
        ({ sent with
          birthdayIndex := p.birthdayIndex + 1
          randomProbesLeft := p.randomProbesLeft - 1
          timer := some randomProbeIntervalMs }, false)

/-- The timer fires; the second part says whether the puncher gave up. -/
def onPunchTimer (p : Holepuncher) (tick : Tick) : Holepuncher × Bool :=
  let p := { p with timer := none }
  if p.isDone then (p, false)
  else if !p.holders.isEmpty && p.holders.length < birthdaySockets &&
      p.localFirewall == firewallRandom then
    (p.openBirthdaySockets tick, false)
  else if !p.holders.isEmpty && p.holders.length ≥ birthdaySockets then p.keepAliveRandomNat tick.now
  else if p.randomProbesLeft > 0 then p.randomProbes tick
  else p.consistentProbe tick.now

/-- A punch with rounds of probes is counted. -/
def countConsistent (p : Holepuncher) : Holepuncher :=
  { p with
    stats := p.stats.map fun stats => { stats with punchesConsistent := stats.punchesConsistent + 1 } }

/-- A random punch is counted. -/
def countRandom (p : Holepuncher) : Holepuncher :=
  { p with stats := p.stats.map fun stats => { stats with punchesRandom := stats.punchesRandom + 1 } }

/-- The counters, if there are any, do not let a random strategy begin. -/
def throttled (p : Holepuncher) (now : ℕ) : Bool :=
  p.stats.any fun stats => !stats.canRandomPunch now

/-- The strategy is chosen and begun; the second part says whether there is one. -/
def punch (p : Holepuncher) (tick : Tick) : Holepuncher × Bool :=
  if p.connected then (p, true)
  else if p.localFirewall ≠ firewallRandom ∧ p.remoteFirewall ≠ firewallRandom then
    let begun := { p.countConsistent with punching := true, punchRound := 0 }
    ((begun.consistentProbe tick.now).1, true)
  else if p.localFirewall ≠ firewallRandom ∧ p.remoteFirewall = firewallRandom then
    if p.throttled tick.now then (p, false)
    else
      let begun := { p.countRandom.incrementRandomized with
        punching := true, randomProbesLeft := randomProbesCount }
      ((begun.randomProbes tick).1, true)
  else if p.localFirewall = firewallRandom ∧ p.remoteFirewall ≠ firewallRandom then
    if p.verifiedRemote.isNone || !p.hasPool then (p, false)
    else if p.throttled tick.now then (p, false)
    else
      let begun := { p.countRandom.incrementRandomized with punching := true }
      (begun.openBirthdaySockets tick, true)
  else (p, false)

/-! ## Messages and analysis -/

/-- A probe comes. The side that began the connection takes it for the way to the peer, the other one
answers it. -/
def onMessage (p : Holepuncher) (now : ℕ) (source : Ipv4Address) (socket : Option ℕ)
    (ref : Option SocketRef) : Holepuncher × Option PunchResult :=
  if p.connected || p.destroyed then (p, none)
  else if !p.isInitiator then (p.sendProbe source, none)
  else
    let p := { p with
      connected := true
      punching := false
      timer := none
      holders := match ref with
        | none => p.holders
        | some ref => if p.holders.isEmpty then p.holders else [ref] }.decrementRandomized now
    ({ p with onConnect := false },
      if p.onConnect then
        some { success := true, address := source, firewall := p.remoteFirewall, socket := socket }
      else none)

/-- The own firewall is not known, or both are random. -/
def isUnstable (p : Holepuncher) : Bool :=
  if p.remoteFirewall ≥ firewallRandom ∧ p.localFirewall ≥ firewallRandom then true
  else p.localFirewall == firewallUnknown

/-- Whether the firewall is stable enough; an attempt to get there by another socket is counted. -/
def analyze (p : Holepuncher) (allowReopen : Bool) : Holepuncher × Bool :=
  if p.isUnstable then
    if !allowReopen || p.reopenCount ≥ maxReopens || p.isDone || p.punching then (p, false)
    else ({ p with reopenCount := p.reopenCount + 1 }, false)
  else (p, true)

/-! ## What each function leaves alone -/

variable {p q : Holepuncher} {tick : Tick} {now : ℕ}

lemma sendProbe_eq (p : Holepuncher) (addr : Ipv4Address) :
    p.sendProbe addr = { p with probes := (p.sendProbe addr).probes } := by
  unfold sendProbe
  split <;> rfl

lemma sendTtl_eq (p : Holepuncher) (addr : Ipv4Address) (ttl : ℕ) :
    p.sendTtl addr ttl = { p with probes := (p.sendTtl addr ttl).probes } := by
  unfold sendTtl
  split <;> rfl

lemma probeAll_eq (p : Holepuncher) : p.probeAll = { p with probes := p.probeAll.probes } := by
  have hfold (addrs : List RemoteAddr) (q : Holepuncher) (hq : q = { p with probes := q.probes }) :
      ∃ probes, addrs.foldl (fun q ra =>
        if !ra.verified && p.punchRound &&& 3 != 0 then q
        else if ra.addr.port = 0 then q
        else q.sendProbe ra.addr) q = { p with probes := probes } := by
    induction addrs generalizing q with
    | nil => exact ⟨q.probes, hq⟩
    | cons ra addrs ih =>
      refine ih _ ?_
      dsimp only
      split_ifs
      · exact hq
      · exact hq
      · rw [sendProbe_eq, hq]
  obtain ⟨probes, heq⟩ := hfold p.remoteAddresses p rfl
  unfold probeAll
  rw [heq]

/-- A strategy goes on: some probes were sent, and the timer runs. -/
structure GoesOn (p q : Holepuncher) : Prop where
  eq : q = { p with
    probes := q.probes
    punchRound := q.punchRound
    randomProbesLeft := q.randomProbesLeft
    timer := q.timer }
  timer : q.timer ≠ none

namespace GoesOn

lemma punching (h : GoesOn p q) : q.punching = p.punching := by rw [h.eq]

lemma connected (h : GoesOn p q) : q.connected = p.connected := by rw [h.eq]

lemma destroyed (h : GoesOn p q) : q.destroyed = p.destroyed := by rw [h.eq]

lemma randomized (h : GoesOn p q) : q.randomized = p.randomized := by rw [h.eq]

lemma localFirewall (h : GoesOn p q) : q.localFirewall = p.localFirewall := by rw [h.eq]

lemma remoteFirewall (h : GoesOn p q) : q.remoteFirewall = p.remoteFirewall := by rw [h.eq]

end GoesOn

/-- The puncher lives: it is neither connected nor destroyed. -/
structure Lives (p : Holepuncher) : Prop where
  connected : p.connected = false
  destroyed : p.destroyed = false

lemma Lives.isDone (h : p.Lives) : p.isDone = false := by
  simp [Holepuncher.isDone, h.connected, h.destroyed]

lemma consistentProbe_cases (h : p.Lives) (hpunching : p.punching = true) :
    GoesOn p (p.consistentProbe now).1 ∧ (p.consistentProbe now).2 = false ∧
        p.punchRound < consistentRounds ∨
      p.consistentProbe now = { p with punching := false }.destroy now ∧
        consistentRounds ≤ p.punchRound := by
  unfold consistentProbe
  by_cases hover : p.punchRound ≥ consistentRounds
  · refine .inr ⟨?_, hover⟩
    simp [hover, hpunching, h.connected]
  · refine .inl ?_
    have hgoes : ¬ ((!p.punching || p.connected || decide (p.punchRound ≥ consistentRounds)) = true) := by
      simp [hpunching, h.connected, hover]
    rw [if_neg hgoes]
    split
    · exact ⟨⟨rfl, by simp⟩, rfl, not_le.1 hover⟩
    · refine ⟨⟨?_, by simp⟩, rfl, not_le.1 hover⟩
      dsimp only
      rw [probeAll_eq]

lemma randomProbes_cases (h : p.Lives) (hpunching : p.punching = true) :
    GoesOn p (p.randomProbes tick).1 ∧ (p.randomProbes tick).2 = false ∧ p.randomProbesLeft ≠ 0 ∨
      p.randomProbes tick = { p with punching := false }.destroy tick.now ∧ p.randomProbesLeft = 0 := by
  unfold randomProbes
  by_cases hover : p.randomProbesLeft = 0
  · exact .inr ⟨by simp [hover, hpunching, h.connected], hover⟩
  · refine .inl ?_
    have hgoes : ¬ ((!p.punching || p.connected) = true) := by simp [hpunching, h.connected]
    rw [if_neg hgoes, if_neg hover]
    refine ⟨⟨?_, by simp⟩, rfl, hover⟩
    dsimp only
    split
    · rfl
    · rw [sendProbe_eq]

/-- **A tick of the timer** of a puncher without sockets of the pool goes on with the strategy, or
destroys the puncher. -/
theorem onPunchTimer_cases (h : p.Lives) (hpunching : p.punching = true) (hholders : p.holders = []) :
    GoesOn p (p.onPunchTimer tick).1 ∧ (p.onPunchTimer tick).2 = false ∨
      p.onPunchTimer tick = { p with timer := none, punching := false }.destroy tick.now := by
  have hfired : Lives { p with timer := none } := ⟨h.connected, h.destroyed⟩
  have hgoes {q : Holepuncher} (hq : GoesOn { p with timer := none } q) : GoesOn p q :=
    ⟨hq.eq, hq.timer⟩
  have hresult : p.onPunchTimer tick =
      if p.randomProbesLeft > 0 then { p with timer := none }.randomProbes tick
      else { p with timer := none }.consistentProbe tick.now := by
    unfold onPunchTimer
    dsimp only
    rw [if_neg (ne_true_of_eq_false hfired.isDone), if_neg (by simp [hholders]),
      if_neg (by simp [hholders])]
  rw [hresult]
  split
  · exact (randomProbes_cases hfired hpunching).imp (fun ⟨hq, hnot, _⟩ => ⟨hgoes hq, hnot⟩) And.left
  · exact (consistentProbe_cases hfired hpunching).imp (fun ⟨hq, hnot, _⟩ => ⟨hgoes hq, hnot⟩) And.left

lemma onPunchTimer_of_isDone (h : p.isDone = true) :
    p.onPunchTimer tick = ({ p with timer := none }, false) := by
  have hdone : { p with timer := none }.isDone = true := h
  simp [onPunchTimer, hdone]

/-! ## What a punch begins -/

/-- **Where neither firewall is random**, rounds of probes begin. -/
theorem punch_of_consistent (h : p.Lives) (hlocal : p.localFirewall ≠ firewallRandom)
    (hremote : p.remoteFirewall ≠ firewallRandom) :
    GoesOn { p.countConsistent with punching := true, punchRound := 0 } (p.punch tick).1 ∧
      (p.punch tick).2 = true := by
  have hlives : Lives { p.countConsistent with punching := true, punchRound := 0 } :=
    ⟨h.connected, h.destroyed⟩
  have hresult : p.punch tick = (({ p.countConsistent with
      punching := true, punchRound := 0 }.consistentProbe tick.now).1, true) := by
    simp [punch, h.connected, hlocal, hremote]
  rw [hresult]
  refine ⟨?_, rfl⟩
  rcases @consistentProbe_cases _ tick.now hlives rfl with ⟨hgoes, -⟩ | ⟨-, hover⟩
  · exact hgoes
  · exact absurd (show consistentRounds ≤ 0 from hover) (by decide)

/-- **Where only the firewall of the peer is random**, probes to random ports begin, unless the counters
forbid it. -/
theorem punch_of_random (h : p.Lives) (hlocal : p.localFirewall ≠ firewallRandom)
    (hremote : p.remoteFirewall = firewallRandom) (hfree : p.throttled tick.now = false) :
    GoesOn { p.countRandom.incrementRandomized with
        punching := true, randomProbesLeft := randomProbesCount } (p.punch tick).1 ∧
      (p.punch tick).2 = true := by
  have hkept : p.countRandom.incrementRandomized.connected = p.connected ∧
      p.countRandom.incrementRandomized.destroyed = p.destroyed := by
    unfold incrementRandomized countRandom
    split <;> exact ⟨rfl, rfl⟩
  have hlives : Lives { p.countRandom.incrementRandomized with
      punching := true, randomProbesLeft := randomProbesCount } :=
    ⟨hkept.1.trans h.connected, hkept.2.trans h.destroyed⟩
  have hresult : p.punch tick = (({ p.countRandom.incrementRandomized with
      punching := true, randomProbesLeft := randomProbesCount }.randomProbes tick).1, true) := by
    simp [punch, h.connected, hlocal, hremote, hfree]
  rw [hresult]
  refine ⟨?_, rfl⟩
  rcases @randomProbes_cases _ tick hlives rfl with ⟨hgoes, -⟩ | ⟨-, hover⟩
  · exact hgoes
  · exact absurd (show randomProbesCount = 0 from hover) (by decide)

/-- **Where our own firewall is random**, nothing begins without a pool of sockets. -/
theorem punch_of_birthday (h : p.Lives) (hlocal : p.localFirewall = firewallRandom)
    (hpool : p.hasPool = false) : p.punch tick = (p, false) := by
  simp [punch, h.connected, hlocal, hpool]

end Holepuncher

end HyperDHT
