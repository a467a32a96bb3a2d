import HyperDHT.Holepunch.Finish
import HyperDHT.Holepunch.Sampling
import HyperDHT.Holepunch.Strategies
import Mathlib.Algebra.BigOperators.Group.List.Basic

/-!
# Random punches

Random punches are loud, so a node counts those that run and the time since the last one ended, and asks
its counters before it begins another. But no puncher of the node is given the counters, so that they stay
as they were and nothing is ever held back.

## Main definitions

* `Holepuncher.runsRandom`, `PunchNode.running` — the punchers that run a random strategy.
* `PunchNode.Begins` — an input begins a random strategy.
* `PunchNode.counted`, `PunchNode.Asks` — the counters as they would be if every puncher had them, and the
  runs in which they allow every random strategy that is begun.
* `PunchNode.Limited` — there are never too many random punches, and time between them.

## Main results

* `PunchNode.running_step` — a step begins at most one random strategy.
* `PunchNode.limited_of_asks` — random punches are limited where such counters allow them.
* `PunchNode.not_limited_twoSessionsRun` — two sessions that punch at once.
-/

set_option autoImplicit false

namespace HyperDHT

open Compact Routing Rpc Handlers Holepunch Runs

/-! ## Punchers that run a random strategy -/

namespace Holepuncher

variable {p q : Holepuncher} {tick : Tick} {now : ℕ}

/-- The puncher has begun a random strategy, and is not done. -/
def runsRandom (p : Holepuncher) : Bool := p.randomized && !p.isDone

/-- A punch begins a random strategy: it has not begun one before, one of the firewalls is random, and what
its own counters say does not forbid it. -/
def BeginsRandom (p : Holepuncher) (now : ℕ) : Prop :=
  p.isDone = false ∧ p.randomized = false ∧ p.throttled now = false ∧
    (p.localFirewall ≠ firewallRandom ∧ p.remoteFirewall = firewallRandom ∨
      p.localFirewall = firewallRandom ∧ p.remoteFirewall ≠ firewallRandom ∧
        p.verifiedRemote.isSome = true ∧ p.hasPool = true)

/-- The second puncher runs a random strategy only if the first one does. -/
def Calm (p q : Holepuncher) : Prop := q.runsRandom = true → p.runsRandom = true

lemma Calm.trans {r : Holepuncher} (h : Calm p q) (h' : Calm q r) : Calm p r := h ∘ h'

lemma calm_of_eq (hrandomized : q.randomized = p.randomized) (hconnected : q.connected = p.connected)
    (hdestroyed : q.destroyed = p.destroyed) : Calm p q := by
  unfold Calm runsRandom isDone
  rw [hrandomized, hconnected, hdestroyed]
  exact id

lemma calm_of_isDone (h : q.isDone = true) : Calm p q := by
  unfold Calm runsRandom
  rw [h, Bool.not_true, Bool.and_false]
  exact fun hfalse => Bool.noConfusion hfalse

lemma Works.calm (h : Works p q) : Calm p q := calm_of_eq h.randomized h.connected h.destroyed

lemma calm_analyze (p : Holepuncher) (allowReopen : Bool) : Calm p (p.analyze allowReopen).1 := by
  unfold analyze
  split_ifs <;> exact calm_of_eq rfl rfl rfl

lemma isDone_destroy (p : Holepuncher) : (p.destroy now).1.isDone = true := by
  unfold destroy
  split
  next h => simp [isDone, h]
  · dsimp only
    split
    · rfl
    · unfold decrementRandomized
      split <;> rfl

lemma calm_destroy (p q : Holepuncher) : Calm p (q.destroy now).1 := calm_of_isDone q.isDone_destroy

lemma WorksOut.calm (h : WorksOut p now q) : Calm p q := by
  obtain ⟨r, hr, rfl | rfl⟩ := h
  · exact hr.calm
  · exact calm_destroy p r

lemma calm_onMessage (p : Holepuncher) (source : Ipv4Address) (socket : Option ℕ)
    (ref : Option SocketRef) : Calm p (p.onMessage now source socket ref).1 := by
  unfold onMessage
  split
  · exact id
  split
  · exact (works_sendProbe p source).calm
  · refine calm_of_isDone ?_
    unfold decrementRandomized isDone
    dsimp only
    split <;> exact Bool.or_true _

/-- **What a punch begins**: it runs a random strategy only if it did before or begins one. -/
theorem runsRandom_punch (h : (p.punch tick).1.runsRandom = true) :
    p.runsRandom = true ∨ p.BeginsRandom tick.now := by
  have hbegun {r : Holepuncher} (hrandomized : r.isDone = p.isDone) (hcalm : Calm r (p.punch tick).1)
      (hfree : p.throttled tick.now = false)
      (hfirewalls : p.localFirewall ≠ firewallRandom ∧ p.remoteFirewall = firewallRandom ∨
        p.localFirewall = firewallRandom ∧ p.remoteFirewall ≠ firewallRandom ∧
          p.verifiedRemote.isSome = true ∧ p.hasPool = true) :
      p.runsRandom = true ∨ p.BeginsRandom tick.now := by
    have hlives : p.isDone = false := by
      have hr := hcalm h
      rw [runsRandom, hrandomized, Bool.and_eq_true, Bool.not_eq_true'] at hr
      exact hr.2
    cases hold : p.randomized with
    | true => exact .inl (by rw [runsRandom, hold, hlives]; rfl)
    | false => exact .inr ⟨hlives, hold, hfree, hfirewalls⟩
  have hkept : p.countRandom.incrementRandomized.isDone = p.isDone := by
    unfold incrementRandomized countRandom
    split <;> rfl
  revert h hbegun
  unfold punch
  split
  · exact fun h _ => .inl h
  split
  · intro h _
    have hcounted : Calm p { p.countConsistent with punching := true, punchRound := 0 } :=
      calm_of_eq rfl rfl rfl
    exact .inl (hcounted.trans (worksOut_consistentProbe _).calm h)
  split
  next hfirewalls =>
    split
    · exact fun h _ => .inl h
    next hfree =>
      intro h hbegun
      exact hbegun (r := { p.countRandom.incrementRandomized with
        punching := true, randomProbesLeft := randomProbesCount }) hkept (worksOut_randomProbes _).calm
        (Bool.eq_false_of_not_eq_true hfree) (.inl hfirewalls)
  split
  next hfirewalls =>
    split
    · exact fun h _ => .inl h
    next hpool =>
      split
      · exact fun h _ => .inl h
      next hfree =>
        intro h hbegun
        refine hbegun (r := { p.countRandom.incrementRandomized with punching := true }) hkept
          (works_openBirthdaySockets _).calm (Bool.eq_false_of_not_eq_true hfree)
          (.inr ⟨hfirewalls.1, hfirewalls.2, ?_⟩)
        simpa [Option.isSome_iff_ne_none] using hpool
  · exact fun h _ => .inl h

end Holepuncher

/-! ## Sums over tables -/

section Sums

variable {α : Type*} {β : Type*} [DecidableEq α]

lemma sum_map_kerase {l : List (Sigma fun _ : α => β)} {a : α} {b : β}
    (f : (Sigma fun _ : α => β) → ℕ) (h : List.dlookup a l = some b) :
    (l.map f).sum = f ⟨a, b⟩ + ((List.kerase a l).map f).sum := by
  induction l with
  | nil => simp at h
  | cons e l ih =>
    obtain ⟨c, d⟩ := e
    by_cases hac : a = c
    · subst hac
      rw [List.dlookup_cons_eq] at h
      obtain rfl := Option.some.inj h
      have hrest : List.kerase a (⟨a, d⟩ :: l) = l := List.kerase_cons_eq rfl
      rw [hrest, List.map_cons, List.sum_cons]
    · have hrest : List.kerase a (⟨c, d⟩ :: l) = ⟨c, d⟩ :: List.kerase a l := List.kerase_cons_ne hac
      rw [List.dlookup_cons_ne l ⟨c, d⟩ hac] at h
      rw [hrest, List.map_cons, List.sum_cons, ih h, List.map_cons, List.sum_cons]
      exact Nat.add_left_comm _ _ _

lemma sum_map_kerase_le (l : List (Sigma fun _ : α => β)) (a : α)
    (f : (Sigma fun _ : α => β) → ℕ) : ((List.kerase a l).map f).sum ≤ (l.map f).sum :=
  ((List.kerase_sublist a l).map f).sum_le_sum fun _ _ => Nat.zero_le _

lemma sum_map_set {γ : Type*} {l : List γ} {j : ℕ} {a : γ} (b : γ) (f : γ → ℕ) (h : l[j]? = some a) :
    ((l.set j b).map f).sum + f a = (l.map f).sum + f b := by
  induction l generalizing j with
  | nil => simp at h
  | cons c l ih =>
    cases j with
    | zero =>
      obtain rfl := Option.some.inj h
      rw [List.set_cons_zero, List.map_cons, List.map_cons, List.sum_cons, List.sum_cons]
      omega
    | succ j =>
      have htail := @ih j h
      rw [List.set_cons_succ, List.map_cons, List.map_cons, List.sum_cons, List.sum_cons]
      omega

end Sums

/-! ## A client -/

namespace Holepunch.PunchState

open Holepuncher

variable {env : Holepunch.Env} {s : PunchState} {now : ℕ}

lemma calm_complete (s : PunchState) (result : PunchResult) :
    Calm s.puncher (s.complete now result).puncher := by
  unfold complete
  split
  · exact id
  · exact calm_destroy _ _

lemma calm_runRound1 (s : PunchState) : Calm s.puncher (s.runRound1 env).puncher := by
  unfold runRound1
  split
  · exact id
  · exact calm_of_eq rfl rfl rfl

lemma calm_proceed (s : PunchState) (r : Round1) : Calm s.puncher (s.proceed r now).puncher := by
  have hinformed : Calm s.puncher (s.informed r) := calm_of_eq rfl rfl rfl
  have hanalyzed : Calm (s.informed r) (if ((s.informed r).analyze false).2 then
      (s.informed r).analyze false else ((s.informed r).analyze false).1.analyze true).1 := by
    split
    · exact calm_analyze _ _
    · exact (calm_analyze _ _).trans (calm_analyze _ _)
  unfold proceed
  split
  · exact id
  dsimp only
  split
  · exact Calm.trans (q := { s.puncher with localFirewall := s.sampler.firewall.code })
      (calm_of_eq rfl rfl rfl) (calm_complete { s with
        puncher := { s.puncher with localFirewall := s.sampler.firewall.code } } _)
  revert hanalyzed
  generalize (if ((s.informed r).analyze false).2 then (s.informed r).analyze false
    else ((s.informed r).analyze false).1.analyze true) = analyzed
  intro hanalyzed
  have htold := hinformed.trans hanalyzed
  split
  · exact htold.trans (calm_complete { s with puncher := analyzed.1 } _)
  split
  · exact htold
  refine htold.trans ?_
  dsimp only
  split
  · exact (works_sendProbe _ _).calm
  · exact id

lemma calm_onRound1 (s : PunchState) (value : Option (List UInt8)) (toAddr : Ipv4Address) :
    Calm s.puncher (s.onRound1 env value toAddr now).puncher := by
  unfold onRound1
  split
  · exact id
  dsimp only
  split
  · exact calm_complete _ _
  split
  · exact calm_complete _ _
  split
  · exact calm_complete _ _
  split
  · exact calm_complete _ _
  split
  · exact calm_complete _ _
  split
  · exact calm_proceed _ _
  · exact id

lemma calm_onRound2 (s : PunchState) (value : Option (List UInt8)) :
    Calm s.puncher (s.onRound2 env value now).puncher := by
  unfold onRound2
  split
  · exact id
  dsimp only
  split
  · exact id
  split
  · exact id
  split
  · exact calm_complete _ _
  split
  · exact id
  · exact calm_of_eq rfl rfl rfl

lemma calm_finishPing (s : PunchState) : Calm s.puncher s.finishPing.puncher := by
  unfold finishPing
  split <;> exact id

lemma runsRandom_start (env : Holepunch.Env) : (start env).puncher.runsRandom = false := by
  refine Bool.eq_false_of_not_eq_true fun h => ?_
  have hbegun := calm_runRound1 _ h
  rw [discoverPoolAddresses_eq] at hbegun
  revert hbegun
  dsimp only
  split <;> exact fun hfalse => Bool.noConfusion hfalse

/-- The end of a pause begins a random strategy if the second round follows. -/
def BeginsRandom (s : PunchState) (now : ℕ) : Prop :=
  (∃ r, s.sleeper = some (.round2 r)) ∧ s.completed = false ∧ s.puncher.BeginsRandom now

lemma runsRandom_onSleeper {tick : Tick} (h : (s.onSleeper env tick).puncher.runsRandom = true) :
    s.puncher.runsRandom = true ∨ s.BeginsRandom tick.now := by
  unfold onSleeper at h
  split at h
  · exact .inl h
  next sleep hsleeper =>
    dsimp only at h
    split at h
    · exact .inl (calm_runRound1 { s with sleeper := none } h)
    next r =>
      unfold sendRound2 at h
      split at h
      · exact .inl h
      next hgoing =>
        have hopened : Calm s.puncher (s.puncher.openSession r.first) :=
          (works_sendTtl _ _ _).calm
        rcases runsRandom_punch h with hruns | hbegins
        · exact .inl (hopened hruns)
        · refine .inr ⟨⟨r, hsleeper⟩, Bool.eq_false_of_not_eq_true hgoing, ?_⟩
          rw [Holepuncher.openSession, sendTtl_eq] at hbegins
          exact hbegins

/-- **A client begins a random strategy** only at the end of the pause before its second round. -/
theorem runsRandom_step {i : Holepunch.Input}
    (h : (Holepunch.step env s i).puncher.runsRandom = true) :
    s.puncher.runsRandom = true ∨ ∃ tick, i = .sleeper tick ∧ s.BeginsRandom tick.now := by
  cases i with
  | response k toAddr source value now =>
    refine .inl ?_
    revert h
    change Calm s.puncher (s.onResponse env k toAddr source value now).puncher
    unfold onResponse
    split
    · exact id
    dsimp only
    split
    · exact id
    split
    · exact calm_finishPing _
    · exact calm_onRound1 _ _ _
    · exact calm_onRound2 _ _
  | timeout k now =>
    refine .inl ?_
    revert h
    change Calm s.puncher (s.onTimeout k now).puncher
    unfold onTimeout
    split
    · exact id
    split
    · exact id
    split
    · exact id
    dsimp only
    split
    · exact calm_finishPing _
    · exact calm_complete _ _
    · exact id
  | probe source now =>
    refine .inl ?_
    revert h
    change Calm s.puncher (s.onProbe env source now).puncher
    unfold onProbe
    split
    · exact id
    dsimp only
    split
    · exact calm_onMessage _ _ _ _
    · exact (calm_onMessage _ _ _ _).trans (calm_complete _ _)
  | sleeper tick => exact (runsRandom_onSleeper h).imp_right fun hbegins => ⟨tick, rfl, hbegins⟩
  | waitSampler now =>
    refine .inl ?_
    revert h
    change Calm s.puncher (s.onWaitSampler now).puncher
    unfold onWaitSampler
    split
    · exact id
    split
    · exact id
    split
    · exact calm_proceed _ _
    · exact id
  | punchTimer tick =>
    refine .inl ?_
    revert h
    change Calm s.puncher (s.onPunchTimer tick).puncher
    unfold onPunchTimer
    split
    · exact id
    dsimp only
    split
    · exact (worksOut_onPunchTimer _).calm.trans (calm_complete _ _)
    · exact (worksOut_onPunchTimer _).calm

end Holepunch.PunchState

/-! ## A server -/

/-- A puncher of the session runs a random strategy. -/
def Holepunch.Session.runsRandom (conn : Session) : Bool := conn.puncher.any Holepuncher.runsRandom

namespace PunchServer

variable {sessions : AList fun _ : UInt32 => Session} {s : PunchServer} {id : UInt32} {conn : Session}

/-- The sessions that run a random strategy. -/
def runningIn (sessions : AList fun _ : UInt32 => Session) : ℕ :=
  (sessions.entries.map fun e => e.2.runsRandom.toNat).sum

lemma runningIn_insert_le (sessions : AList fun _ : UInt32 => Session) (id : UInt32) (conn : Session) :
    runningIn (sessions.insert id conn) ≤ conn.runsRandom.toNat + runningIn sessions := by
  unfold runningIn
  rw [AList.entries_insert, List.map_cons, List.sum_cons]
  exact Nat.add_le_add_left (sum_map_kerase_le _ _ _) _

lemma runningIn_erase_le (sessions : AList fun _ : UInt32 => Session) (id : UInt32) :
    runningIn (sessions.erase id) ≤ runningIn sessions := sum_map_kerase_le _ _ _

lemma runningIn_insert (h : sessions.lookup id = some conn) (other : Session) :
    runningIn (sessions.insert id other) + conn.runsRandom.toNat =
      runningIn sessions + other.runsRandom.toNat := by
  unfold runningIn
  rw [AList.entries_insert, List.map_cons, List.sum_cons,
    sum_map_kerase (fun e => e.2.runsRandom.toNat) h]
  dsimp only
  omega

lemma runningIn_insert_le_of_calm (h : sessions.lookup id = some conn) {other : Session}
    (hcalm : other.runsRandom = true → conn.runsRandom = true) :
    runningIn (sessions.insert id other) ≤ runningIn sessions := by
  have hinsert := runningIn_insert h other
  have hle : other.runsRandom.toNat ≤ conn.runsRandom.toNat := Bool.toNat_le_toNat hcalm
  omega

/-- The message begins a random strategy: it belongs to a session, the client punches, nothing forbids it,
and a punch of the puncher begins one. -/
def Begins (s : PunchServer) (sampler : NatSampler.State) (stats : Option PunchStats) (now : ℕ)
    (value : List UInt8) (peerAddress : Ipv4Address) : Prop :=
  ∃ conn secure client, s.sessions.lookup (decodeHolepunchMsg value).id = some conn ∧
    conn.read value = some (secure, client) ∧ client.error = errorNone ∧
    let heard := heard sampler peerAddress
    let known := s.known heard stats now peerAddress
    let reply := answerReply secure known (conn.nextRound client) client
    reply.shouldPunch = true ∧ s.vetoes heard reply = false ∧
      (informPuncher conn heard reply).BeginsRandom now

lemma runsRandom_informPuncher (conn : Session) (sampler : NatSampler.State) (reply : HolepunchReply) :
    (informPuncher conn sampler reply).runsRandom = conn.runsRandom := by
  unfold informPuncher Session.runsRandom
  cases conn.puncher <;> rfl

/-- **What a message begins**: a random strategy at most. -/
theorem running_onPeerHolepunch (s : PunchServer) (sampler : NatSampler.State)
    (stats : Option PunchStats) (tick : Tick) (value : List UInt8) (peerAddress : Ipv4Address) :
    let handled := s.onPeerHolepunch sampler stats tick value peerAddress
    runningIn handled.server.sessions ≤ runningIn s.sessions ∨
      s.Begins sampler stats tick.now value peerAddress ∧
        runningIn handled.server.sessions ≤ runningIn s.sessions + 1 := by
  dsimp only
  by_cases hserves : s.Serves value
  swap
  · rw [onPeerHolepunch_of_not_serves hserves]
    exact .inl le_rfl
  obtain ⟨hopen, hsome⟩ := hserves
  obtain ⟨conn, hlookup⟩ := Option.isSome_iff_exists.1 hsome
  rw [onPeerHolepunch_of_lookup hopen hlookup]
  set id := (decodeHolepunchMsg value).id with hid
  set known := s.known (PunchServer.heard sampler peerAddress) stats tick.now peerAddress with hknown
  set handled := handleHolepunch conn value known with hhandled
  have hkept : handled.1.runsRandom = conn.runsRandom := by
    unfold Session.runsRandom
    rw [(handleHolepunch_kept conn value known).2]
  have hanswered : runningIn (s.sessions.insert id handled.1) ≤ runningIn s.sessions :=
    runningIn_insert_le_of_calm hlookup fun h => hkept ▸ h
  dsimp only
  split
  · exact .inl hanswered
  next hpunch =>
    split
    · exact .inl ((runningIn_erase_le _ _).trans hanswered)
    next hallowed =>
      have hagain : (s.sessions.insert id handled.1).lookup id = some handled.1 :=
        AList.lookup_insert _
      have hpunched := runningIn_insert hagain { handled.1 with
        puncher := some ((informPuncher handled.1 (PunchServer.heard sampler peerAddress)
          handled.2).punch tick).1 }
      have hone (b : Bool) : b.toNat ≤ 1 := Bool.toNat_le b
      unfold startPunch
      dsimp only
      by_cases hruns : ((informPuncher handled.1 (PunchServer.heard sampler peerAddress)
          handled.2).punch tick).1.runsRandom = true
      · rcases Holepuncher.runsRandom_punch hruns with hbefore | hbegins
        · rw [runsRandom_informPuncher] at hbefore
          exact .inl ((runningIn_insert_le_of_calm hagain fun _ => hbefore).trans hanswered)
        · refine .inr ⟨?_, ?_⟩
          · obtain ⟨-, hnothing⟩ | ⟨secure, client, hread, hconn, ⟨-, habort⟩ | ⟨herror, hreply⟩⟩ :=
              handleHolepunch_cases conn value known
            · rw [hhandled, hnothing] at hpunch
              exact absurd rfl hpunch
            · rw [hhandled, habort] at hpunch
              exact absurd rfl hpunch
            · refine ⟨conn, secure, client, hlookup, hread, herror, ?_⟩
              dsimp only
              rw [← hknown, ← hreply, ← hhandled]
              refine ⟨by simpa using hpunch, Bool.eq_false_of_not_eq_true hallowed, ?_⟩
              have hpuncher : informPuncher handled.1 (PunchServer.heard sampler peerAddress) handled.2 =
                  informPuncher conn (PunchServer.heard sampler peerAddress) handled.2 := by
                unfold informPuncher
                rw [(handleHolepunch_kept conn value known).2]
              rw [← hpuncher]
              exact hbegins
          · refine (runningIn_insert_le _ _ _).trans ?_
            rw [Nat.add_comm]
            exact Nat.add_le_add hanswered (hone _)
      · refine .inl ((runningIn_insert_le_of_calm hagain fun hruns' => ?_).trans hanswered)
        exact absurd hruns' hruns

end PunchServer

/-! ## The node -/

namespace PunchNode

open PunchServer

variable {env : Rpc.Env} {s : PunchNode}

/-- The punchers of the node that run a random strategy. -/
def running (s : PunchNode) : ℕ :=
  (s.clients.map fun c => c.state.puncher.runsRandom.toNat).sum +
    (s.servers.map fun server => runningIn server.sessions).sum

/-- An input begins a random strategy: a message that reaches a server, or the end of a pause of a
client. -/
def Begins (s : PunchNode) : Input → Prop
  | .request _ _ req _ => ∃ handed, s.reaches req = some handed ∧
      handed.server.Begins s.rpc.natSampler (some s.stats) s.now handed.value handed.clientAddr
  | .client k (.sleeper _) => ∃ c, s.clients[k]? = some c ∧ c.state.BeginsRandom s.now
  | _ => False

lemma runningIn_serverStep (tick : ℕ → Tick) (s : PunchServer) (i : ServerInput) :
    runningIn (serverStep tick s i).sessions ≤ runningIn s.sessions := by
  cases i with
  | setRelays relays =>
    unfold serverStep
    dsimp only
    split <;> exact le_rfl
  | setHolepunchCb cb => exact le_rfl
  | openSession hpId secure =>
    unfold serverStep
    dsimp only
    split
    · exact le_rfl
    · refine (runningIn_insert_le _ _ _).trans ?_
      exact (Nat.zero_add _).le
  | endSession hpId => exact runningIn_erase_le _ _
  | suspend => exact Nat.zero_le _
  | close => exact Nat.zero_le _
  | punchTimer hpId random =>
    change runningIn (onPunchTimer s hpId (tick random)).sessions ≤ _
    unfold onPunchTimer
    split
    · exact le_rfl
    next conn hlookup =>
      split
      · exact le_rfl
      next puncher hpuncher =>
        split
        · exact le_rfl
        · refine runningIn_insert_le_of_calm hlookup fun h => ?_
          unfold Session.runsRandom
          rw [hpuncher]
          exact (Holepuncher.worksOut_onPunchTimer puncher).calm h

lemma sum_set_le {servers : List PunchServer} {j : ℕ} {a b : PunchServer} {n : ℕ}
    (h : servers[j]? = some a) (hle : runningIn b.sessions ≤ runningIn a.sessions + n) :
    ((servers.set j b).map fun server => runningIn server.sessions).sum ≤
      (servers.map fun server => runningIn server.sessions).sum + n := by
  have hset := sum_map_set b (fun server : PunchServer => runningIn server.sessions) h
  omega

/-- **A step begins at most one random strategy**, and none that its input does not begin. -/
theorem running_step (i : Input) :
    running (step env s i) ≤ running s ∨ s.Begins i ∧ running (step env s i) ≤ running s + 1 := by
  cases i with
  | clock ms => exact .inl le_rfl
  | rpc i => exact .inl le_rfl
  | request toAddr id req random =>
    change running (s.onRequest env id req random) ≤ _ ∨
      _ ∧ running (s.onRequest env id req random) ≤ _
    cases hreaches : s.reaches req with
    | none =>
      rw [onRequest_of_none hreaches]
      exact .inl le_rfl
    | some handed =>
      rw [onRequest_of_reaches hreaches]
      have hserver := (handedTo_spec (reaches_spec hreaches).2.2.1).1
      have hsampler : (s.seen env id req).rpc.natSampler = s.rpc.natSampler := natSampler_seen id req
      have hserved := running_onPeerHolepunch handed.server (s.seen env id req).rpc.natSampler
        (some s.stats) { now := s.now, random := random } handed.value handed.clientAddr
      rw [hsampler] at hserved
      have hresult : ((s.seen env id req).served handed random).server =
          (handed.server.onPeerHolepunch s.rpc.natSampler (some s.stats)
            { now := s.now, random := random } handed.value handed.clientAddr).server := by
        unfold served
        rw [hsampler]
        rfl
      unfold running
      dsimp only
      rw [hresult]
      refine hserved.imp (fun hle => ?_) fun ⟨hbegins, hle⟩ => ⟨⟨handed, hreaches, hbegins⟩, ?_⟩
      · exact Nat.add_le_add_left (@sum_set_le _ _ _ _ 0 hserver hle) _
      · rw [Nat.add_assoc]
        exact Nat.add_le_add_left (sum_set_le hserver hle) _
  | listen target =>
    refine .inl ?_
    change (s.clients.map fun c => c.state.puncher.runsRandom.toNat).sum +
      ((s.servers ++ [({ target := target } : PunchServer)]).map fun server =>
        runningIn server.sessions).sum ≤ _
    rw [List.map_append, List.sum_append]
    exact le_rfl
  | server j i =>
    refine .inl ?_
    change running (s.onServer j i) ≤ _
    unfold onServer
    split
    · exact le_rfl
    next server hserver =>
      exact Nat.add_le_add_left (@sum_set_le _ _ _ _ 0 hserver (runningIn_serverStep _ server i)) _
  | connect cenv =>
    refine .inl ?_
    change ((s.clients ++ [(⟨cenv, Holepunch.start cenv⟩ : Connecting)]).map fun c =>
      c.state.puncher.runsRandom.toNat).sum +
        (s.servers.map fun server => runningIn server.sessions).sum ≤ _
    rw [List.map_append, List.sum_append]
    simp [PunchState.runsRandom_start cenv, running]
  | client k i =>
    have hrunning : running (step env s (.client k i)) =
        ((s.clients.modify k fun c =>
          { c with state := Holepunch.step c.env c.state (atTime s.now i) }).map fun c =>
            c.state.puncher.runsRandom.toNat).sum +
          (s.servers.map fun server => runningIn server.sessions).sum := rfl
    rw [hrunning]
    cases hc : s.clients[k]? with
    | none =>
      rw [List.modify_eq_self (List.getElem?_eq_none_iff.1 hc)]
      exact .inl le_rfl
    | some c =>
      set stepped : Connecting :=
        { c with state := Holepunch.step c.env c.state (atTime s.now i) } with hstepped
      have hmodify : (s.clients.modify k fun c =>
          { c with state := Holepunch.step c.env c.state (atTime s.now i) }) =
            s.clients.set k stepped := by
        have : Inhabited Connecting := ⟨c⟩
        rw [List.modify_eq_set, hc]
        rfl
      have hset := sum_map_set stepped (fun c : Connecting => c.state.puncher.runsRandom.toNat) hc
      rw [hmodify]
      unfold running
      by_cases hruns : stepped.state.puncher.runsRandom = true
      · rcases PunchState.runsRandom_step hruns with hbefore | ⟨tick, hi, hbegins⟩
        · rw [hruns, hbefore] at hset
          exact .inl (by omega)
        · refine .inr ⟨?_, ?_⟩
          · cases i with
            | sleeper tick' =>
              obtain rfl := Holepunch.Input.sleeper.inj hi
              exact ⟨c, hc, hbegins⟩
            | _ => exact Holepunch.Input.noConfusion hi
          · have hone := Bool.toNat_le stepped.state.puncher.runsRandom
            omega
      · rw [Bool.eq_false_of_not_eq_true hruns] at hset
        exact .inl (by rw [Bool.toNat_false] at hset; omega)
  | suspend =>
    refine .inl ?_
    change running s.suspend ≤ _
    unfold suspend
    split
    · exact le_rfl
    · refine Nat.add_le_add_left ?_ _
      dsimp only
      rw [List.map_map]
      exact List.sum_le_sum fun server _ => Nat.zero_le _
  | resume =>
    refine .inl ?_
    change running s.resume ≤ _
    unfold resume
    split <;> exact le_rfl

/-! ## Counters that every puncher has -/

/-- The counters after a step, if every puncher counts in them. -/
def counted (env : Rpc.Env) (s : PunchNode) (stats : PunchStats) (i : Input) : PunchStats :=
  { stats with
    randomPunches := running (step env s i)
    lastRandomPunch := if running (step env s i) < running s then s.now else stats.lastRandomPunch }

/-- Such counters allow every random strategy that is begun in a run. -/
def Asks (env : Rpc.Env) : PunchNode → PunchStats → List Input → Prop
  | _, _, [] => True
  | s, stats, i :: is => (s.Begins i → stats.canRandomPunch s.now = true) ∧
      Asks env (step env s i) (counted env s stats i) is

/-- Random punches are limited: there are never more than allowed, and none begins too early after the end
of another one. -/
def Limited (env : Rpc.Env) (s : PunchNode) (is : List Input) : Prop :=
  EveryState (step env) (fun s => (running s : ℤ) ≤ s.stats.randomPunchLimit) s is ∧
    EveryPair (step env) (fun s i t j => running (step env s i) < running s →
      running t < running (step env t j) → s.now + t.stats.randomPunchInterval ≤ t.now) s is

/-- The counters agree with the node. -/
structure Agrees (s : PunchNode) (stats : PunchStats) : Prop where
  randomPunches : stats.randomPunches = running s
  limit : stats.randomPunchLimit = s.stats.randomPunchLimit
  interval : stats.randomPunchInterval = s.stats.randomPunchInterval
  last : stats.lastRandomPunch ≤ s.now
  now : 0 < s.now

lemma limits_step (s : PunchNode) (i : Input) :
    (step env s i).stats.randomPunchLimit = s.stats.randomPunchLimit ∧
      (step env s i).stats.randomPunchInterval = s.stats.randomPunchInterval ∧
      s.now ≤ (step env s i).now := by
  cases i with
  | clock ms => exact ⟨rfl, rfl, Nat.le_add_right _ _⟩
  | request toAddr id req random =>
    change (s.onRequest env id req random).stats.randomPunchLimit = _ ∧
      (s.onRequest env id req random).stats.randomPunchInterval = _ ∧
      _ ≤ (s.onRequest env id req random).now
    cases hreaches : s.reaches req with
    | none =>
      rw [onRequest_of_none hreaches]
      exact ⟨rfl, rfl, le_rfl⟩
    | some handed =>
      rw [onRequest_of_reaches hreaches]
      exact ⟨rfl, rfl, le_rfl⟩
  | server j i =>
    change (s.onServer j i).stats.randomPunchLimit = _ ∧
      (s.onServer j i).stats.randomPunchInterval = _ ∧ _ ≤ (s.onServer j i).now
    unfold onServer
    split <;> exact ⟨rfl, rfl, le_rfl⟩
  | suspend =>
    change s.suspend.stats.randomPunchLimit = _ ∧ s.suspend.stats.randomPunchInterval = _ ∧
      _ ≤ s.suspend.now
    unfold suspend
    split <;> exact ⟨rfl, rfl, le_rfl⟩
  | resume =>
    change s.resume.stats.randomPunchLimit = _ ∧ s.resume.stats.randomPunchInterval = _ ∧
      _ ≤ s.resume.now
    unfold resume
    split
    · exact ⟨rfl, rfl, le_rfl⟩
    · dsimp only
      split <;> exact ⟨rfl, rfl, le_rfl⟩
  | rpc i => exact ⟨rfl, rfl, le_rfl⟩
  | listen target => exact ⟨rfl, rfl, le_rfl⟩
  | connect env => exact ⟨rfl, rfl, le_rfl⟩
  | client k i => exact ⟨rfl, rfl, le_rfl⟩

variable {stats : PunchStats} {i : Input} {is : List Input}

lemma Agrees.step (h : Agrees s stats) (i : Input) :
    Agrees (step env s i) (counted env s stats i) := by
  obtain ⟨hlimit, hinterval, hnow⟩ := @limits_step env s i
  refine ⟨rfl, h.limit.trans hlimit.symm, h.interval.trans hinterval.symm, ?_, h.now.trans_le hnow⟩
  unfold counted
  dsimp only
  split
  · exact hnow
  · exact h.last.trans hnow

lemma Agrees.last_le (h : Agrees s stats) (i : Input) :
    stats.lastRandomPunch ≤ (counted env s stats i).lastRandomPunch := by
  unfold counted
  dsimp only
  split
  · exact h.last
  · exact le_rfl

lemma begins_of_lt (h : running s < running (step env s i)) : s.Begins i :=
  (running_step i).elim (fun hle => absurd hle (not_le.2 h)) And.left

lemma Agrees.of_canRandomPunch (h : Agrees s stats) (hallowed : stats.canRandomPunch s.now = true) :
    (running s : ℤ) < s.stats.randomPunchLimit ∧
      (0 < stats.lastRandomPunch →
        stats.lastRandomPunch + s.stats.randomPunchInterval ≤ s.now) := by
  unfold PunchStats.canRandomPunch at hallowed
  split at hallowed
  · exact Bool.noConfusion hallowed
  next hfew =>
    split at hallowed
    · exact Bool.noConfusion hallowed
    next hlate =>
      rw [h.randomPunches, h.limit, ge_iff_le, not_le] at hfew
      refine ⟨hfew, fun hpositive => ?_⟩
      rw [not_and, h.interval, not_lt] at hlate
      have hlast := h.last
      have hrest := hlate hpositive
      omega

/-- **After the end of a random punch** none begins for an interval. -/
lemma Agrees.rests {ended : ℕ} (h : Agrees s stats) (hpositive : 0 < ended)
    (hended : ended ≤ stats.lastRandomPunch) (hasks : Asks env s stats is) :
    EveryStep (PunchNode.step env) (fun t j => running t < running (PunchNode.step env t j) →
      ended + t.stats.randomPunchInterval ≤ t.now) s is := by
  induction is generalizing s stats with
  | nil => trivial
  | cons i is ih =>
    refine ⟨fun hstarts => ?_, ih (h.step i) (hended.trans (h.last_le i)) hasks.2⟩
    have hrest := (h.of_canRandomPunch (hasks.1 (begins_of_lt hstarts))).2 (hpositive.trans_le hended)
    exact (Nat.add_le_add_right hended _).trans hrest

/-- **Random punches are limited** from a state that the counters agree with. -/
theorem Agrees.limited (h : Agrees s stats) (hfew : (running s : ℤ) ≤ s.stats.randomPunchLimit)
    (hasks : Asks env s stats is) : Limited env s is := by
  induction is generalizing s stats with
  | nil => exact ⟨hfew, fun before i mid j after hsplit => absurd hsplit (by simp)⟩
  | cons i is ih =>
    have hnext : (running (PunchNode.step env s i) : ℤ) ≤
        (PunchNode.step env s i).stats.randomPunchLimit := by
      rw [(limits_step s i).1]
      rcases @running_step env s i with hle | ⟨hbegins, hle⟩
      · omega
      · have hless := (h.of_canRandomPunch (hasks.1 hbegins)).1
        omega
    obtain ⟨hstates, hpairs⟩ := ih (h.step i) hnext hasks.2
    refine ⟨⟨hfew, hstates⟩, everyPair_cons.2 ⟨?_, hpairs⟩⟩
    by_cases hends : running (PunchNode.step env s i) < running s
    · have hlast : s.now ≤ (counted env s stats i).lastRandomPunch := by
        unfold counted
        dsimp only
        rw [if_pos hends]
      exact ((h.step i).rests h.now hlast hasks.2).mono fun t j hrest _ => hrest
    · exact everyStep_iff_forall.2 fun _ _ _ _ hends' => absurd hends' hends

/-- **Random punches are limited** in every run of a node in which counters that every puncher has would
allow the random strategies that are begun. -/
theorem limited_of_asks (env : Rpc.Env) (localId : NodeId) (firstTid : UInt16)
    (ownAddr : Option Ipv4Address) (limit : ℤ) (interval now : ℕ) (deferRandomPunch : Bool)
    (is : List Input) (hlimit : 0 ≤ limit) (hnow : 0 < now)
    (hasks : Asks env (init localId firstTid ownAddr limit interval now deferRandomPunch)
      { randomPunchLimit := limit, randomPunchInterval := interval } is) :
    Limited env (init localId firstTid ownAddr limit interval now deferRandomPunch) is := by
  have hagrees : Agrees (init localId firstTid ownAddr limit interval now deferRandomPunch)
      { randomPunchLimit := limit, randomPunchInterval := interval } :=
    ⟨rfl, rfl, rfl, Nat.zero_le _, hnow⟩
  exact hagrees.limited hlimit hasks

/-! ## Two sessions that punch at once -/

/-- The message of a client that punches and has a random firewall. -/
def punchMessage (id : UInt32) : List UInt8 := encodeHolepunchMsg {
  mode := modeFromRelay
  id := id
  payload := plainSecure.encrypt (encodeHolepunchPayload {
    firewall := firewallRandom
    punching := true
    addresses := [forwardedClient] })
  peerAddress := some forwardedClient }

def oneSessionRun : List Input := [
  .listen NodeId.zero,
  .server 0 (.openSession 7 (some plainSecure)),
  .request nodeAddr none (forwarded (punchMessage 7) (by decide +kernel)) 0]

def twoSessionsRun : List Input := oneSessionRun ++ [
  .server 0 (.openSession 8 (some plainSecure)),
  .request nodeAddr none (forwarded (punchMessage 8) (by decide +kernel)) 0]

/-- One session alone may punch. -/
theorem limited_oneSessionRun :
    running (run (step samplingEnv) freshNode oneSessionRun) = 1 ∧
      Limited samplingEnv freshNode oneSessionRun := by
  refine ⟨by decide +kernel, ?_⟩
  exact limited_of_asks samplingEnv NodeId.zero 0 none 1 20000 1 false oneSessionRun (by decide) (by decide)
    ⟨fun _ => by decide +kernel, fun _ => by decide +kernel, fun _ => by decide +kernel, trivial⟩

/-- **Two sessions that punch at once**, although only one random punch is allowed. -/
theorem not_limited_twoSessionsRun : ¬ Limited samplingEnv freshNode twoSessionsRun := by
  have hrunning : running (run (step samplingEnv) freshNode twoSessionsRun) = 2 ∧
      (run (step samplingEnv) freshNode twoSessionsRun).stats.randomPunchLimit = 1 := by
    decide +kernel
  intro h
  have hfew := h.1.run
  rw [hrunning.1, hrunning.2] at hfew
  exact absurd hfew (by decide)

end PunchNode

end HyperDHT
