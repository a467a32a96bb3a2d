import HyperDHT.Holepunch.Basic

/-!
# The phases of a holepunch

A holepunch is in its first round, waits for its own firewall to be known, makes a pause or is in its second
round. What each input leads to follows from the phase it comes in.

## Main definitions

* `Holepunch.Phase`, `Going`, `Inv` — how far a holepunch is, and its invariant.
* `Holepunch.Awake` — the response to a round, the end of a pause or a tick of the puncher is awaited.
* `Holepunch.Strands` — the second round ends without an error for a puncher that has begun nothing.

## Main results

* `Holepunch.punch_of_client` — what the punch of a client begins.
* `Holepunch.Going.round_over` — where a holepunch is when a round is over.
* `Holepunch.leads_of_going`, `Holepunch.inv_step` — what each input leads to.
-/

set_option autoImplicit false

namespace HyperDHT.Holepunch

open Compact

variable {env : Env} {s : PunchState} {now : ℕ}

/-! ## The puncher of a client -/

/-- A puncher of a client that lives: it has no sockets of a pool and no counters. -/
structure Client (p : Holepuncher) : Prop where
  lives : p.Lives
  isInitiator : p.isInitiator = true
  hasPool : p.hasPool = false
  stats : p.stats = none
  holders : p.holders = []
  onConnect : p.onConnect = true
  onAbort : p.onAbort = true

/-- The puncher has begun nothing. -/
def Quiet (p : Holepuncher) : Prop := p.punching = false ∧ p.timer = none

/-- The changes that leave a puncher what it is: of its firewalls, addresses, probes and reopens. -/
structure Told (p q : Holepuncher) : Prop where
  eq : q = { p with
    localFirewall := q.localFirewall
    remoteFirewall := q.remoteFirewall
    remoteAddresses := q.remoteAddresses
    reopenCount := q.reopenCount
    probes := q.probes }

variable {p q : Holepuncher}

lemma Told.client (h : Told p q) (hp : Client p) : Client q := by
  rw [h.eq]
  exact ⟨⟨hp.lives.connected, hp.lives.destroyed⟩, hp.isInitiator, hp.hasPool, hp.stats, hp.holders,
    hp.onConnect, hp.onAbort⟩

lemma Told.quiet (h : Told p q) (hp : Quiet p) : Quiet q := by
  rw [h.eq]
  exact hp

lemma Told.trans {r : Holepuncher} (h : Told p q) (h' : Told q r) : Told p r := by
  refine ⟨?_⟩
  rw [h'.eq, h.eq]

lemma told_sendProbe (p : Holepuncher) (addr : Ipv4Address) : Told p (p.sendProbe addr) := by
  refine ⟨?_⟩
  rw [Holepuncher.sendProbe_eq]

lemma told_openSession (p : Holepuncher) (addr : Ipv4Address) : Told p (p.openSession addr) := by
  refine ⟨?_⟩
  rw [Holepuncher.openSession, Holepuncher.sendTtl_eq]

lemma told_analyze (p : Holepuncher) (allowReopen : Bool) : Told p (p.analyze allowReopen).1 := by
  unfold Holepuncher.analyze
  split_ifs <;> exact ⟨rfl⟩

lemma client_of_goesOn (h : Holepuncher.GoesOn p q) (hp : Client p) : Client q := by
  rw [h.eq]
  exact ⟨⟨hp.lives.connected, hp.lives.destroyed⟩, hp.isInitiator, hp.hasPool, hp.stats, hp.holders,
    hp.onConnect, hp.onAbort⟩

lemma onMessage_of_client (h : Client p) (source : Ipv4Address) (socket : Option ℕ) :
    ∃ result, (p.onMessage now source socket none).2 = some result := by
  simp [Holepuncher.onMessage, h.lives.connected, h.lives.destroyed, h.isInitiator,
    Holepuncher.decrementRandomized]
  split <;> simp [h.onConnect]

/-- **What a punch of a client begins**: the timer of the puncher runs, unless the own firewall is
random, in which case nothing is begun. -/
theorem punch_of_client (h : Client p) (hquiet : Quiet p) (tick : Tick) :
    Client (p.punch tick).1 ∧ (p.punch tick).1.localFirewall = p.localFirewall ∧
      (p.localFirewall ≠ firewallRandom →
        (p.punch tick).1.punching = true ∧ (p.punch tick).1.timer ≠ none) ∧
      (p.localFirewall = firewallRandom → Quiet (p.punch tick).1) := by
  by_cases hlocal : p.localFirewall = firewallRandom
  · rw [Holepuncher.punch_of_birthday h.lives hlocal h.hasPool]
    exact ⟨h, rfl, fun hne => absurd hlocal hne, fun _ => hquiet⟩
  · by_cases hremote : p.remoteFirewall = firewallRandom
    · have hfree : p.throttled tick.now = false := by simp [Holepuncher.throttled, h.stats]
      obtain ⟨hgoes, -⟩ := Holepuncher.punch_of_random h.lives hlocal hremote hfree
      set begun : Holepuncher := { p.countRandom.incrementRandomized with
        punching := true, randomProbesLeft := randomProbesCount } with hbegun
      have hkept : Client begun ∧ begun.localFirewall = p.localFirewall := by
        rw [hbegun]
        unfold Holepuncher.incrementRandomized Holepuncher.countRandom
        split <;> exact ⟨⟨⟨h.lives.connected, h.lives.destroyed⟩, h.isInitiator, h.hasPool,
          by simp [h.stats], h.holders, h.onConnect, h.onAbort⟩, rfl⟩
      exact ⟨client_of_goesOn hgoes hkept.1, hgoes.localFirewall.trans hkept.2,
        fun _ => ⟨hgoes.punching, hgoes.timer⟩, fun heq => absurd heq hlocal⟩
    · obtain ⟨hgoes, -⟩ := @Holepuncher.punch_of_consistent _ tick h.lives hlocal hremote
      have hkept : Client { p.countConsistent with punching := true, punchRound := 0 } :=
        ⟨⟨h.lives.connected, h.lives.destroyed⟩, h.isInitiator, h.hasPool,
          by simp [Holepuncher.countConsistent, h.stats], h.holders, h.onConnect, h.onAbort⟩
      exact ⟨client_of_goesOn hgoes hkept, hgoes.localFirewall, fun _ => ⟨hgoes.punching, hgoes.timer⟩,
        fun heq => absurd heq hlocal⟩

/-! ## The phases of a holepunch -/

/-- The rounds whose responses are awaited. -/
def rounds (s : PunchState) : List PoolCall := (s.requests.map (·.call)).filter (· ≠ .ping)

/-- How far a holepunch is that is not over. -/
inductive Phase (s : PunchState) : Prop
  /-- The response to the first round is awaited. -/
  | round1 (hrounds : rounds s = [.round1]) (hsleeper : s.sleeper = none)
      (hwait : s.waitSampler = none) (hquiet : Quiet s.puncher)
  /-- It has come, but the own firewall is not known. -/
  | waiting (hrounds : rounds s = []) (hsleeper : s.sleeper = none) (hwait : s.waitSampler ≠ none)
      (hquiet : Quiet s.puncher)
  /-- The first round is repeated, or the second one sent, after a pause. -/
  | paused (hrounds : rounds s = []) (hsleeper : s.sleeper ≠ none) (hwait : s.waitSampler = none)
      (hquiet : Quiet s.puncher)
  /-- The second round was sent, and the puncher was told to punch. -/
  | round2 (hrounds : rounds s = [] ∨ rounds s = [.round2]) (hsleeper : s.sleeper = none)
      (hwait : s.waitSampler = none)
      (hpuncher : s.puncher.localFirewall ≠ firewallRandom ∧ s.puncher.punching = true ∧
          s.puncher.timer ≠ none ∨
        s.puncher.localFirewall = firewallRandom ∧ Quiet s.puncher)

/-- A holepunch that is not over. -/
structure Going (s : PunchState) : Prop where
  client : Client s.puncher
  pool : s.poolClosed = false
  listening : s.listening = true
  done : s.done = []
  phase : Phase s

/-- The invariant of a holepunch: its callback was called if it is over. -/
structure Inv (s : PunchState) : Prop where
  finished : s.completed = true → s.done.length = 1
  going : s.completed = false → Going s

/-- A holepunch between two phases. -/
structure Between (s : PunchState) : Prop where
  client : Client s.puncher
  pool : s.poolClosed = false
  listening : s.listening = true
  done : s.done = []
  rounds : rounds s = []
  sleeper : s.sleeper = none
  wait : s.waitSampler = none
  quiet : Quiet s.puncher

/-- A holepunch after its second round. -/
structure Last (s : PunchState) : Prop where
  client : Client s.puncher
  pool : s.poolClosed = false
  listening : s.listening = true
  done : s.done = []
  rounds : rounds s = []
  sleeper : s.sleeper = none
  wait : s.waitSampler = none
  puncher : s.puncher.localFirewall ≠ firewallRandom ∧ s.puncher.punching = true ∧
      s.puncher.timer ≠ none ∨
    s.puncher.localFirewall = firewallRandom ∧ Quiet s.puncher

lemma Last.going (h : Last s) : Going s :=
  ⟨h.client, h.pool, h.listening, h.done, .round2 (.inl h.rounds) h.sleeper h.wait h.puncher⟩

/-- Two states that are equally far. -/
structure Alike (s t : PunchState) : Prop where
  client : Client s.puncher → Client t.puncher
  localFirewall : t.puncher.localFirewall = s.puncher.localFirewall
  punching : t.puncher.punching = s.puncher.punching
  timer : t.puncher.timer = s.puncher.timer
  pool : t.poolClosed = s.poolClosed
  listening : t.listening = s.listening
  done : t.done = s.done
  rounds : rounds t = rounds s
  sleeper : t.sleeper = s.sleeper
  wait : t.waitSampler = s.waitSampler

lemma Alike.quiet {t : PunchState} (h : Alike s t) (hquiet : Quiet s.puncher) : Quiet t.puncher :=
  ⟨h.punching.trans hquiet.1, h.timer.trans hquiet.2⟩

lemma Alike.going {t : PunchState} (h : Alike s t) (hgoing : Going s) : Going t := by
  refine ⟨h.client hgoing.client, h.pool.trans hgoing.pool, h.listening.trans hgoing.listening,
    h.done.trans hgoing.done, ?_⟩
  cases hgoing.phase with
  | round1 hrounds hsleeper hwait hquiet =>
    exact .round1 (h.rounds.trans hrounds) (h.sleeper.trans hsleeper) (h.wait.trans hwait)
      (h.quiet hquiet)
  | waiting hrounds hsleeper hwait hquiet =>
    exact .waiting (h.rounds.trans hrounds) (h.sleeper.trans hsleeper) (h.wait ▸ hwait)
      (h.quiet hquiet)
  | paused hrounds hsleeper hwait hquiet =>
    exact .paused (h.rounds.trans hrounds) (h.sleeper ▸ hsleeper) (h.wait.trans hwait)
      (h.quiet hquiet)
  | round2 hrounds hsleeper hwait hpuncher =>
    refine .round2 (h.rounds ▸ hrounds) (h.sleeper.trans hsleeper) (h.wait.trans hwait) ?_
    rw [h.localFirewall, h.punching, h.timer]
    exact hpuncher.imp_right fun ⟨hrandom, hquiet⟩ => ⟨hrandom, h.quiet hquiet⟩

lemma Alike.trans {t u : PunchState} (h : Alike s t) (h' : Alike t u) : Alike s u :=
  ⟨h'.client ∘ h.client, h'.localFirewall.trans h.localFirewall, h'.punching.trans h.punching,
    h'.timer.trans h.timer, h'.pool.trans h.pool, h'.listening.trans h.listening,
    h'.done.trans h.done, h'.rounds.trans h.rounds, h'.sleeper.trans h.sleeper, h'.wait.trans h.wait⟩

lemma Alike.refl (s : PunchState) : Alike s s := ⟨id, rfl, rfl, rfl, rfl, rfl, rfl, rfl, rfl, rfl⟩

/-- Something is awaited: the response to a round, the end of a pause or of the wait for our firewall, or
a tick of the puncher. -/
def Awake (s : PunchState) : Prop :=
  rounds s ≠ [] ∨ s.sleeper ≠ none ∨ s.waitSampler ≠ none ∨ s.puncher.timer ≠ none

lemma Alike.awake {t : PunchState} (h : Alike s t) (hawake : Awake s) : Awake t := by
  unfold Awake
  rw [h.rounds, h.sleeper, h.wait, h.timer]
  exact hawake

lemma awake_of_rounds {call : PoolCall} (h : rounds s = [call]) : Awake s :=
  .inl (h ▸ List.cons_ne_nil _ _)

/-- **After the second round** nothing is awaited exactly if our own firewall is random. -/
theorem Last.awake_iff (h : Last s) : Awake s ↔ s.puncher.localFirewall ≠ firewallRandom := by
  unfold Awake
  rw [h.rounds, h.sleeper, h.wait]
  constructor
  · rintro (hne | hne | hne | htimer)
    · exact absurd rfl hne
    · exact absurd rfl hne
    · exact absurd rfl hne
    · exact h.puncher.elim And.left fun ⟨_, hquiet⟩ => absurd hquiet.2 htimer
  · intro hlocal
    exact .inr (.inr (.inr (h.puncher.resolve_right fun ⟨hrandom, _⟩ => hlocal hrandom).2.2))

/-- The holepunch is over, or something is awaited. -/
structure Alive (s : PunchState) : Prop where
  inv : Inv s
  awake : s.completed = false → Awake s

/-! ### Requests -/

lemma rounds_append (s : PunchState) (requests : List PoolRequest) (req : PoolRequest)
    (h : s.requests = requests ++ [req]) (hcall : req.call ≠ .ping) :
    rounds s = (requests.map (·.call)).filter (· ≠ .ping) ++ [req.call] := by
  simp [rounds, h, hcall]

lemma rounds_eraseIdx_ping {requests : List PoolRequest} {k : ℕ} {req : PoolRequest}
    (hk : requests[k]? = some req) (hcall : req.call = .ping) :
    ((requests.eraseIdx k).map (·.call)).filter (· ≠ .ping) =
      (requests.map (·.call)).filter (· ≠ .ping) := by
  obtain ⟨hlt, hget⟩ := List.getElem?_eq_some_iff.1 hk
  have hsplit : requests = requests.take k ++ req :: requests.drop (k + 1) := by
    rw [← hget, List.getElem_cons_drop, List.take_append_drop]
  rw [List.eraseIdx_eq_take_drop_succ]
  nth_rewrite 3 [hsplit]
  simp [hcall]

lemma rounds_eraseIdx_round {requests : List PoolRequest} {k : ℕ} {req : PoolRequest}
    {call : PoolCall} (hk : requests[k]? = some req) (hcall : req.call ≠ .ping)
    (hrounds : (requests.map (·.call)).filter (· ≠ .ping) = [call]) :
    req.call = call ∧ ((requests.eraseIdx k).map (·.call)).filter (· ≠ .ping) = [] := by
  obtain ⟨hlt, hget⟩ := List.getElem?_eq_some_iff.1 hk
  have hsplit : requests = requests.take k ++ req :: requests.drop (k + 1) := by
    rw [← hget, List.getElem_cons_drop, List.take_append_drop]
  rw [hsplit, List.map_append, List.map_cons, List.filter_append,
    List.filter_cons_of_pos (by simpa using hcall)] at hrounds
  obtain ⟨hbefore, hrest⟩ | ⟨-, hrest⟩ := List.append_eq_singleton_iff.1 hrounds
  · obtain ⟨hhead, htail⟩ := List.cons_eq_cons.1 hrest
    refine ⟨hhead, ?_⟩
    rw [List.eraseIdx_eq_take_drop_succ, List.map_append, List.filter_append, hbefore, htail]
    rfl
  · exact absurd hrest (List.cons_ne_nil _ _)

lemma rounds_set {requests : List PoolRequest} {k : ℕ} {req : PoolRequest} {attemptsLeft : ℕ}
    (hk : requests[k]? = some req) :
    (requests.set k { req with attemptsLeft := attemptsLeft }).map (·.call) =
      requests.map (·.call) := by
  refine List.ext_getElem? fun n => ?_
  rw [List.getElem?_map, List.getElem?_map, List.getElem?_set]
  split_ifs with hn hlt
  · subst hn
    rw [hk]
    rfl
  · subst hn
    rw [List.getElem?_eq_none (not_lt.1 hlt)]
  · rfl

/-- **The end of a round**: the response to the first one leaves the holepunch between two phases, and
the second one leaves it in its last phase. -/
theorem Going.round_over (h : Going s) {k : ℕ} {req : PoolRequest} (hk : s.requests[k]? = some req)
    (hcall : req.call ≠ .ping) :
    req.call = .round1 ∧ Between { s with requests := s.requests.eraseIdx k } ∨
      req.call = .round2 ∧ Last { s with requests := s.requests.eraseIdx k } := by
  have hsome : rounds s ≠ [] := by
    intro hnil
    refine List.filter_eq_nil_iff.1 hnil req.call ?_ (by simpa using hcall)
    exact List.mem_map_of_mem (List.mem_of_getElem? hk)
  cases h.phase with
  | round1 hrounds hsleeper hwait hquiet =>
    obtain ⟨hround, hnil⟩ := rounds_eraseIdx_round hk hcall hrounds
    exact .inl ⟨hround, h.client, h.pool, h.listening, h.done, hnil, hsleeper, hwait, hquiet⟩
  | waiting hrounds => exact absurd hrounds hsome
  | paused hrounds => exact absurd hrounds hsome
  | round2 hrounds hsleeper hwait hpuncher =>
    obtain ⟨hround, hnil⟩ := rounds_eraseIdx_round hk hcall (hrounds.resolve_left hsome)
    exact .inr ⟨hround, h.client, h.pool, h.listening, h.done, hnil, hsleeper, hwait, hpuncher⟩

/-! ### The end -/

lemma complete_of_going (hcompleted : s.completed = false) (result : PunchResult) :
    (s.complete now result).completed = true ∧ (s.complete now result).done = s.done ++ [result] := by
  unfold PunchState.complete
  rw [if_neg (by simp [hcompleted])]
  exact ⟨rfl, rfl⟩

lemma alive_complete (hcompleted : s.completed = false) (hdone : s.done = []) (result : PunchResult) :
    Alive (s.complete now result) := by
  obtain ⟨hover, hcalled⟩ := @complete_of_going s now hcompleted result
  exact ⟨⟨fun _ => by rw [hcalled, hdone]; rfl, fun hnot => by simp [hover] at hnot⟩,
    fun hnot => by simp [hover] at hnot⟩

lemma alive_fail (hcompleted : s.completed = false) (hdone : s.done = []) : Alive (s.fail now) :=
  alive_complete hcompleted hdone _

lemma Going.inv (h : Going s) (hcompleted : s.completed = false) : Inv s :=
  ⟨fun hover => by simp [hcompleted] at hover, fun _ => h⟩

lemma Going.alive (h : Going s) (hcompleted : s.completed = false) (hawake : Awake s) : Alive s :=
  ⟨h.inv hcompleted, fun _ => hawake⟩

/-! ### The rounds -/

lemma rounds_request {t : PunchState} (h : Between s) {call : PoolCall} (dest : Ipv4Address)
    (hcall : call ≠ .ping) (ht : t.requests = s.requests) : rounds (t.request call dest) = [call] := by
  refine (rounds_append _ t.requests _ rfl hcall).trans ?_
  rw [ht, show (s.requests.map (·.call)).filter (· ≠ .ping) = [] from h.rounds]
  rfl

lemma Between.alive_runRound1 (h : Between s) (hcompleted : s.completed = false) :
    Alive (s.runRound1 env) := by
  unfold PunchState.runRound1
  rw [if_neg (by simp [hcompleted])]
  dsimp only
  have hrounds {t : PunchState} (ht : t.requests = s.requests) :=
    rounds_request h env.relayAddr (show PoolCall.round1 ≠ .ping by decide) ht
  refine Going.alive ⟨?_, h.pool, h.listening, h.done, ?_⟩ hcompleted (awake_of_rounds (hrounds rfl))
  · exact (Told.mk rfl).client h.client
  · exact .round1 (hrounds rfl) h.sleeper h.wait ((Told.mk rfl).quiet h.quiet)

lemma Between.alive_sendRound2 (h : Between s) (hcompleted : s.completed = false) (r : Round1)
    (tick : Tick) : Alive (s.sendRound2 env r tick) := by
  have htold := told_openSession s.puncher r.first
  obtain ⟨hclient, hlocal, hbegun, hidle⟩ :=
    punch_of_client (htold.client h.client) (htold.quiet h.quiet) tick
  have hrounds {t : PunchState} (ht : t.requests = s.requests) :=
    rounds_request h env.relayAddr (show PoolCall.round2 ≠ .ping by decide) ht
  unfold PunchState.sendRound2
  rw [if_neg (by simp [hcompleted])]
  dsimp only
  refine Going.alive ⟨hclient, h.pool, h.listening, h.done, ?_⟩ hcompleted
    (awake_of_rounds (hrounds rfl))
  · refine .round2 (.inr (hrounds rfl)) h.sleeper h.wait ?_
    by_cases hrandom : (s.puncher.openSession r.first).localFirewall = firewallRandom
    · exact .inr ⟨hlocal.trans hrandom, hidle hrandom⟩
    · exact .inl ⟨fun heq => hrandom (hlocal.symm.trans heq), hbegun hrandom⟩

lemma proceed_cases (hcompleted : s.completed = false) (r : Round1) :
    ∃ p, Told s.puncher p ∧ (s.proceed r now = { s with puncher := p }.fail now ∨
      ∃ retried sleep, s.proceed r now =
        { s with puncher := p, retriedRound1 := retried, sleeper := some sleep }) := by
  have hinformed : Told s.puncher (s.informed r) := ⟨rfl⟩
  set analyzed := (if ((s.informed r).analyze false).2 then (s.informed r).analyze false
    else ((s.informed r).analyze false).1.analyze true) with hanalyzed
  have htold : Told s.puncher analyzed.1 := by
    have hfirst := hinformed.trans (told_analyze (s.informed r) false)
    rw [hanalyzed]
    split
    · exact hfirst
    · exact hfirst.trans (told_analyze _ true)
  unfold PunchState.proceed
  rw [if_neg (by simp [hcompleted])]
  dsimp only
  rw [← hanalyzed]
  split
  · exact ⟨_, ⟨rfl⟩, .inl rfl⟩
  · split
    · exact ⟨_, htold, .inl rfl⟩
    · split
      · exact ⟨_, htold, .inr ⟨_, _, rfl⟩⟩
      · split
        · exact ⟨_, htold.trans (told_sendProbe _ _), .inr ⟨_, _, rfl⟩⟩
        · exact ⟨_, htold, .inr ⟨_, _, rfl⟩⟩

lemma Between.alive_proceed (h : Between s) (hcompleted : s.completed = false) (r : Round1) :
    Alive (s.proceed r now) := by
  obtain ⟨p, htold, heq | ⟨retried, sleep, heq⟩⟩ := @proceed_cases s now hcompleted r
  · rw [heq]
    exact alive_fail (s := { s with puncher := p }) hcompleted h.done
  · rw [heq]
    refine Going.alive ⟨htold.client h.client, h.pool, h.listening, h.done, ?_⟩ hcompleted
      (.inr (.inl (by simp)))
    exact .paused h.rounds (by simp) h.wait (htold.quiet h.quiet)

lemma Between.alive_onRound1 (h : Between s) (hcompleted : s.completed = false)
    (value : Option (List UInt8)) (toAddr : Ipv4Address) :
    Alive (s.onRound1 env value toAddr now) := by
  have hend := fun result => @alive_complete s now hcompleted h.done result
  unfold PunchState.onRound1
  rw [if_neg (by simp [hcompleted])]
  dsimp only
  split
  · exact hend _
  · split
    · exact hend _
    · split
      · exact hend _
      · split
        · exact hend _
        · split
          · exact hend _
          · split
            · exact h.alive_proceed hcompleted _
            · exact Going.alive ⟨h.client, h.pool, h.listening, h.done,
                .waiting h.rounds h.sleeper (by simp) h.quiet⟩ hcompleted (.inr (.inr (.inl (by simp))))

/-- The response says that the peer met an error. -/
def refused (env : Env) (value : Option (List UInt8)) : Bool :=
  !(value.getD []).isEmpty && !(decodeHolepunchMsg (value.getD [])).payload.isEmpty &&
    (env.secure.decrypt (decodeHolepunchMsg (value.getD [])).payload).any fun decrypted =>
      (decodeHolepunchPayload decrypted).error != errorNone

lemma onRound2_cases (hcompleted : s.completed = false) (value : Option (List UInt8)) :
    refused env value = true ∧ s.onRound2 env value now = s.fail now ∨
      refused env value = false ∧ ∃ addrs, s.onRound2 env value now =
        { s with puncher := { s.puncher with remoteAddresses := addrs } } := by
  unfold PunchState.onRound2 refused
  rw [if_neg (by simp [hcompleted])]
  dsimp only
  split
  next hempty =>
    refine .inr ⟨?_, s.puncher.remoteAddresses, rfl⟩
    rw [← Bool.not_or, hempty]
    rfl
  next hfull =>
    rw [← Bool.not_or, Bool.eq_false_iff.2 hfull]
    split
    next hnone => exact .inr ⟨by simp [hnone], s.puncher.remoteAddresses, rfl⟩
    next decrypted hsome =>
      rw [hsome]
      split
      next herror => exact .inl ⟨by simpa using herror, rfl⟩
      next hgood =>
        have hnot : (!false && (some decrypted).any fun decrypted =>
            (decodeHolepunchPayload decrypted).error != errorNone) = false := by
          simpa using hgood
        split
        · exact .inr ⟨hnot, s.puncher.remoteAddresses, rfl⟩
        · exact .inr ⟨hnot, _, rfl⟩

/-! ## What each input leads to -/

/-- The second round ends without an error, and the puncher has begun nothing since our own firewall is
random. -/
def Strands (env : Env) (s : PunchState) : Input → Prop
  | .response k _ _ value _ => s.completed = false ∧ s.puncher.localFirewall = firewallRandom ∧
      (∃ req, s.requests[k]? = some req ∧ req.call = .round2) ∧ refused env value = false
  | .timeout k _ => s.completed = false ∧ s.puncher.localFirewall = firewallRandom ∧
      ∃ req, s.requests[k]? = some req ∧ req.call = .round2 ∧ req.attemptsLeft = 0
  | _ => False

/-- What an input leads to: unless it strands the holepunch, something is awaited afterwards. -/
structure Leads (env : Env) (s : PunchState) (i : Input) : Prop where
  inv : Inv (step env s i)
  awake : Awake s → ¬ Strands env s i → (step env s i).completed = false → Awake (step env s i)
  strands : Strands env s i → (step env s i).completed = false ∧ ¬ Awake (step env s i)

lemma leads_of_alive {i : Input} {t : PunchState} (heq : step env s i = t) (h : Alive t)
    (hnot : ¬ Strands env s i) : Leads env s i :=
  ⟨heq ▸ h.inv, fun _ _ => heq ▸ h.awake, fun hstrands => absurd hstrands hnot⟩

lemma leads_of_alike {i : Input} {t : PunchState} (heq : step env s i = t) (h : Going s)
    (hcompleted : t.completed = false) (halike : Alike s t) (hnot : ¬ Strands env s i) :
    Leads env s i :=
  ⟨heq ▸ (halike.going h).inv hcompleted, fun hawake _ _ => heq ▸ halike.awake hawake,
    fun hstrands => absurd hstrands hnot⟩

lemma leads_of_last {i : Input} {t : PunchState} (heq : step env s i = t) (h : Last t)
    (hcompleted : t.completed = false)
    (hstrands : Strands env s i ↔ t.puncher.localFirewall = firewallRandom) : Leads env s i := by
  subst heq
  exact ⟨h.going.inv hcompleted, fun _ hnot _ => h.awake_iff.2 fun hlocal => hnot (hstrands.2 hlocal),
    fun hstrand => ⟨hcompleted, fun hawake => h.awake_iff.1 hawake (hstrands.1 hstrand)⟩⟩

lemma alike_sampler (s : PunchState) (sampler : NatSampler.State) :
    Alike s { s with sampler := sampler } :=
  ⟨id, rfl, rfl, rfl, rfl, rfl, rfl, rfl, rfl, rfl⟩

lemma alike_set {k : ℕ} {req : PoolRequest} (hk : s.requests[k]? = some req) (attemptsLeft : ℕ) :
    Alike s { s with requests := s.requests.set k { req with attemptsLeft := attemptsLeft } } :=
  ⟨id, rfl, rfl, rfl, rfl, rfl, rfl, by simp only [rounds, rounds_set hk], rfl, rfl⟩

lemma alike_finishPing {k : ℕ} {req : PoolRequest} (hk : s.requests[k]? = some req)
    (hcall : req.call = .ping) :
    Alike s { s with requests := s.requests.eraseIdx k }.finishPing ∧
      { s with requests := s.requests.eraseIdx k }.finishPing.completed = s.completed := by
  unfold PunchState.finishPing
  split <;>
    exact ⟨⟨id, rfl, rfl, rfl, rfl, rfl, rfl, rounds_eraseIdx_ping hk hcall, rfl, rfl⟩, rfl⟩

lemma leads_response (h : Going s) (hcompleted : s.completed = false) (k : ℕ)
    (toAddr source : Ipv4Address) (value : Option (List UInt8)) :
    Leads env s (.response k toAddr source value now) := by
  have hsampled := alike_sampler s (s.sampler.add toAddr source).1
  have hgoing := hsampled.going h
  set t : PunchState := { s with sampler := (s.sampler.add toAddr source).1 } with ht
  have hcalled {req : PoolRequest} (hk : s.requests[k]? = some req) (hcall : req.call ≠ .round2) :
      ¬ Strands env s (.response k toAddr source value now) := by
    rintro ⟨-, -, ⟨req', hk', hround⟩, -⟩
    rw [hk] at hk'
    exact hcall ((Option.some.inj hk').symm ▸ hround)
  cases hk : s.requests[k]? with
  | none =>
    have heq : step env s (.response k toAddr source value now) = t := by
      simp [step, PunchState.onResponse, h.pool, hk, ht]
    refine leads_of_alike heq h hcompleted hsampled ?_
    rintro ⟨-, -, ⟨req, hsome, -⟩, -⟩
    simp [hk] at hsome
  | some req =>
    cases hcall : req.call with
    | ping =>
      have heq : step env s (.response k toAddr source value now) =
          { t with requests := t.requests.eraseIdx k }.finishPing := by
        simp [step, PunchState.onResponse, h.pool, hk, hcall, ht]
      obtain ⟨halike, hsame⟩ := @alike_finishPing t k req hk hcall
      exact leads_of_alike heq h (hsame.trans hcompleted) (hsampled.trans halike)
        (hcalled hk (by simp [hcall]))
    | round1 =>
      have heq : step env s (.response k toAddr source value now) =
          { t with requests := t.requests.eraseIdx k }.onRound1 env value toAddr now := by
        simp [step, PunchState.onResponse, h.pool, hk, hcall, ht]
      obtain ⟨-, hbetween⟩ | ⟨hround, -⟩ := @Going.round_over t hgoing k req hk (by simp [hcall])
      · exact leads_of_alive heq (hbetween.alive_onRound1 hcompleted value toAddr)
          (hcalled hk (by simp [hcall]))
      · simp [hcall] at hround
    | round2 =>
      have heq : step env s (.response k toAddr source value now) =
          { t with requests := t.requests.eraseIdx k }.onRound2 env value now := by
        simp [step, PunchState.onResponse, h.pool, hk, hcall, ht]
      obtain ⟨hround, -⟩ | ⟨-, hlast⟩ := @Going.round_over t hgoing k req hk (by simp [hcall])
      · simp [hcall] at hround
      · set u : PunchState := { t with requests := t.requests.eraseIdx k } with hu
        obtain ⟨hrefused, hfail⟩ | ⟨hrefused, addrs, hsame⟩ := @onRound2_cases env u now hcompleted value
        · refine leads_of_alive (heq.trans hfail) (alive_fail hcompleted hlast.done) ?_
          rintro ⟨-, -, -, hnot⟩
          simp [hrefused] at hnot
        · refine leads_of_last (heq.trans hsame) ⟨(Told.mk rfl).client hlast.client, hlast.pool,
            hlast.listening, hlast.done, hlast.rounds, hlast.sleeper, hlast.wait, hlast.puncher⟩
            hcompleted ?_
          exact ⟨fun hstrands => hstrands.2.1, fun hlocal =>
            ⟨hcompleted, hlocal, ⟨req, hk, hcall⟩, hrefused⟩⟩

lemma leads_timeout (h : Going s) (hcompleted : s.completed = false) (k : ℕ) :
    Leads env s (.timeout k now) := by
  have hcalled {req : PoolRequest} (hk : s.requests[k]? = some req)
      (hcall : req.call ≠ .round2 ∨ req.attemptsLeft ≠ 0) : ¬ Strands env s (.timeout k now) := by
    rintro ⟨-, -, req', hk', hround, hleft⟩
    rw [hk] at hk'
    obtain rfl := Option.some.inj hk'
    exact hcall.elim (· hround) (· hleft)
  cases hk : s.requests[k]? with
  | none =>
    have heq : step env s (.timeout k now) = s := by
      simp [step, PunchState.onTimeout, h.pool, hk]
    refine leads_of_alike heq h hcompleted (.refl s) ?_
    rintro ⟨-, -, req, hsome, -⟩
    simp [hk] at hsome
  | some req =>
    by_cases hleft : req.attemptsLeft > 0
    · have heq : step env s (.timeout k now) = { s with
          requests := s.requests.set k { req with attemptsLeft := req.attemptsLeft - 1 } } := by
        simp [step, PunchState.onTimeout, h.pool, hk, hleft]
      exact leads_of_alike heq h hcompleted (alike_set hk _) (hcalled hk (.inr hleft.ne'))
    · have hgone : req.attemptsLeft = 0 := Nat.eq_zero_of_not_pos hleft
      cases hcall : req.call with
      | ping =>
        have heq : step env s (.timeout k now) =
            { s with requests := s.requests.eraseIdx k }.finishPing := by
          simp [step, PunchState.onTimeout, h.pool, hk, hgone, hcall]
        obtain ⟨halike, hsame⟩ := alike_finishPing hk hcall
        exact leads_of_alike heq h (hsame.trans hcompleted) halike (hcalled hk (by simp [hcall]))
      | round1 =>
        have heq : step env s (.timeout k now) =
            { s with requests := s.requests.eraseIdx k }.fail now := by
          simp [step, PunchState.onTimeout, h.pool, hk, hgone, hcall]
        exact leads_of_alive heq (@alive_fail { s with requests := s.requests.eraseIdx k } now
          hcompleted h.done) (hcalled hk (by simp [hcall]))
      | round2 =>
        have heq : step env s (.timeout k now) = { s with requests := s.requests.eraseIdx k } := by
          simp [step, PunchState.onTimeout, h.pool, hk, hgone, hcall]
        obtain ⟨hround, -⟩ | ⟨-, hlast⟩ := h.round_over hk (by simp [hcall])
        · simp [hcall] at hround
        · exact leads_of_last heq hlast hcompleted ⟨fun hstrands => hstrands.2.1,
            fun hlocal => ⟨hcompleted, hlocal, req, hk, hcall, hgone⟩⟩

lemma leads_probe (h : Going s) (hcompleted : s.completed = false) (source : Ipv4Address) :
    Leads env s (.probe source now) := by
  obtain ⟨result, hheard⟩ := @onMessage_of_client now _ h.client source (some env.poolSocket)
  set p := (s.puncher.onMessage now source (some env.poolSocket) none).1 with hp
  have heq : step env s (.probe source now) = { s with puncher := p }.complete now result := by
    simp [step, PunchState.onProbe, h.pool, h.listening, hheard, hp]
  exact leads_of_alive heq (@alive_complete { s with puncher := p } now hcompleted h.done result) id

lemma leads_sleeper (h : Going s) (hcompleted : s.completed = false) (tick : Tick) :
    Leads env s (.sleeper tick) := by
  cases hsleep : s.sleeper with
  | none =>
    have heq : step env s (.sleeper tick) = s := by simp [step, PunchState.onSleeper, hsleep]
    exact leads_of_alike heq h hcompleted (.refl s) id
  | some sleep =>
    have hbetween : Between { s with sleeper := none } := by
      cases h.phase with
      | paused hrounds _ hwait hquiet =>
        exact ⟨h.client, h.pool, h.listening, h.done, hrounds, rfl, hwait, hquiet⟩
      | round1 _ hsleeper => simp [hsleep] at hsleeper
      | waiting _ hsleeper => simp [hsleep] at hsleeper
      | round2 _ hsleeper => simp [hsleep] at hsleeper
    cases sleep with
    | retry =>
      have heq : step env s (.sleeper tick) = { s with sleeper := none }.runRound1 env := by
        simp [step, PunchState.onSleeper, hsleep]
      exact leads_of_alive heq (hbetween.alive_runRound1 hcompleted) id
    | round2 r =>
      have heq : step env s (.sleeper tick) = { s with sleeper := none }.sendRound2 env r tick := by
        simp [step, PunchState.onSleeper, hsleep]
      exact leads_of_alive heq (hbetween.alive_sendRound2 hcompleted r tick) id

lemma leads_waitSampler (h : Going s) (hcompleted : s.completed = false) :
    Leads env s (.waitSampler now) := by
  cases hwaits : s.waitSampler with
  | none =>
    have heq : step env s (.waitSampler now) = s := by simp [step, PunchState.onWaitSampler, hwaits]
    exact leads_of_alike heq h hcompleted (.refl s) id
  | some wait =>
    obtain ⟨r, since⟩ := wait
    have hbetween : Between { s with waitSampler := none } := by
      cases h.phase with
      | waiting hrounds hsleeper _ hquiet =>
        exact ⟨h.client, h.pool, h.listening, h.done, hrounds, hsleeper, rfl, hquiet⟩
      | round1 _ _ hwait => simp [hwaits] at hwait
      | paused _ _ hwait => simp [hwaits] at hwait
      | round2 _ _ hwait => simp [hwaits] at hwait
    by_cases henough : (s.sampledEnough || decide (now - since ≥ 2000)) = true
    · have heq : step env s (.waitSampler now) = { s with waitSampler := none }.proceed r now := by
        simp only [step, PunchState.onWaitSampler, hwaits, hcompleted, Bool.false_eq_true, if_false]
        rw [if_pos henough]
      exact leads_of_alive heq (hbetween.alive_proceed hcompleted r) id
    · have heq : step env s (.waitSampler now) = s := by
        simp only [step, PunchState.onWaitSampler, hwaits, hcompleted, Bool.false_eq_true, if_false]
        rw [if_neg henough]
      exact leads_of_alike heq h hcompleted (.refl s) id

lemma leads_punchTimer (h : Going s) (hcompleted : s.completed = false) (tick : Tick) :
    Leads env s (.punchTimer tick) := by
  cases htimer : s.puncher.timer with
  | none =>
    have heq : step env s (.punchTimer tick) = s := by simp [step, PunchState.onPunchTimer, htimer]
    exact leads_of_alike heq h hcompleted (.refl s) id
  | some delay =>
    cases h.phase with
    | round1 _ _ _ hquiet => simp [hquiet.2] at htimer
    | waiting _ _ _ hquiet => simp [hquiet.2] at htimer
    | paused _ _ _ hquiet => simp [hquiet.2] at htimer
    | round2 hrounds hsleeper hwait hpuncher =>
      obtain ⟨hlocal, hpunching, -⟩ | ⟨-, hquiet⟩ := hpuncher
      · obtain ⟨hgoes, hnot⟩ | hover :=
          @Holepuncher.onPunchTimer_cases _ tick h.client.lives hpunching h.client.holders
        · have heq : step env s (.punchTimer tick) =
              { s with puncher := (s.puncher.onPunchTimer tick).1 } := by
            simp [step, PunchState.onPunchTimer, htimer, hnot]
          refine leads_of_alive heq (Going.alive ⟨client_of_goesOn hgoes h.client, h.pool, h.listening,
            h.done, ?_⟩ hcompleted (.inr (.inr (.inr hgoes.timer)))) id
          exact .round2 hrounds hsleeper hwait (.inl ⟨hgoes.localFirewall ▸ hlocal,
            hgoes.punching.trans hpunching, hgoes.timer⟩)
        · have habort : (s.puncher.onPunchTimer tick).2 = true := by
            rw [hover]
            simp [Holepuncher.destroy, h.client.lives.destroyed, h.client.lives.connected,
              h.client.onAbort]
          have heq : step env s (.punchTimer tick) =
              { s with puncher := (s.puncher.onPunchTimer tick).1 }.fail tick.now := by
            simp [step, PunchState.onPunchTimer, htimer, habort]
          exact leads_of_alive heq (@alive_fail { s with puncher := (s.puncher.onPunchTimer tick).1 }
            tick.now hcompleted h.done) id
      · simp [hquiet.2] at htimer

lemma step_of_completed (hover : s.completed = true) (i : Input) :
    (step env s i).completed = true ∧ (step env s i).done = s.done := by
  have hping {t : PunchState} (ht : t.completed = true ∧ t.done = s.done) :
      t.finishPing.completed = true ∧ t.finishPing.done = s.done := by
    unfold PunchState.finishPing
    split <;> exact ht
  cases i with
  | response k toAddr source value now =>
    change (s.onResponse env k toAddr source value now).completed = true ∧
      (s.onResponse env k toAddr source value now).done = s.done
    unfold PunchState.onResponse PunchState.onRound1 PunchState.onRound2
    split
    · exact ⟨hover, rfl⟩
    · dsimp only
      split
      · exact ⟨hover, rfl⟩
      · split
        · exact hping ⟨hover, rfl⟩
        · rw [if_pos hover]
          exact ⟨hover, rfl⟩
        · rw [if_pos hover]
          exact ⟨hover, rfl⟩
  | timeout k now =>
    change (s.onTimeout k now).completed = true ∧ (s.onTimeout k now).done = s.done
    unfold PunchState.onTimeout PunchState.fail PunchState.complete
    split
    · exact ⟨hover, rfl⟩
    · split
      · exact ⟨hover, rfl⟩
      · split
        · exact ⟨hover, rfl⟩
        · dsimp only
          split
          · exact hping ⟨hover, rfl⟩
          · rw [if_pos hover]
            exact ⟨hover, rfl⟩
          · exact ⟨hover, rfl⟩
  | probe source now =>
    change (s.onProbe env source now).completed = true ∧ (s.onProbe env source now).done = s.done
    unfold PunchState.onProbe PunchState.complete
    split
    · exact ⟨hover, rfl⟩
    · dsimp only
      split
      · exact ⟨hover, rfl⟩
      · rw [if_pos hover]
        exact ⟨hover, rfl⟩
  | sleeper tick =>
    change (s.onSleeper env tick).completed = true ∧ (s.onSleeper env tick).done = s.done
    unfold PunchState.onSleeper PunchState.runRound1 PunchState.sendRound2
    split
    · exact ⟨hover, rfl⟩
    · dsimp only
      split
      · rw [if_pos hover]
        exact ⟨hover, rfl⟩
      · rw [if_pos hover]
        exact ⟨hover, rfl⟩
  | waitSampler now =>
    change (s.onWaitSampler now).completed = true ∧ (s.onWaitSampler now).done = s.done
    unfold PunchState.onWaitSampler
    split
    · exact ⟨hover, rfl⟩
    · rw [if_pos hover]
      exact ⟨hover, rfl⟩
  | punchTimer tick =>
    change (s.onPunchTimer tick).completed = true ∧ (s.onPunchTimer tick).done = s.done
    unfold PunchState.onPunchTimer PunchState.fail PunchState.complete
    split
    · exact ⟨hover, rfl⟩
    · dsimp only
      split_ifs <;> exact ⟨hover, rfl⟩

/-- **What each input leads to**, while the holepunch is not over. -/
theorem leads_of_going (h : Going s) (hcompleted : s.completed = false) (i : Input) :
    Leads env s i := by
  cases i with
  | response k toAddr source value now => exact leads_response h hcompleted k toAddr source value
  | timeout k now => exact leads_timeout h hcompleted k
  | probe source now => exact leads_probe h hcompleted source
  | sleeper tick => exact leads_sleeper h hcompleted tick
  | waitSampler now => exact leads_waitSampler h hcompleted
  | punchTimer tick => exact leads_punchTimer h hcompleted tick

/-- **The invariant is kept** by every step of a holepunch. -/
theorem inv_step (h : Inv s) (i : Input) : Inv (step env s i) := by
  cases hcompleted : s.completed with
  | true =>
    obtain ⟨hover, hdone⟩ := @step_of_completed env s hcompleted i
    exact ⟨fun _ => hdone ▸ h.finished hcompleted, fun hnot => by simp [hover] at hnot⟩
  | false =>
    exact (leads_of_going (h.going hcompleted) hcompleted i).inv

lemma rounds_discoverPoolAddresses (env : Env) (s : PunchState) :
    rounds (discoverPoolAddresses env s) = rounds s := by
  have hfold (targets : List Ipv4Address) (t : PunchState) :
      rounds (targets.foldl (fun t target => t.request .ping target) t) = rounds t := by
    induction targets generalizing t with
    | nil => rfl
    | cons target targets ih =>
      rw [List.foldl_cons, ih]
      simp [rounds, PunchState.request]
  exact hfold (poolTargets env) s

lemma discoverPoolAddresses_eq (env : Env) (s : PunchState) :
    discoverPoolAddresses env s = { s with
      requests := (discoverPoolAddresses env s).requests
      pendingPings := (discoverPoolAddresses env s).pendingPings } := by
  have hfold (targets : List Ipv4Address) (t : PunchState) :
      targets.foldl (fun t target => t.request .ping target) t =
        { t with requests := (targets.foldl (fun t target => t.request .ping target) t).requests } := by
    induction targets generalizing t with
    | nil => rfl
    | cons target targets ih =>
      rw [List.foldl_cons, ih]
      rfl
  unfold discoverPoolAddresses
  dsimp only
  rw [hfold]

lemma alive_start (env : Env) : Alive (start env) := by
  unfold start
  dsimp only
  set opened : Holepuncher := (if (env.fastOpen && env.peerAddr.port != 0) = true then
    { clientPuncher env.localFirewall with
      probes := [{ addr := env.peerAddr, ttl := some holepunchTtl }] }
    else clientPuncher env.localFirewall) with hopened
  have hclient : Client opened ∧ Quiet opened := by
    rw [hopened]
    split <;> exact ⟨⟨⟨rfl, rfl⟩, rfl, rfl, rfl, rfl, rfl, rfl⟩, rfl, rfl⟩
  have hrounds := rounds_discoverPoolAddresses env { puncher := opened }
  rw [discoverPoolAddresses_eq] at hrounds ⊢
  exact Between.alive_runRound1 ⟨hclient.1, rfl, rfl, rfl, hrounds, rfl, rfl, hclient.2⟩ rfl

end HyperDHT.Holepunch
