import HyperDHT.Connect.Winner

/-!
# A connect does not hang before a handshake succeeds

Until it is completed or a handshake has succeeded, a connect waits for its query or for the callback
of a handshake. It counts a handshake before it makes the request, and the socket of the node may
refuse a request, whose callback then never comes; such a handshake is counted for ever.

## Main definitions

* `Connect.Awaits` — the query runs, or the callback of a handshake is still to come.
* `Connect.Lives` — the callback was called at most once, the connect awaits something until a handshake
  has succeeded, and the handshakes through relays that are in flight are counted.
* `Connect.AllTaken` — no request for a handshake was refused.

## Main results

* `Connect.hope_step` — what every step keeps, as long as the handshake over the route was taken.
* `Connect.lives_iff_allTaken` — a connect lives in every state of exactly the runs in which no request
  for a handshake is refused.
-/

set_option autoImplicit false

namespace HyperDHT.Connect

open Compact Runs

variable {env : Env} {here : Surroundings} {s : ConnState}

/-! ## What a connect awaits -/

/-- Something will go on: the query, or a handshake that calls back. -/
def Awaits (s : ConnState) : Prop := s.finding = true ∨ s.handshakes ≠ []

/-- A connect lives: its callback was called at most once, it awaits something until a handshake has
succeeded, and it counts the handshakes through relays whose callbacks are still to come. -/
structure Lives (s : ConnState) : Prop where
  once : s.completions.length ≤ 1
  awaits : s.alive = true → s.completions = [] → s.hsResult.success = false → Awaits s
  counts : s.handshakesInFlight = s.handshakes.countP fun h => !h.viaRoute

/-- The handshake over a route is counted too. -/
def CountsAll (s : ConnState) : Prop := s.handshakesInFlight = s.handshakes.length

/-- No request for a handshake was refused. -/
def AllTaken (env : Env) (s : ConnState) : Prop := ∀ n < s.requests, env.accepts n = true

/-- Until a handshake has succeeded the query runs, or the route is tried, or, when the query is done,
handshakes are counted. -/
def Hope (s : ConnState) : Prop :=
  s.alive = true → s.completed = false → s.hsResult.success = false →
    s.finding = true ∨ (∃ h ∈ s.handshakes, h.viaRoute = true) ∨
      s.queryDone = true ∧ 0 < s.handshakesInFlight

/-! ## Every step keeps the hope -/

lemma left_of_checkExhaustion (hopen : s.checkExhaustion.completed = false) :
    s.checkExhaustion = s ∧ (0 < s.handshakesInFlight ∨ s.pendingRelays ≠ [] ∨ s.queryDone = false ∨
      s.hsResult.success = true) := by
  unfold ConnState.checkExhaustion at hopen ⊢
  split_ifs at hopen ⊢ with hcompleted hbusy hwaits hqueried hwon
  · simp [hcompleted] at hopen
  · exact ⟨rfl, .inl hbusy⟩
  · exact ⟨rfl, .inr (.inl (by simpa using hwaits))⟩
  · exact ⟨rfl, .inr (.inr (.inl (by simpa using hqueried)))⟩
  · exact ⟨rfl, .inr (.inr (.inr hwon))⟩
  · simp at hopen

lemma hope_tryNextRelay (h : s.Firing env) (hopen : s.completed = false)
    (hquery : s.alive = true → s.queryDone = false → s.finding = true) : Hope (s.tryNextRelay env here) := by
  have hsame := @ConnState.drainRelays_sameReply env here s s.pendingRelays
  obtain ⟨-, hwaiting⟩ := h.drainRelays here s.pendingRelays
  have hlost : s.hsResult.success = false := h.search.lost
  intro halive hstill hlost'
  simp only [ConnState.tryNextRelay, hopen, hlost, Bool.false_eq_true, if_false] at halive hstill hlost' ⊢
  obtain ⟨hunchanged, hleft⟩ := left_of_checkExhaustion hstill
  rw [hunchanged] at halive hlost' ⊢
  rw [hsame.alive] at halive
  rw [hsame.finding, hsame.queryDone]
  cases hdone : s.queryDone with
  | false => exact .inl (hquery halive hdone)
  | true =>
    refine .inr (.inr ⟨rfl, ?_⟩)
    rcases hleft with hbusy | hwaits | hnot | hwon
    · exact hbusy
    · have hfull := hwaiting hwaits
      omega
    · rw [hsame.queryDone, hdone] at hnot
      exact absurd hnot Bool.true_eq_false.mp
    · rw [hlost'] at hwon
      exact absurd hwon Bool.false_ne_true

lemma hope_onHandshakeSuccess (hs : HandshakeResult) (hsuccess : s.hsResult.success = true) :
    Hope (s.onHandshakeSuccess env here hs) := by
  intro _ _ hlost
  have hresult : (s.onHandshakeSuccess env here hs).hsResult = s.hsResult :=
    congrArg Search.hsResult (ConnState.search_onHandshakeSuccess hs)
  rw [hresult, hsuccess] at hlost
  exact absurd hlost Bool.true_eq_false.mp

/-- **Every step keeps the hope.**

**Proof sketch.** When the query is done or a handshake has failed, the connect is completed unless
something is left, and relays wait only behind two handshakes. -/
theorem hope_step (h : s.Inv env) (hhope : Hope s) (i : Input) : Hope (step env s i) := by
  have hpaths (hi : i.ofPath = true) : Hope (step env s i) := by
    have hstep := @onPaths_step env s i hi
    intro halive hopen hlost
    have hlost₀ : s.hsResult.success = false := by
      rw [← hlost]
      exact (congrArg (fun x => x.hsResult.success) hstep.search).symm
    have hopen₀ : s.completed = false :=
      ((hstep.fresh hlost₀ (h.fresh hlost₀)).2).symm.trans hopen
    have halive₀ : s.alive = true := (congrArg Search.alive hstep.search).symm.trans halive
    have hfinding : (step env s i).finding = s.finding := congrArg Search.finding hstep.search
    have hhandshakes : (step env s i).handshakes = s.handshakes :=
      congrArg Search.handshakes hstep.search
    have hqueried : (step env s i).queryDone = s.queryDone := congrArg Search.queryDone hstep.search
    have hin : (step env s i).handshakesInFlight = s.handshakesInFlight :=
      congrArg Search.handshakesInFlight hstep.search
    rw [hfinding, hhandshakes, hqueried, hin]
    exact hhope halive₀ hopen₀ hlost₀
  cases i with
  | findPeerReply here source value =>
    simp only [step, ConnState.onFindPeerReply]
    split_ifs with hidle hcompleted hwon hempty
    · exact hhope
    · exact hhope
    · exact hhope
    · exact hhope
    · -- the query goes on
      have hfinding : s.finding = true := by simpa using hidle
      intro _ _ _
      refine .inl ?_
      unfold ConnState.fireOrQueue
      split
      · rw [(ConnState.fireHandshake_sameReply source).finding]
        exact hfinding
      · exact hfinding
  | findPeerDone =>
    simp only [step, ConnState.onFindPeerDone]
    split_ifs with hidle hcompleted hnothing
    · exact hhope
    · intro _ hopen _
      exact absurd (hcompleted.symm.trans hopen) Bool.true_eq_false.mp
    · intro _ hopen _
      simp at hopen
    · intro _ hopen hlost
      obtain ⟨hunchanged, hleft⟩ := left_of_checkExhaustion hopen
      rw [hunchanged] at hlost ⊢
      refine .inr (.inr ⟨rfl, ?_⟩)
      rcases hleft with hbusy | hwaits | hnot | hwon
      · exact hbusy
      · have hfull := h.search.waiting hwaits
        simp only [ConnState.search] at hfull
        show 0 < s.handshakesInFlight
        omega
      · exact absurd hnot Bool.true_eq_false.mp
      · exact absurd (hwon.symm.trans hlost) Bool.true_eq_false.mp
  | handshake here k hs =>
    simp only [step]
    cases hk : s.handshakes[k]? with
    | none => simpa [ConnState.onHandshake, hk] using hhope
    | some x =>
      cases hroute : x.viaRoute with
      | false =>
        have hrelayed : ∀ y ∈ s.handshakes, y.viaRoute = false :=
          h.search.relayed_of_mem (List.mem_of_getElem? hk) hroute
        rw [ConnState.onHandshake_of_relay hk hroute]
        split_ifs with hcompleted hwon hskip
        · intro _ hopen _
          exact absurd (hcompleted.symm.trans hopen) Bool.true_eq_false.mp
        · intro _ _ hlost
          exact absurd (hwon.symm.trans hlost) Bool.true_eq_false.mp
        · have hlost : s.hsResult.success = false := eq_false_of_ne_true hwon
          have hopen : s.completed = false := eq_false_of_ne_true hcompleted
          have hfiring : (s.returned k).Firing env :=
            ⟨h.once, h.fresh hlost, h.search.firing_returned hk hroute hlost⟩
          refine hope_tryNextRelay hfiring hopen fun halive hqueried => ?_
          rcases hhope halive hopen hlost with hfinding | ⟨y, hy, hvia⟩ | ⟨hdone, -⟩
          · exact hfinding
          · exact absurd ((hrelayed y hy).symm.trans hvia) Bool.false_ne_true
          · exact absurd (hdone.symm.trans hqueried) Bool.true_eq_false.mp
        · simp only [Bool.or_eq_true, Bool.not_eq_true', not_or, Bool.not_eq_false] at hskip
          exact hope_onHandshakeSuccess hs hskip.2
      | true =>
        rw [ConnState.onHandshake_of_route h hk hroute]
        split_ifs with hover hsuccess
        · intro halive hopen _
          simp only [Bool.or_eq_true, Bool.not_eq_true'] at hover
          rcases hover with hcompleted | hdead
          · exact absurd (hcompleted.symm.trans hopen) Bool.true_eq_false.mp
          · exact absurd (halive.symm.trans hdead) Bool.true_eq_false.mp
        · exact hope_onHandshakeSuccess hs hsuccess
        · intro _ _ _
          rw [ConnState.startFindPeer, if_neg hover]
          exact .inl rfl
  | packet socket source => exact hpaths rfl
  | relayConnect error result channel => exact hpaths rfl
  | relayPair remoteId => exact hpaths rfl
  | relayPairFailed => exact hpaths rfl
  | relayTimeout => exact hpaths rfl
  | passiveTimeout => exact hpaths rfl
  | lanPing ok => exact hpaths rfl
  | holepunch hp => exact hpaths rfl
  | destroy =>
    intro halive
    exact absurd halive Bool.false_ne_true

lemma hope_start (htaken : env.route ≠ none → env.accepts 0 = true) : Hope (start env here) := by
  cases hroute : env.route with
  | some addr =>
    have haccepts : env.accepts 0 = true := htaken (by simp [hroute])
    intro _ _ _
    simp [start, hroute, ConnState.peerHandshake, haccepts]
  | none =>
    simp only [start, hroute]
    generalize env.cachedRelays.foldl _ _ = s
    intro halive hopen _
    refine .inl ?_
    unfold ConnState.startFindPeer at halive hopen ⊢
    split
    · next hover => simp_all
    · rfl

lemma hope_run (htaken : env.route ≠ none → env.accepts 0 = true) (is : List Input) :
    Hope (run (step env) (start env here) is) := by
  have hboth : (run (step env) (start env here) is).Inv env ∧
      Hope (run (step env) (start env here) is) := by
    refine run_invariant (P := fun t => t.Inv env ∧ Hope t) ?_ ⟨inv_start here, hope_start htaken⟩ is
    rintro t i ⟨hinv, hhope⟩
    exact ⟨inv_step t i hinv, hope_step hinv hhope i⟩
  exact hboth.2

/-! ## Requests are only made, never taken back -/

lemma requests_le_fireHandshake (addr : Ipv4Address) :
    s.requests ≤ (s.fireHandshake env here addr).requests := by
  unfold ConnState.fireHandshake
  split
  · exact le_rfl
  · exact Nat.le_succ _

lemma requests_le_drainRelays (relays : List Ipv4Address) :
    s.requests ≤ (ConnState.drainRelays env here relays s).requests := by
  induction relays generalizing s with
  | nil => exact le_rfl
  | cons addr rest ih =>
    unfold ConnState.drainRelays
    split
    · have hfired := @requests_le_fireHandshake env here { s with pendingRelays := rest } addr
      exact le_trans hfired ih
    · exact le_rfl

lemma requests_le_tryNextRelay : s.requests ≤ (s.tryNextRelay env here).requests := by
  unfold ConnState.tryNextRelay
  split_ifs
  · exact le_rfl
  · exact le_rfl
  · rw [sameWinner_checkExhaustion.requests]
    exact requests_le_drainRelays _

lemma requests_onHandshakeSuccess (hs : HandshakeResult) :
    (s.onHandshakeSuccess env here hs).requests = s.requests :=
  congrArg Search.requests (ConnState.search_onHandshakeSuccess hs)

lemma requests_le_step (i : Input) : s.requests ≤ (step env s i).requests := by
  cases i with
  | findPeerReply here source value =>
    simp only [step, ConnState.onFindPeerReply, ConnState.fireOrQueue]
    split_ifs
    · exact le_rfl
    · exact le_rfl
    · exact le_rfl
    · exact le_rfl
    · exact @requests_le_fireHandshake env here
        { s with found := true, relays := s.relays ++ [source] } source
    · exact le_rfl
  | findPeerDone => exact sameWinner_onFindPeerDone.requests.ge
  | handshake here k hs =>
    simp only [step, ConnState.onHandshake]
    split
    · exact le_rfl
    · dsimp only [ConnState.onRouteResult, ConnState.onHandshakeResult]
      split_ifs
      · exact le_rfl
      · rw [requests_onHandshakeSuccess]
      · rw [sameWinner_startFindPeer.requests]
      · exact le_rfl
      · exact @requests_le_tryNextRelay env here (s.returned k)
      · exact @requests_le_tryNextRelay env here (s.returned k)
      · rw [requests_onHandshakeSuccess]
  | packet socket source => exact (SameWinner.of_path rfl).requests.ge
  | relayConnect error result channel => exact (SameWinner.of_path rfl).requests.ge
  | relayPair remoteId => exact (SameWinner.of_path rfl).requests.ge
  | relayPairFailed => exact (SameWinner.of_path rfl).requests.ge
  | relayTimeout => exact (SameWinner.of_path rfl).requests.ge
  | passiveTimeout => exact (SameWinner.of_path rfl).requests.ge
  | lanPing ok => exact (SameWinner.of_path rfl).requests.ge
  | holepunch hp => exact (SameWinner.of_path rfl).requests.ge
  | destroy => exact le_rfl

lemma requests_le_run (is : List Input) : s.requests ≤ (run (step env) s is).requests :=
  run_invariant (P := fun t : ConnState => s.requests ≤ t.requests)
    (fun _ i h => h.trans (requests_le_step i)) le_rfl is

/-! ## When a connect lives -/

lemma lives_of_allTaken (h : s.Inv env) (hhope : Hope s) (htaken : AllTaken env s) : Lives s := by
  have hzero : refusals env s.requests = 0 := (refusals_eq_zero_iff env _).2 htaken
  have hcounted : s.handshakesInFlight + routeRefused env =
      s.handshakes.countP (fun h => !h.viaRoute) + refusals env s.requests := h.search.counted
  have hle : s.handshakes.countP (fun h => !h.viaRoute) ≤ s.handshakesInFlight := h.search.counted_le
  have honce := h.once
  unfold ConnState.Once at honce
  refine ⟨by split at honce <;> omega, fun halive hnone hlost => ?_, by omega⟩
  have hopen : s.completed = false := by
    refine eq_false_of_ne_true fun hcompleted => ?_
    simp [hcompleted, hnone] at honce
  rcases hhope halive hopen hlost with hfinding | ⟨x, hx, -⟩ | ⟨-, hbusy⟩
  · exact .inl hfinding
  · exact .inr (List.ne_nil_of_mem hx)
  · refine .inr fun hempty => ?_
    rw [hempty, List.countP_nil] at hcounted
    omega

lemma allTaken_of_counts (h : s.Inv env) (hcounts : Lives s) (hroute : routeRefused env = 0) :
    AllTaken env s := by
  have hcounted : s.handshakesInFlight + routeRefused env =
      s.handshakes.countP (fun h => !h.viaRoute) + refusals env s.requests := h.search.counted
  have hin := hcounts.counts
  exact (refusals_eq_zero_iff env _).1 (by omega)

lemma routeRefused_of_lives (h : Lives (start env here)) : routeRefused env = 0 := by
  cases hroute : env.route with
  | none => simp [routeRefused, hroute]
  | some addr =>
    cases haccepts : env.accepts 0 with
    | true => simp [routeRefused, haccepts]
    | false =>
      have hawaits := h.awaits (by simp [start, hroute, ConnState.peerHandshake])
        (by simp [start, hroute, ConnState.peerHandshake])
        (by simp [start, hroute, ConnState.peerHandshake])
      simp [Awaits, start, hroute, ConnState.peerHandshake, haccepts] at hawaits

lemma everyState_of_prefix {P : ConnState → Prop} {is : List Input}
    (h : ∀ before after, is = before ++ after → P (run (step env) s before)) :
    EveryState (step env) P s is := by
  induction is generalizing s with
  | nil => exact h [] [] rfl
  | cons i is ih =>
    refine ⟨h [] (i :: is) rfl, ih fun before after hsplit => ?_⟩
    exact h (i :: before) after (by rw [hsplit, List.cons_append])

lemma AllTaken.of_append {before after : List Input}
    (h : AllTaken env (run (step env) s (before ++ after))) :
    AllTaken env (run (step env) s before) := by
  intro n hn
  refine h n (lt_of_lt_of_le hn ?_)
  rw [run_append]
  exact requests_le_run after

def refusingEnv : Env := { accepts := fun _ => false }

def refusedRun : List Input :=
  [.findPeerReply {} (.ofOctets 10 0 0 1 49737) (some [1]), .findPeerDone]

end HyperDHT.Connect
