import HyperDHT.Connect.Steps

/-!
# The first handshake wins

A connect has at most two handshakes in flight. The first of them to succeed wins: its reply and its
relay are noted together, and neither they nor the handshakes that were started change from there.

## Main definitions

* `Connect.SameWinner` — the reply that won, its relay and the handshakes started are the same.
* `Connect.FirstWins` — what holds of a state of a connect and of the runs that follow it.

## Main results

* `Connect.sameWinner_step` — after a reply has won, no step changes it or starts a handshake.
* `Connect.won_of_step` — a step that notes a reply is the callback of a handshake that succeeded.
* `Connect.firstWins_run` — the first handshake wins, in every run.
-/

set_option autoImplicit false

namespace HyperDHT.Connect

open Compact Runs

/-! ## After a reply has won -/

/-- The reply that won and its relay are the same, and no handshake was started. -/
structure SameWinner (s s' : ConnState) : Prop where
  relayAddr : s'.relayAddr = s.relayAddr
  hsResult : s'.hsResult = s.hsResult
  successes : s'.successes = s.successes
  requests : s'.requests = s.requests
  started : s'.handshakesStarted = s.handshakesStarted

namespace SameWinner

variable {s s' s'' : ConnState}

lemma refl (s : ConnState) : SameWinner s s := ⟨rfl, rfl, rfl, rfl, rfl⟩

lemma trans (h : SameWinner s s') (h' : SameWinner s' s'') : SameWinner s s'' :=
  ⟨h'.relayAddr.trans h.relayAddr, h'.hsResult.trans h.hsResult, h'.successes.trans h.successes,
    h'.requests.trans h.requests, h'.started.trans h.started⟩

lemma of_search (h : s'.search = s.search) : SameWinner s s' :=
  ⟨congrArg Search.relayAddr h, congrArg Search.hsResult h, congrArg Search.successes h,
    congrArg Search.requests h, congrArg Search.handshakesStarted h⟩

lemma of_path {env : Env} {i : Input} (h : i.ofPath = true) : SameWinner s (step env s i) :=
  .of_search (onPaths_step h).search

end SameWinner

section

variable {env : Env} {here : Surroundings} {s : ConnState}

lemma sameWinner_checkExhaustion : SameWinner s s.checkExhaustion := by
  unfold ConnState.checkExhaustion
  split_ifs
  · exact .refl s
  · exact .refl s
  · exact .refl s
  · exact .refl s
  · exact .refl s
  · exact .of_search (ConnState.search_fail _)

lemma sameWinner_startFindPeer : SameWinner s s.startFindPeer := by
  unfold ConnState.startFindPeer
  split <;> exact ⟨rfl, rfl, rfl, rfl, rfl⟩

lemma sameWinner_onFindPeerDone : SameWinner s s.onFindPeerDone := by
  have hended : SameWinner s { s with finding := false, queryDone := true } :=
    ⟨rfl, rfl, rfl, rfl, rfl⟩
  obtain heq | heq | ⟨-, error, heq⟩ := s.onFindPeerDone_cases
  · rw [heq]
    exact .refl s
  · rw [heq]
    exact hended
  · rw [heq]
    exact hended.trans (.of_search (ConnState.search_fail _))

lemma sameWinner_onHandshakeResult (hwon : s.hsResult.success = true) (addr : Ipv4Address)
    (hs : HandshakeResult) : SameWinner s (s.onHandshakeResult env here addr hs) := by
  simp only [ConnState.onHandshakeResult, hwon, ConnState.tryNextRelay, if_true]
  split_ifs <;> exact ⟨rfl, rfl, rfl, rfl, rfl⟩

/-- **After a reply has won** no step changes it or starts a handshake. -/
theorem sameWinner_step (h : s.Inv env) (hwon : s.hsResult.success = true) (i : Input) :
    SameWinner s (step env s i) := by
  cases i with
  | findPeerReply here source value =>
    simp only [step, ConnState.onFindPeerReply, hwon, if_true]
    split_ifs <;> exact .refl s
  | findPeerDone => exact sameWinner_onFindPeerDone
  | handshake here k hs =>
    simp only [step, ConnState.onHandshake]
    split
    · exact .refl s
    · next x hk =>
      have hrelay : x.viaRoute = false := by
        refine eq_false_of_ne_true fun hroute => ?_
        have hlost : s.hsResult.success = false :=
          (h.search.route x (List.mem_of_getElem? hk) hroute).2.2.2
        rw [hwon] at hlost
        exact absurd hlost Bool.true_eq_false.mp
      simp only [hrelay, Bool.false_eq_true, if_false]
      have herased : SameWinner s { s with handshakes := s.handshakes.eraseIdx k } :=
        ⟨rfl, rfl, rfl, rfl, rfl⟩
      have hstill : { s with handshakes := s.handshakes.eraseIdx k }.hsResult.success = true := hwon
      exact herased.trans (sameWinner_onHandshakeResult hstill x.relayAddr hs)
  | packet socket source => exact .of_path rfl
  | relayConnect error result channel => exact .of_path rfl
  | relayPair remoteId => exact .of_path rfl
  | relayPairFailed => exact .of_path rfl
  | relayTimeout => exact .of_path rfl
  | passiveTimeout => exact .of_path rfl
  | lanPing ok => exact .of_path rfl
  | holepunch hp => exact .of_path rfl
  | destroy => exact ⟨rfl, rfl, rfl, rfl, rfl⟩

lemma sameWinner_run (h : s.Inv env) (hwon : s.hsResult.success = true) (is : List Input) :
    SameWinner s (run (step env) s is) := by
  have hkept : (run (step env) s is).Inv env ∧ SameWinner s (run (step env) s is) := by
    refine run_invariant (P := fun t => t.Inv env ∧ SameWinner s t) ?_ ⟨h, .refl s⟩ is
    rintro t i ⟨hinv, hsame⟩
    have hstill : t.hsResult.success = true := by rw [hsame.hsResult, hwon]
    exact ⟨inv_step t i hinv, hsame.trans (sameWinner_step hinv hstill i)⟩
  exact hkept.2

/-! ## The reply that wins -/

lemma ConnState.Inv.nothing (h : s.Inv env) (hlost : s.hsResult.success = false) :
    s.successes = [] ∧ s.hsResult = {} ∧ s.relayAddr = .zero := by
  rcases h.search.successes with hnone | ⟨-, hwon⟩
  · exact hnone
  · have hwon : s.hsResult.success = true := hwon
    rw [hlost] at hwon
    exact absurd hwon Bool.false_ne_true

lemma successes_fireOrQueue (addr : Ipv4Address) :
    (s.fireOrQueue env here addr).successes = s.successes := by
  unfold ConnState.fireOrQueue ConnState.fireHandshake
  split_ifs <;> rfl

lemma successes_onHandshakeSuccess (hs : HandshakeResult) :
    (s.onHandshakeSuccess env here hs).successes = s.successes ++ [(s.relayAddr, hs)] :=
  congrArg Search.successes (ConnState.search_onHandshakeSuccess hs)

/-- **A step that notes a reply** is the callback of a handshake that succeeded, and notes its relay
with it. -/
theorem won_of_step (h : s.Inv env) (i : Input) (hnew : (step env s i).successes ≠ s.successes) :
    ∃ here k hs x, i = .handshake here k hs ∧ s.handshakes[k]? = some x ∧ hs.success = true ∧
      (step env s i).successes = [(x.relayAddr, hs)] := by
  cases hwon : s.hsResult.success with
  | true => exact absurd (sameWinner_step h hwon i).successes hnew
  | false =>
    have hnone := (h.nothing hwon).1
    cases i with
    | findPeerReply here source value =>
      refine absurd ?_ hnew
      simp only [step, ConnState.onFindPeerReply]
      split_ifs
      · rfl
      · rfl
      · rfl
      · rfl
      · exact successes_fireOrQueue source
    | findPeerDone => exact absurd sameWinner_onFindPeerDone.successes hnew
    | handshake here k hs =>
      simp only [step, ConnState.onHandshake] at hnew ⊢
      cases hk : s.handshakes[k]? with
      | none => simp [hk] at hnew
      | some x =>
        simp only [hk] at hnew ⊢
        refine ⟨here, k, hs, x, rfl, hk, ?_⟩
        cases hroute : x.viaRoute with
        | true =>
          simp only [hroute, if_true, ConnState.onRouteResult] at hnew ⊢
          split_ifs at hnew ⊢ with hover hsuccess
          · exact absurd rfl hnew
          · exact ⟨hsuccess, by rw [successes_onHandshakeSuccess, hnone]; rfl⟩
          · exact absurd sameWinner_startFindPeer.successes hnew
        | false =>
          simp only [hroute, Bool.false_eq_true, if_false, ConnState.onHandshakeResult, hwon] at hnew ⊢
          split_ifs at hnew ⊢ with hcompleted hskip
          · exact absurd rfl hnew
          · exact absurd ConnState.tryNextRelay_kept.2.1 hnew
          · simp only [Bool.or_eq_true, Bool.not_eq_true', not_or, Bool.not_eq_false] at hskip
            exact ⟨hskip.2, by rw [successes_onHandshakeSuccess, hnone]; rfl⟩
    | packet socket source => exact absurd (SameWinner.of_path rfl).successes hnew
    | relayConnect error result channel => exact absurd (SameWinner.of_path rfl).successes hnew
    | relayPair remoteId => exact absurd (SameWinner.of_path rfl).successes hnew
    | relayPairFailed => exact absurd (SameWinner.of_path rfl).successes hnew
    | relayTimeout => exact absurd (SameWinner.of_path rfl).successes hnew
    | passiveTimeout => exact absurd (SameWinner.of_path rfl).successes hnew
    | lanPing ok => exact absurd (SameWinner.of_path rfl).successes hnew
    | holepunch hp => exact absurd (SameWinner.of_path rfl).successes hnew
    | destroy => exact absurd rfl hnew

end

/-! ## The first handshake wins -/

/-- What holds of a state of a connect, and of the runs that follow it. -/
structure FirstWins (env : Env) (s : ConnState) : Prop where
  /-- At most two handshakes are in flight. -/
  inFlight : s.handshakes.length ≤ 2 ∧ s.handshakesInFlight ≤ 2
  /-- At most one reply is passed on. -/
  once : s.successes.length ≤ 1
  /-- Before one is, nothing was noted. -/
  before : s.successes = [] → s.hsResult = {} ∧ s.relayAddr = .zero
  /-- The reply that was passed on is noted with its relay. -/
  noted : ∀ addr hs, (addr, hs) ∈ s.successes → s.relayAddr = addr ∧ s.hsResult = hs
  /-- A reply is passed on by the callback of its handshake. -/
  given : ∀ i, (step env s i).successes ≠ s.successes →
    ∃ here k hs x, i = .handshake here k hs ∧ s.handshakes[k]? = some x ∧ hs.success = true ∧
      (step env s i).successes = [(x.relayAddr, hs)]
  /-- From there nothing changes, and no handshake is started. -/
  final : s.successes ≠ [] → ∀ is, SameWinner s (run (step env) s is)

/-- **The first handshake wins**: in every state of every run of a connect at most two handshakes are
in flight, at most one reply is passed on, by the callback of its handshake, and from there neither the
reply and its relay nor the handshakes that were started change. -/
theorem firstWins_run (env : Env) (here : Surroundings) (is : List Input) :
    FirstWins env (run (step env) (start env here) is) := by
  have hinv : (run (step env) (start env here) is).Inv env := inv_run here is
  generalize run (step env) (start env here) is = s at hinv
  have hlength : s.handshakes.length ≤ s.handshakesInFlight ∨ s.handshakes.length = 1 := by
    by_cases hroute : ∃ x ∈ s.handshakes, x.viaRoute = true
    · obtain ⟨x, hx, hvia⟩ := hroute
      have halone : s.handshakes = [x] := (hinv.search.route x hx hvia).1
      exact .inr (by rw [halone]; rfl)
    · have hcount := @Search.countP_relayed s.handshakes fun x hx =>
        eq_false_of_ne_true fun hvia => hroute ⟨x, hx, hvia⟩
      have hle : s.handshakes.countP (fun h => !h.viaRoute) ≤ s.handshakesInFlight :=
        hinv.search.counted_le
      exact .inl (hcount ▸ hle)
  have hinFlight : s.handshakesInFlight ≤ 2 := hinv.search.inFlight_le
  have hnoted : s.successes = [] ∧ s.hsResult = {} ∧ s.relayAddr = .zero ∨
      s.successes = [(s.relayAddr, s.hsResult)] ∧ s.hsResult.success = true := hinv.search.successes
  rcases hnoted with ⟨hnone, hfirst⟩ | ⟨hone, hwon⟩
  · exact ⟨⟨by omega, hinFlight⟩, by simp [hnone], fun _ => hfirst, by simp [hnone],
      fun i => won_of_step hinv i, fun hne => absurd hnone hne⟩
  · refine ⟨⟨by omega, hinFlight⟩, by simp [hone], by simp [hone], fun addr hs hmem => ?_,
      fun i => won_of_step hinv i, fun _ is => sameWinner_run hinv hwon is⟩
    rw [hone, List.mem_singleton, Prod.mk.injEq] at hmem
    exact ⟨hmem.1.symm, hmem.2.symm⟩

end HyperDHT.Connect
