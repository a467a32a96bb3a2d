import HyperDHT.Connect.Basic
import HyperDHT.Lib.Runs

/-!
# The search of a connect

What the steps of a connect do to its search for the peer, that is to its handshakes and to the reply
that wins, and the invariant of the search. The paths that follow the reply leave the search alone.

## Main definitions

* `Connect.Search` — the part of the state of a connect that its search uses.
* `ConnState.Fresh` — no path has been begun.
* `ConnState.Inv` — the invariant of a connect.

## Main results

* `ConnState.search_onHandshakeSuccess`, `Connect.onPaths_step` — the paths leave the search alone.
* `Connect.inv_run` — the invariant holds after every run.
-/

set_option autoImplicit false

namespace HyperDHT.Connect

open Compact Runs

/-! ## The search and the paths -/

/-- What the search of a connect uses. -/
structure Search where
  alive : Bool
  found : Bool
  finding : Bool
  queryDone : Bool
  handshakesInFlight : ℕ
  handshakesStarted : ℕ
  pendingRelays : List Ipv4Address
  relayAddr : Ipv4Address
  hsResult : HandshakeResult
  requests : ℕ
  handshakes : List Handshake
  successes : List (Ipv4Address × HandshakeResult)

namespace ConnState

variable {env : Env} {here : Surroundings} {s : ConnState}

/-- The search of a connect. -/
def search (s : ConnState) : Search where
  alive := s.alive
  found := s.found
  finding := s.finding
  queryDone := s.queryDone
  handshakesInFlight := s.handshakesInFlight
  handshakesStarted := s.handshakesStarted
  pendingRelays := s.pendingRelays
  relayAddr := s.relayAddr
  hsResult := s.hsResult
  requests := s.requests
  handshakes := s.handshakes
  successes := s.successes

/-- No path has been begun, and the token is still our own. -/
def Fresh (env : Env) (s : ConnState) : Prop :=
  s.relay = none ∧ s.lanPing = none ∧ s.holepunch = none ∧ s.passiveTimer = false ∧
    s.relayToken = env.relayToken

lemma Fresh.relay (h : s.Fresh env) : s.relay = none := h.1

lemma Fresh.lanPing (h : s.Fresh env) : s.lanPing = none := h.2.1

lemma Fresh.holepunch (h : s.Fresh env) : s.holepunch = none := h.2.2.1

lemma Fresh.passiveTimer (h : s.Fresh env) : s.passiveTimer = false := h.2.2.2.1

lemma Fresh.relayToken (h : s.Fresh env) : s.relayToken = env.relayToken := h.2.2.2.2

/-- The callback was called once if the connect is completed, and not at all before. -/
def Once (s : ConnState) : Prop := s.completions.length = if s.completed then 1 else 0

/-! ### The end of a connect -/

@[simp] lemma search_complete (error : ConnectError) (result : ConnectResult) :
    (s.complete error result).search = s.search := by
  unfold complete
  split <;> rfl

@[simp] lemma search_fail (error : ConnectError) : (s.fail error).search = s.search :=
  search_complete error {}

@[simp] lemma search_succeed (hs : HandshakeResult) (addr : Ipv4Address) (socket : Option ℕ)
    (via : Option RelayVia) : (s.succeed env hs addr socket via).search = s.search := by
  rw [succeed, search_complete]
  rfl

@[simp] lemma completed_complete (error : ConnectError) (result : ConnectResult) :
    (s.complete error result).completed = true := by
  unfold complete
  split
  · assumption
  · rfl

@[simp] lemma completed_fail (error : ConnectError) : (s.fail error).completed = true :=
  completed_complete error {}

@[simp] lemma completed_succeed (hs : HandshakeResult) (addr : Ipv4Address) (socket : Option ℕ)
    (via : Option RelayVia) : (s.succeed env hs addr socket via).completed = true :=
  completed_complete _ _

lemma Once.complete (h : s.Once) (error : ConnectError) (result : ConnectResult) :
    (s.complete error result).Once := by
  unfold ConnState.complete
  split
  · exact h
  · next hopen =>
    simp only [Once, hopen, Bool.false_eq_true, if_false] at h
    simp [Once, h]

lemma Once.fail (h : s.Once) (error : ConnectError) : (s.fail error).Once := h.complete error {}

lemma Once.succeed (h : s.Once) (hs : HandshakeResult) (addr : Ipv4Address) (socket : Option ℕ)
    (via : Option RelayVia) : (s.succeed env hs addr socket via).Once :=
  Once.complete (s := { s with rawStream := false }) h _ _

/-! ### The paths -/

@[simp] lemma search_chooseRelay (hs : HandshakeResult) :
    (s.chooseRelay env here hs).search = s.search := by
  unfold chooseRelay
  split <;> rfl

@[simp] lemma search_choosePath (hs : HandshakeResult) :
    (s.choosePath env here hs).search = s.search := by
  unfold choosePath
  split
  · exact search_succeed hs _ none none
  · split
    · unfold startPaths
      split <;> rfl
    · split
      · exact search_succeed hs _ none none
      · exact search_fail .noAddresses

/-- The reply that wins is noted, and the search is left alone from there. -/
@[simp] lemma search_onHandshakeSuccess (hs : HandshakeResult) :
    (s.onHandshakeSuccess env here hs).search =
      { s.search with successes := s.successes ++ [(s.relayAddr, hs)] } := by
  dsimp only [onHandshakeSuccess]
  split
  · split
    · rw [search_choosePath, search_chooseRelay]
      rfl
    · rw [search_succeed]
      rfl
  · rw [search_choosePath, search_chooseRelay]
    rfl

lemma Once.chooseRelay (h : s.Once) (hs : HandshakeResult) : (s.chooseRelay env here hs).Once := by
  unfold ConnState.chooseRelay
  split <;> exact h

lemma Once.choosePath (h : s.Once) (hs : HandshakeResult) : (s.choosePath env here hs).Once := by
  unfold ConnState.choosePath
  split
  · exact h.succeed hs _ none none
  · split
    · unfold startPaths
      split <;> exact h
    · split
      · exact h.succeed hs _ none none
      · exact h.fail .noAddresses

lemma Once.onHandshakeSuccess (h : s.Once) (hs : HandshakeResult) :
    (s.onHandshakeSuccess env here hs).Once := by
  have hnoted : { s with successes := s.successes ++ [(s.relayAddr, hs)] }.Once := h
  dsimp only [ConnState.onHandshakeSuccess]
  split
  · split
    · exact (hnoted.chooseRelay hs).choosePath hs
    · exact hnoted.succeed hs _ _ none
  · exact (hnoted.chooseRelay hs).choosePath hs

end ConnState

/-- What an event of the paths leads to: the search is left alone, before a reply has won nothing is
begun or completed, and the callback is not called twice. -/
structure OnPaths (env : Env) (s s' : ConnState) : Prop where
  search : s'.search = s.search
  fresh : s.hsResult.success = false → s.Fresh env → s'.Fresh env ∧ s'.completed = s.completed
  once : s.Once → s'.Once

namespace OnPaths

variable {env : Env} {s : ConnState}

lemma onPacket (socket : ℕ) (source : Ipv4Address) : OnPaths env s (s.onPacket env socket source) := by
  unfold ConnState.onPacket
  split
  · exact ⟨rfl, fun _ h => ⟨h, rfl⟩, id⟩
  · split
    · exact ⟨rfl, fun _ h => ⟨h, rfl⟩, id⟩
    · split
      · exact ⟨rfl, fun _ h => ⟨h, rfl⟩, id⟩
      · split
        · exact ⟨rfl, fun _ h => ⟨h, rfl⟩, id⟩
        · next hwon =>
          refine ⟨ConnState.search_succeed _ _ _ _, fun hlost _ => ?_, fun h => h.succeed _ _ _ _⟩
          simp [hlost] at hwon

lemma onRelayConnect (error : ConnectError) (result : ConnectResult) (channel : Bool) :
    OnPaths env s (s.onRelayConnect error result channel) := by
  unfold ConnState.onRelayConnect
  split
  · exact ⟨rfl, fun _ h => ⟨h, rfl⟩, id⟩
  · next r hrelay =>
    have hbegun : ¬ s.Fresh env := fun h => by simp [h.relay] at hrelay
    split_ifs <;> exact ⟨rfl, fun _ h => absurd h hbegun, id⟩

lemma onRelayPair (remoteId : UInt32) : OnPaths env s (s.onRelayPair env remoteId) := by
  unfold ConnState.onRelayPair
  split
  · exact ⟨rfl, fun _ h => ⟨h, rfl⟩, id⟩
  · next r hrelay =>
    have hbegun : ¬ s.Fresh env := fun h => by simp [h.relay] at hrelay
    split
    · exact ⟨rfl, fun _ h => ⟨h, rfl⟩, id⟩
    · split
      · exact ⟨rfl, fun _ h => ⟨h, rfl⟩, id⟩
      · split
        · exact ⟨rfl, fun _ h => ⟨h, rfl⟩, id⟩
        · refine ⟨?_, fun _ h => absurd h hbegun, fun h => ConnState.Once.succeed (by exact h) _ _ _ _⟩
          rw [ConnState.search_succeed]
          rfl

lemma onRelayPairFailed : OnPaths env s s.onRelayPairFailed := by
  unfold ConnState.onRelayPairFailed
  split
  · exact ⟨rfl, fun _ h => ⟨h, rfl⟩, id⟩
  · next r hrelay =>
    have hbegun : ¬ s.Fresh env := fun h => by simp [h.relay] at hrelay
    split_ifs <;> exact ⟨rfl, fun _ h => absurd h hbegun, id⟩

lemma onRelayTimeout : OnPaths env s s.onRelayTimeout := by
  refine ⟨rfl, fun _ h => ⟨⟨?_, h.2⟩, rfl⟩, id⟩
  simp [ConnState.onRelayTimeout, h.relay]

lemma onPassiveTimeout : OnPaths env s s.onPassiveTimeout := by
  unfold ConnState.onPassiveTimeout
  split
  · exact ⟨rfl, fun _ h => ⟨h, rfl⟩, id⟩
  · next harmed =>
    have hbegun : ¬ s.Fresh env := fun h => by simp [h.passiveTimer] at harmed
    dsimp only
    split
    · exact ⟨rfl, fun _ h => absurd h hbegun, id⟩
    · refine ⟨?_, fun _ h => absurd h hbegun, fun h => ConnState.Once.fail (by exact h) _⟩
      rw [ConnState.search_fail]
      rfl

lemma onLanPing (ok : Bool) : OnPaths env s (s.onLanPing env ok) := by
  unfold ConnState.onLanPing
  split
  · exact ⟨rfl, fun _ h => ⟨h, rfl⟩, id⟩
  · next addr hping =>
    have hbegun : ¬ s.Fresh env := fun h => by simp [h.lanPing] at hping
    dsimp only
    split
    · exact ⟨rfl, fun _ h => absurd h hbegun, id⟩
    · split
      · exact ⟨rfl, fun _ h => absurd h hbegun, id⟩
      · refine ⟨?_, fun _ h => absurd h hbegun, fun h => ConnState.Once.succeed (by exact h) _ _ _ _⟩
        rw [ConnState.search_succeed]
        rfl

lemma onHolepunch (hp : HolepunchResult) : OnPaths env s (s.onHolepunch env hp) := by
  unfold ConnState.onHolepunch
  split
  · exact ⟨rfl, fun _ h => ⟨h, rfl⟩, id⟩
  · next call hpunch =>
    have hbegun : ¬ s.Fresh env := fun h => by simp [h.holepunch] at hpunch
    dsimp only
    split
    · exact ⟨rfl, fun _ h => absurd h hbegun, id⟩
    · split
      · refine ⟨?_, fun _ h => absurd h hbegun, fun h => ConnState.Once.fail (by exact h) _⟩
        rw [ConnState.search_fail]
        rfl
      · refine ⟨?_, fun _ h => absurd h hbegun, fun h => ConnState.Once.succeed (by exact h) _ _ _ _⟩
        rw [ConnState.search_succeed]
        rfl

end OnPaths

/-- The event is one of the paths. -/
def Input.ofPath : Input → Bool
  | .packet .. | .relayConnect .. | .relayPair .. | .relayPairFailed | .relayTimeout => true
  | .passiveTimeout | .lanPing .. | .holepunch .. => true
  | _ => false

lemma onPaths_step {env : Env} {s : ConnState} {i : Input} (h : i.ofPath = true) :
    OnPaths env s (step env s i) := by
  cases i with
  | packet socket source => exact .onPacket socket source
  | relayConnect error result channel => exact .onRelayConnect error result channel
  | relayPair remoteId => exact .onRelayPair remoteId
  | relayPairFailed => exact .onRelayPairFailed
  | relayTimeout => exact .onRelayTimeout
  | passiveTimeout => exact .onPassiveTimeout
  | lanPing ok => exact .onLanPing ok
  | holepunch hp => exact .onHolepunch hp
  | findPeerReply here source value => exact absurd h Bool.false_ne_true
  | findPeerDone => exact absurd h Bool.false_ne_true
  | handshake here k hs => exact absurd h Bool.false_ne_true
  | destroy => exact absurd h Bool.false_ne_true

/-! ## The invariant -/

/-- The relay that a first message names: that of the options, but none over a route. -/
def namedRelay (env : Env) (viaRoute : Bool) : Option RelayThroughInfo :=
  if viaRoute then none
  else env.relayThrough.map fun key => { publicKey := key, token := env.relayToken }

/-- The first message of a handshake, as a connect writes it. -/
def Handshake.Written (env : Env) (h : Handshake) : Prop :=
  ∃ firewall addresses4, addresses4.length < 2 ^ 64 ∧ (h.viaRoute = true → addresses4 = []) ∧
    h.payload = handshakePayload env.udxId firewall addresses4 (namedRelay env h.viaRoute)

/-- How many of the first `n` requests are refused. -/
def refusals (env : Env) (n : ℕ) : ℕ := (List.range n).countP fun k => !env.accepts k

/-- The request over the route was refused. -/
def routeRefused (env : Env) : ℕ := if env.route.isSome && !env.accepts 0 then 1 else 0

lemma refusals_succ (env : Env) (n : ℕ) :
    refusals env (n + 1) = refusals env n + if env.accepts n then 0 else 1 := by
  cases hn : env.accepts n <;> simp [refusals, List.range_succ, List.countP_append, hn]

lemma refusals_eq_zero_iff (env : Env) (n : ℕ) :
    refusals env n = 0 ↔ ∀ k < n, env.accepts k = true := by
  simp [refusals, List.countP_eq_zero]

namespace Search

variable {env : Env} {x : Search}

/-- The invariant of the search. Until a reply has won nothing was noted, and then no relay waits; a
relay waits only behind two handshakes; a handshake over a route is alone. -/
structure Inv (env : Env) (completed : Bool) (x : Search) : Prop where
  inFlight_le : x.handshakesInFlight ≤ 2
  counted_le : x.handshakes.countP (fun h => !h.viaRoute) ≤ x.handshakesInFlight
  counted : x.handshakesInFlight + routeRefused env =
    x.handshakes.countP (fun h => !h.viaRoute) + refusals env x.requests
  route : ∀ h ∈ x.handshakes, h.viaRoute = true →
    x.handshakes = [h] ∧ x.handshakesInFlight = 0 ∧ x.finding = false ∧ x.hsResult.success = false
  waiting : x.pendingRelays ≠ [] → 2 ≤ x.handshakesInFlight
  settled : completed = true ∨ x.hsResult.success = true → x.pendingRelays = []
  unfound : x.found = false → x.handshakes = [] ∧ x.pendingRelays = [] ∧ x.hsResult.success = false
  routed : env.route = none → ∀ h ∈ x.handshakes, h.viaRoute = false
  written : ∀ h ∈ x.handshakes, h.Written env
  successes : x.successes = [] ∧ x.hsResult = {} ∧ x.relayAddr = .zero ∨
    x.successes = [(x.relayAddr, x.hsResult)] ∧ x.hsResult.success = true

/-- The invariant between the handshakes that are fired in one step: no reply has won, and those in
flight all go through relays. -/
structure Firing (env : Env) (x : Search) : Prop where
  found : x.found = true
  inFlight_le : x.handshakesInFlight ≤ 2
  counted_le : x.handshakes.length ≤ x.handshakesInFlight
  counted : x.handshakesInFlight + routeRefused env = x.handshakes.length + refusals env x.requests
  relayed : ∀ h ∈ x.handshakes, h.viaRoute = false ∧ h.Written env
  nothing : x.successes = [] ∧ x.hsResult = {} ∧ x.relayAddr = .zero

lemma countP_relayed {hs : List Handshake} (h : ∀ y ∈ hs, y.viaRoute = false) :
    hs.countP (fun y => !y.viaRoute) = hs.length := by
  rw [List.countP_eq_length]
  intro y hy
  simp [h y hy]

lemma Firing.lost (h : x.Firing env) : x.hsResult.success = false := by rw [h.nothing.2.1]

lemma Firing.inv {completed : Bool} (h : x.Firing env)
    (hwaiting : x.pendingRelays ≠ [] → 2 ≤ x.handshakesInFlight)
    (hsettled : completed = true → x.pendingRelays = []) : x.Inv env completed := by
  have hcount := countP_relayed fun y hy => (h.relayed y hy).1
  refine ⟨h.inFlight_le, hcount ▸ h.counted_le, hcount ▸ h.counted, ?_, hwaiting, ?_, ?_,
    fun _ y hy => (h.relayed y hy).1, fun y hy => (h.relayed y hy).2, .inl h.nothing⟩
  · intro y hy hroute
    simp [(h.relayed y hy).1] at hroute
  · rintro (hcompleted | hwon)
    · exact hsettled hcompleted
    · simp [h.lost] at hwon
  · intro hnot
    simp [h.found] at hnot

lemma Inv.firing {completed : Bool} (h : x.Inv env completed) (hlost : x.hsResult.success = false)
    (hfound : x.found = true) (hrelayed : ∀ y ∈ x.handshakes, y.viaRoute = false) : x.Firing env := by
  have hcount := countP_relayed hrelayed
  refine ⟨hfound, h.inFlight_le, hcount ▸ h.counted_le, hcount ▸ h.counted,
    fun y hy => ⟨hrelayed y hy, h.written y hy⟩, ?_⟩
  rcases h.successes with hnone | ⟨-, hwon⟩
  · exact hnone
  · simp [hlost] at hwon

lemma Inv.relayed_of_mem {completed : Bool} (h : x.Inv env completed) {y : Handshake}
    (hy : y ∈ x.handshakes) (hrelay : y.viaRoute = false) : ∀ z ∈ x.handshakes, z.viaRoute = false := by
  intro z hz
  cases hroute : z.viaRoute with
  | false => rfl
  | true =>
    have halone := (h.route z hz hroute).1
    rw [halone, List.mem_singleton] at hy
    rw [hy, hroute] at hrelay
    exact hrelay

/-- **A reply wins**: the invariant holds with the reply noted. -/
lemma Firing.won {completed : Bool} (h : x.Firing env) (addr : Ipv4Address) {hs : HandshakeResult}
    (hsuccess : hs.success = true) :
    Inv env completed
      { x with relayAddr := addr, hsResult := hs, pendingRelays := [], successes := [(addr, hs)] } := by
  have hcount := countP_relayed fun y hy => (h.relayed y hy).1
  refine ⟨h.inFlight_le, hcount ▸ h.counted_le, hcount ▸ h.counted, ?_, fun hne => absurd rfl hne,
    fun _ => rfl, ?_, fun _ y hy => (h.relayed y hy).1, fun y hy => (h.relayed y hy).2,
    .inr ⟨rfl, hsuccess⟩⟩
  · intro y hy hroute
    simp [(h.relayed y hy).1] at hroute
  · intro hnot
    simp [h.found] at hnot

/-- The search after a handshake through a relay has called back. -/
def returned (x : Search) (k : ℕ) : Search :=
  { x with
    handshakes := x.handshakes.eraseIdx k
    handshakesInFlight := x.handshakesInFlight - 1 }

section

variable {completed : Bool} {k : ℕ} {y : Handshake}

lemma Inv.returned_facts (h : x.Inv env completed) (hk : x.handshakes[k]? = some y)
    (hrelay : y.viaRoute = false) :
    (x.returned k).handshakes.length ≤ (x.returned k).handshakesInFlight ∧
      (x.returned k).handshakesInFlight + routeRefused env =
        (x.returned k).handshakes.length + refusals env x.requests ∧
      ∀ z ∈ (x.returned k).handshakes, z.viaRoute = false ∧ z.Written env := by
  have hrelayed := h.relayed_of_mem (List.mem_of_getElem? hk) hrelay
  have hcount := countP_relayed hrelayed
  have hbound : k < x.handshakes.length := (List.getElem?_eq_some_iff.1 hk).1
  have hlength : (x.returned k).handshakes.length = x.handshakes.length - 1 :=
    List.length_eraseIdx_of_lt hbound
  have hin : (x.returned k).handshakesInFlight = x.handshakesInFlight - 1 := rfl
  have hle := h.counted_le
  have hcounted := h.counted
  rw [hcount] at hle hcounted
  refine ⟨by omega, by omega, fun z hz => ?_⟩
  have hmem : z ∈ x.handshakes := List.mem_of_mem_eraseIdx hz
  exact ⟨hrelayed z hmem, h.written z hmem⟩

lemma Inv.found_of_mem (h : x.Inv env completed) (hk : x.handshakes[k]? = some y) :
    x.found = true := by
  refine eq_true_of_ne_false fun hnot => ?_
  rw [(h.unfound hnot).1] at hk
  simp at hk

lemma Inv.returned (h : x.Inv env completed) (hk : x.handshakes[k]? = some y)
    (hrelay : y.viaRoute = false) (hnone : x.pendingRelays = []) :
    (x.returned k).Inv env completed := by
  obtain ⟨hle, hcounted, hrelayed⟩ := h.returned_facts hk hrelay
  have hcount := countP_relayed fun z hz => (hrelayed z hz).1
  have hinFlight := h.inFlight_le
  refine ⟨?_, hcount ▸ hle, hcount ▸ hcounted, ?_, fun hne => absurd hnone hne, fun _ => hnone, ?_,
    fun _ z hz => (hrelayed z hz).1, fun z hz => (hrelayed z hz).2, h.successes⟩
  · simp only [Search.returned]
    omega
  · intro z hz hroute
    simp [(hrelayed z hz).1] at hroute
  · intro hnot
    have hfound : x.found = false := hnot
    simp [h.found_of_mem hk] at hfound

lemma Inv.firing_returned (h : x.Inv env completed) (hk : x.handshakes[k]? = some y)
    (hrelay : y.viaRoute = false) (hlost : x.hsResult.success = false) :
    (x.returned k).Firing env := by
  obtain ⟨hle, hcounted, hrelayed⟩ := h.returned_facts hk hrelay
  have hinFlight := h.inFlight_le
  refine ⟨h.found_of_mem hk, ?_, hle, hcounted, hrelayed, ?_⟩
  · simp only [Search.returned]
    omega
  · rcases h.successes with hnone | ⟨-, hwon⟩
    · exact hnone
    · simp [hlost] at hwon

lemma Inv.firing_route (h : x.Inv env completed) (hk : x.handshakes[k]? = some y)
    (hroute : y.viaRoute = true) :
    x.handshakes.eraseIdx k = [] ∧ x.pendingRelays = [] ∧ { x with handshakes := [] }.Firing env := by
  obtain ⟨halone, hnoflight, -, hlost⟩ := h.route y (List.mem_of_getElem? hk) hroute
  have hbound : k < x.handshakes.length := (List.getElem?_eq_some_iff.1 hk).1
  have hlength := List.length_eraseIdx_of_lt hbound
  have hcounted := h.counted
  rw [halone] at hlength hcounted
  simp only [List.countP_singleton, hroute, Bool.not_true, Bool.false_eq_true, if_false] at hcounted
  refine ⟨by rw [halone]; exact List.length_eq_zero_iff.1 hlength, ?_, h.found_of_mem hk,
    h.inFlight_le, Nat.zero_le _, hcounted, fun z hz => absurd hz List.not_mem_nil, ?_⟩
  · by_contra hne
    have hwaiting := h.waiting hne
    omega
  · rcases h.successes with hnone | ⟨-, hwon⟩
    · exact hnone
    · simp [hlost] at hwon

end

end Search

namespace ConnState

variable {env : Env} {here : Surroundings} {s : ConnState}

/-- The invariant of a connect: the callback is called once, and until a reply has won no path is
begun. -/
structure Inv (env : Env) (s : ConnState) : Prop where
  once : s.Once
  fresh : s.hsResult.success = false → s.Fresh env
  search : s.search.Inv env s.completed

/-- The invariant between the handshakes that are fired in one step. -/
structure Firing (env : Env) (s : ConnState) : Prop where
  once : s.Once
  fresh : s.Fresh env
  search : s.search.Firing env

/-! ### Firing -/

/-- What is left alone while handshakes are fired. -/
structure SameReply (s s' : ConnState) : Prop where
  alive : s'.alive = s.alive
  completed : s'.completed = s.completed
  found : s'.found = s.found
  finding : s'.finding = s.finding
  queryDone : s'.queryDone = s.queryDone
  hsResult : s'.hsResult = s.hsResult
  successes : s'.successes = s.successes
  relay : s'.relay = s.relay

lemma SameReply.refl (s : ConnState) : SameReply s s := ⟨rfl, rfl, rfl, rfl, rfl, rfl, rfl, rfl⟩

lemma SameReply.trans {s' s'' : ConnState} (h : SameReply s s') (h' : SameReply s' s'') :
    SameReply s s'' :=
  ⟨h'.alive.trans h.alive, h'.completed.trans h.completed, h'.found.trans h.found,
    h'.finding.trans h.finding, h'.queryDone.trans h.queryDone, h'.hsResult.trans h.hsResult,
    h'.successes.trans h.successes, h'.relay.trans h.relay⟩

lemma fireHandshake_sameReply (relayAddr : Ipv4Address) :
    SameReply s (s.fireHandshake env here relayAddr) := by
  unfold fireHandshake
  split
  · exact .refl s
  · exact ⟨rfl, rfl, rfl, rfl, rfl, rfl, rfl, rfl⟩

lemma pendingRelays_fireHandshake (relayAddr : Ipv4Address) :
    (s.fireHandshake env here relayAddr).pendingRelays = s.pendingRelays := by
  unfold fireHandshake
  split <;> rfl

lemma length_ourAddresses_lt : (ourAddresses env here).2.length < 2 ^ 64 := by
  have hsize := here.size_lt
  simp only [ourAddresses, List.length_append]
  split <;> split <;> simp <;> omega

/-- **A handshake is fired**: it is counted, and it is in flight unless it is refused. -/
lemma Firing.fireHandshake (h : s.Firing env) (hroom : s.handshakesInFlight < 2)
    (relayAddr : Ipv4Address) : (s.fireHandshake env here relayAddr).Firing env := by
  unfold ConnState.fireHandshake
  split
  · exact h
  · obtain ⟨honce, hfresh, hfound, -, hle, hcounted, hrelayed, hnothing⟩ := h
    simp only [ConnState.search] at hle hcounted hrelayed
    have hrefusals := refusals_succ env s.requests
    refine ⟨honce, hfresh, hfound, ?_, ?_, ?_, ?_, hnothing⟩
    · simp only [peerHandshake, ConnState.search]
      omega
    · simp only [peerHandshake, ConnState.search]
      split
      · simpa using hle
      · omega
    · simp only [peerHandshake, ConnState.search]
      split at hrefusals <;> rename_i haccepts <;> simp [haccepts] <;> omega
    · intro x hx
      have hcases : x ∈ s.handshakes ∨ x.viaRoute = false ∧ x.Written env := by
        simp only [peerHandshake, ConnState.search] at hx
        split at hx
        · rcases List.mem_append.1 hx with hold | hnew
          · exact .inl hold
          · rw [List.mem_singleton.1 hnew]
            refine .inr ⟨rfl, (ourAddresses env here).1, (ourAddresses env here).2,
              length_ourAddresses_lt, ?_, ?_⟩
            · intro hroute
              exact absurd hroute Bool.false_ne_true
            · simp only [namedRelay, Bool.false_eq_true, if_false, hfresh.relayToken]
        · exact .inl hx
      rcases hcases with hold | hnew
      · exact hrelayed x hold
      · exact hnew

lemma drainRelays_sameReply (relays : List Ipv4Address) :
    SameReply s (drainRelays env here relays s) := by
  induction relays generalizing s with
  | nil => exact ⟨rfl, rfl, rfl, rfl, rfl, rfl, rfl, rfl⟩
  | cons addr rest ih =>
    have hpending : SameReply s { s with pendingRelays := rest } :=
      ⟨rfl, rfl, rfl, rfl, rfl, rfl, rfl, rfl⟩
    unfold drainRelays
    split
    · exact (hpending.trans (fireHandshake_sameReply addr)).trans ih
    · exact ⟨rfl, rfl, rfl, rfl, rfl, rfl, rfl, rfl⟩

lemma tryNextRelay_kept :
    (s.tryNextRelay env here).hsResult = s.hsResult ∧
      (s.tryNextRelay env here).successes = s.successes ∧
      (s.tryNextRelay env here).relay = s.relay := by
  have hdrain := @drainRelays_sameReply env here s s.pendingRelays
  have hcheck (s : ConnState) : s.checkExhaustion.hsResult = s.hsResult ∧
      s.checkExhaustion.successes = s.successes ∧ s.checkExhaustion.relay = s.relay := by
    unfold checkExhaustion fail complete
    split_ifs <;> exact ⟨rfl, rfl, rfl⟩
  unfold tryNextRelay
  split_ifs
  · exact ⟨rfl, rfl, rfl⟩
  · exact ⟨rfl, rfl, rfl⟩
  · obtain ⟨hresult, hsuccesses, hrelay⟩ := hcheck (drainRelays env here s.pendingRelays s)
    exact ⟨hresult.trans hdrain.hsResult, hsuccesses.trans hdrain.successes,
      hrelay.trans hdrain.relay⟩

lemma Firing.setPending (h : s.Firing env) (pending : List Ipv4Address) :
    { s with pendingRelays := pending }.Firing env :=
  ⟨h.once, h.fresh, h.search.found, h.search.inFlight_le, h.search.counted_le, h.search.counted,
    h.search.relayed, h.search.nothing⟩

/-- **The loop over the relays that wait** fires until two handshakes are in flight or no relay
waits. -/
lemma Firing.drainRelays (h : s.Firing env) (here : Surroundings) (relays : List Ipv4Address) :
    (drainRelays env here relays s).Firing env ∧
      ((drainRelays env here relays s).pendingRelays ≠ [] →
        2 ≤ (drainRelays env here relays s).handshakesInFlight) := by
  induction relays generalizing s with
  | nil => exact ⟨h.setPending [], fun hne => absurd rfl hne⟩
  | cons addr rest ih =>
    unfold ConnState.drainRelays
    split
    · next hroom => exact ih ((h.setPending rest).fireHandshake hroom addr)
    · next hfull => exact ⟨h.setPending (addr :: rest), fun _ => not_lt.1 hfull⟩

/-! ### The steps keep the invariant -/

lemma Inv.onPaths {s' : ConnState} (h : s.Inv env) (hstep : OnPaths env s s') : s'.Inv env := by
  have hresult : s'.hsResult = s.hsResult := congrArg Search.hsResult hstep.search
  refine ⟨hstep.once h.once, fun hlost => ?_, ?_⟩
  · rw [hresult] at hlost
    exact (hstep.fresh hlost (h.fresh hlost)).1
  · rw [hstep.search]
    cases hlost : s.hsResult.success with
    | false =>
      rw [(hstep.fresh hlost (h.fresh hlost)).2]
      exact h.search
    | true =>
      have hnone := h.search.settled (.inr hlost)
      exact { h.search with settled := fun _ => hnone }

lemma Inv.fail (h : s.Inv env) (hnone : s.pendingRelays = []) (error : ConnectError) :
    (s.fail error).Inv env := by
  refine ⟨h.once.fail error, fun hlost => ?_, ?_⟩
  · have hresult : (s.fail error).hsResult = s.hsResult := congrArg Search.hsResult (search_fail error)
    rw [hresult] at hlost
    have hfresh := h.fresh hlost
    unfold ConnState.fail complete
    split <;> exact hfresh
  · rw [search_fail]
    exact { h.search with settled := fun _ => hnone }

lemma Inv.checkExhaustion (h : s.Inv env) : s.checkExhaustion.Inv env := by
  unfold ConnState.checkExhaustion
  split_ifs with hcompleted hbusy hwaits hqueried hwon
  · exact h
  · exact h
  · exact h
  · exact h
  · exact h
  · exact h.fail (by simpa using hwaits) _

lemma Firing.tryNextRelay (h : s.Firing env) (hopen : s.completed = false) :
    (s.tryNextRelay env here).Inv env := by
  obtain ⟨hdrain, hwaiting⟩ := h.drainRelays here s.pendingRelays
  have hcompleted := (@drainRelays_sameReply env here s s.pendingRelays).completed
  have hlost : s.hsResult.success = false := h.search.lost
  simp only [ConnState.tryNextRelay, hopen, hlost, Bool.false_eq_true, if_false]
  refine Inv.checkExhaustion ⟨hdrain.once, fun _ => hdrain.fresh, hdrain.search.inv hwaiting ?_⟩
  intro hdone
  rw [hcompleted, hopen] at hdone
  exact absurd hdone Bool.false_ne_true

lemma Firing.won (h : s.Firing env) (here : Surroundings) (addr : Ipv4Address)
    {hs : HandshakeResult} (hsuccess : hs.success = true) :
    (onHandshakeSuccess env here
      { s with relayAddr := addr, hsResult := hs, pendingRelays := [] } hs).Inv env := by
  have hlog : s.successes = [] := h.search.nothing.1
  have hsearch : (onHandshakeSuccess env here
      { s with relayAddr := addr, hsResult := hs, pendingRelays := [] } hs).search =
        { s.search with
          relayAddr := addr, hsResult := hs, pendingRelays := [], successes := [(addr, hs)] } := by
    rw [search_onHandshakeSuccess]
    simp [ConnState.search, hlog]
  refine ⟨Once.onHandshakeSuccess (by exact h.once) hs, fun hlost => ?_, ?_⟩
  · have hresult := congrArg (fun x => x.hsResult.success) hsearch
    simp only [ConnState.search] at hresult
    rw [hresult, hsuccess] at hlost
    exact absurd hlost Bool.true_eq_false.mp
  · rw [hsearch]
    exact h.search.won addr hsuccess

/-- The connect after a handshake through a relay has called back. -/
def returned (s : ConnState) (k : ℕ) : ConnState :=
  { s with handshakes := s.handshakes.eraseIdx k, handshakesInFlight := s.handshakesInFlight - 1 }

lemma onHandshake_of_relay {k : ℕ} {x : Handshake} (hk : s.handshakes[k]? = some x)
    (hrelay : x.viaRoute = false) (hs : HandshakeResult) :
    s.onHandshake env here k hs =
      if s.completed then s.returned k
      else if s.hsResult.success then s.returned k
      else if !s.alive || !hs.success then (s.returned k).tryNextRelay env here
      else onHandshakeSuccess env here
        { s.returned k with relayAddr := x.relayAddr, hsResult := hs, pendingRelays := [] } hs := by
  have hresult : s.onHandshake env here k hs =
      if s.completed then s.returned k
      else if s.hsResult.success then (s.returned k).tryNextRelay env here
      else if !s.alive || !hs.success then (s.returned k).tryNextRelay env here
      else onHandshakeSuccess env here
        { s.returned k with relayAddr := x.relayAddr, hsResult := hs, pendingRelays := [] } hs := by
    simp only [onHandshake, hk, hrelay, Bool.false_eq_true, if_false]
    rfl
  rw [hresult]
  by_cases hwon : s.hsResult.success = true
  · have hstill : (s.returned k).hsResult.success = true := hwon
    have hnext : (s.returned k).tryNextRelay env here = s.returned k := by
      simp [tryNextRelay, hstill]
    rw [hnext]
  · rw [if_neg hwon, if_neg hwon]

lemma onHandshake_of_route (h : s.Inv env) {k : ℕ} {x : Handshake} (hk : s.handshakes[k]? = some x)
    (hroute : x.viaRoute = true) (hs : HandshakeResult) :
    s.onHandshake env here k hs =
      if s.completed || !s.alive then { s with handshakes := [] }
      else if hs.success then onHandshakeSuccess env here
        { s with handshakes := [], relayAddr := x.relayAddr, hsResult := hs, pendingRelays := [] } hs
      else { s with handshakes := [] }.startFindPeer := by
  obtain ⟨hempty, hnone, -⟩ := h.search.firing_route hk hroute
  have herase : s.handshakes.eraseIdx k = [] := hempty
  have hpending : s.pendingRelays = [] := hnone
  simp only [onHandshake, hk, hroute, if_true, herase, onRouteResult, hpending]

/-- **A handshake calls back**: its reply wins if it is the first, otherwise the next relays are tried
or, after a handshake over a route, the peer is looked for. -/
lemma Inv.onHandshake (h : s.Inv env) (k : ℕ) (hs : HandshakeResult) :
    (s.onHandshake env here k hs).Inv env := by
  cases hk : s.handshakes[k]? with
  | none => simpa [ConnState.onHandshake, hk] using h
  | some x =>
    cases hroute : x.viaRoute with
    | false =>
      have hfiring (hlost : s.hsResult.success = false) : (s.returned k).Firing env :=
        ⟨h.once, h.fresh hlost, h.search.firing_returned hk hroute hlost⟩
      rw [onHandshake_of_relay hk hroute]
      split_ifs with hcompleted hwon hskip
      · exact ⟨h.once, h.fresh, h.search.returned hk hroute (h.search.settled (.inl hcompleted))⟩
      · exact ⟨h.once, h.fresh, h.search.returned hk hroute (h.search.settled (.inr hwon))⟩
      · exact (hfiring (eq_false_of_ne_true hwon)).tryNextRelay (eq_false_of_ne_true hcompleted)
      · have hsuccess : hs.success = true := by
          simp only [Bool.or_eq_true, Bool.not_eq_true', not_or, Bool.not_eq_false] at hskip
          exact hskip.2
        exact (hfiring (eq_false_of_ne_true hwon)).won here x.relayAddr hsuccess
    | true =>
      obtain ⟨-, hnone, hsearch⟩ := h.search.firing_route hk hroute
      have hpending : s.pendingRelays = [] := hnone
      have hfiring : { s with handshakes := [] }.Firing env :=
        ⟨h.once, h.fresh hsearch.lost, hsearch⟩
      have hkept : { s with handshakes := [] }.Inv env :=
        ⟨h.once, h.fresh, hsearch.inv (fun hne => absurd hpending hne) fun _ => hpending⟩
      rw [onHandshake_of_route h hk hroute]
      split_ifs with hover hsuccess
      · exact hkept
      · exact hfiring.won here x.relayAddr hsuccess
      · unfold startFindPeer
        split
        · exact hkept
        · exact ⟨hkept.once, hkept.fresh, { hkept.search with
            route := fun y hy => absurd hy List.not_mem_nil }⟩

lemma Firing.fireOrQueue (h : s.Firing env) (hopen : s.completed = false)
    (hwaiting : s.pendingRelays ≠ [] → 2 ≤ s.handshakesInFlight) (here : Surroundings)
    (addr : Ipv4Address) :
    (s.fireOrQueue env here addr).Firing env ∧
      ((s.fireOrQueue env here addr).pendingRelays ≠ [] →
        2 ≤ (s.fireOrQueue env here addr).handshakesInFlight) ∧
      (s.fireOrQueue env here addr).completed = false := by
  unfold ConnState.fireOrQueue
  split
  · next hroom =>
    refine ⟨h.fireHandshake hroom addr, fun hne => ?_, ?_⟩
    · rw [pendingRelays_fireHandshake] at hne
      have hfull := hwaiting hne
      omega
    · rw [(fireHandshake_sameReply addr).completed, hopen]
  · next hfull => exact ⟨h.setPending _, fun _ => not_lt.1 hfull, hopen⟩

lemma Firing.inv (h : s.Firing env) (hwaiting : s.pendingRelays ≠ [] → 2 ≤ s.handshakesInFlight)
    (hopen : s.completed = false) : s.Inv env := by
  refine ⟨h.once, fun _ => h.fresh, h.search.inv hwaiting fun hcompleted => ?_⟩
  rw [hopen] at hcompleted
  exact absurd hcompleted Bool.false_ne_true

lemma Inv.onFindPeerReply (h : s.Inv env) (source : Ipv4Address) (value : Option (List UInt8)) :
    (s.onFindPeerReply env here source value).Inv env := by
  unfold ConnState.onFindPeerReply
  split_ifs with hidle hcompleted hwon hempty
  · exact h
  · exact h
  · exact h
  · exact h
  · have hlost : s.hsResult.success = false := eq_false_of_ne_true hwon
    have hopen : s.completed = false := eq_false_of_ne_true hcompleted
    have hfinding : s.finding = true := by simpa using hidle
    have hrelayed : ∀ x ∈ s.handshakes, x.viaRoute = false := by
      intro x hx
      refine eq_false_of_ne_true fun hroute => ?_
      have hnot : s.finding = false := (h.search.route x hx hroute).2.2.1
      simp [hfinding] at hnot
    have hfound : { s.search with found := true }.Inv env s.completed :=
      { h.search with unfound := fun hnot => absurd hnot Bool.true_eq_false.mp }
    have hsearch : { s.search with found := true }.Firing env := hfound.firing hlost rfl hrelayed
    have hfiring : { s with found := true, relays := s.relays ++ [source] }.Firing env :=
      ⟨h.once, h.fresh hlost, hsearch⟩
    obtain ⟨hfired, hwaiting, hstill⟩ :=
      hfiring.fireOrQueue hopen h.search.waiting here source
    exact hfired.inv hwaiting hstill

/-- **The end of the search**: nothing is left to be done, or the connect fails, and then the peer was not found or
no handshake has succeeded. -/
lemma onFindPeerDone_cases (s : ConnState) :
    s.onFindPeerDone = s ∨ s.onFindPeerDone = { s with finding := false, queryDone := true } ∨
      (s.found = false ∨ s.hsResult.success = false) ∧ ∃ error,
        s.onFindPeerDone = ({ s with finding := false, queryDone := true } : ConnState).fail error := by
  unfold onFindPeerDone
  split
  · exact .inl rfl
  · dsimp only
    split
    · exact .inr (.inl rfl)
    · split
      next hnone =>
        rw [Bool.and_eq_true, Bool.not_eq_true'] at hnone
        exact .inr (.inr ⟨.inl hnone.1, _, rfl⟩)
      next hsome =>
        unfold checkExhaustion
        split
        · exact .inr (.inl rfl)
        · split
          · exact .inr (.inl rfl)
          · split
            · exact .inr (.inl rfl)
            · split
              · exact .inr (.inl rfl)
              · split
                · exact .inr (.inl rfl)
                next hlost => exact .inr (.inr ⟨.inr (eq_false_of_ne_true hlost), _, rfl⟩)

lemma Inv.onFindPeerDone (h : s.Inv env) : s.onFindPeerDone.Inv env := by
  have hended : { s with finding := false, queryDone := true }.Inv env :=
    ⟨h.once, h.fresh, { h.search with
      route := fun x hx hroute => ⟨(h.search.route x hx hroute).1, (h.search.route x hx hroute).2.1, rfl,
        (h.search.route x hx hroute).2.2.2⟩ }⟩
  unfold ConnState.onFindPeerDone
  split
  · exact h
  · dsimp only
    split_ifs with hcompleted hnothing
    · exact hended
    · have hfound : s.found = false := by
        simp only [Bool.and_eq_true, Bool.not_eq_true'] at hnothing
        exact hnothing.1
      exact hended.fail (h.search.unfound hfound).2.1 _
    · exact hended.checkExhaustion

end ConnState

/-! ### Runs -/

section

variable {env : Env}

lemma firing_foldl (here : Surroundings) (relays : List Ipv4Address) {s : ConnState}
    (h : s.Firing env) (hopen : s.completed = false)
    (hwaiting : s.pendingRelays ≠ [] → 2 ≤ s.handshakesInFlight) :
    (relays.foldl (ConnState.fireOrQueue env here) s).Inv env := by
  induction relays generalizing s with
  | nil => exact h.inv hwaiting hopen
  | cons addr rest ih =>
    obtain ⟨hfired, hwaits, hstill⟩ := h.fireOrQueue hopen hwaiting here addr
    exact ih hfired hstill hwaits

lemma inv_start_of_route {here : Surroundings} {addr : Ipv4Address} (hroute : env.route = some addr) :
    (start env here).Inv env := by
  have hrefusals := refusals_succ env 0
  have hzero : refusals env 0 = 0 := rfl
  have hrefused : routeRefused env = refusals env 1 := by
    rw [hrefusals, hzero, routeRefused, hroute]
    cases env.accepts 0 <;> rfl
  simp only [start, hroute, ConnState.peerHandshake]
  refine ⟨rfl, fun _ => ⟨rfl, rfl, rfl, rfl, rfl⟩, Nat.zero_le _, ?_, ?_, ?_, fun hne => absurd rfl hne,
    fun _ => rfl, fun hnot => absurd hnot Bool.true_eq_false.mp,
    fun hnone => absurd (hroute.symm.trans hnone) (Option.some_ne_none addr), ?_,
    .inl ⟨rfl, rfl, rfl⟩⟩
  · simp only [ConnState.search]
    split <;> rfl
  · simp only [ConnState.search, hrefused]
    split <;> simp
  · intro x hx _
    simp only [ConnState.search] at hx ⊢
    split at hx <;> simp_all
  · intro x hx
    simp only [ConnState.search] at hx
    split at hx
    · rw [List.nil_append, List.mem_singleton] at hx
      exact ⟨firewallUnknown, [], by decide, fun _ => rfl, by rw [hx]; rfl⟩
    · exact absurd hx List.not_mem_nil

lemma ConnState.Inv.startFindPeer {s : ConnState} (h : s.Inv env) (hroute : env.route = none) :
    s.startFindPeer.Inv env := by
  unfold ConnState.startFindPeer
  split
  · exact h
  · exact ⟨h.once, h.fresh, { h.search with
      route := fun x hx hvia => by simp [h.search.routed hroute x hx] at hvia }⟩

lemma inv_start (here : Surroundings) : (start env here).Inv env := by
  cases hroute : env.route with
  | some addr => exact inv_start_of_route hroute
  | none =>
    have hrefused : 0 + routeRefused env = 0 + refusals env 0 := by
      simp [routeRefused, refusals, hroute]
    simp only [start, hroute]
    cases hcached : env.cachedRelays with
    | nil =>
      refine ConnState.Inv.startFindPeer ⟨rfl, fun _ => ⟨rfl, rfl, rfl, rfl, rfl⟩, ?_⟩ hroute
      exact ⟨Nat.zero_le _, Nat.zero_le _, hrefused, fun x hx => absurd hx List.not_mem_nil,
        fun hne => absurd rfl hne, fun _ => rfl, fun _ => ⟨rfl, rfl, rfl⟩,
        fun _ x hx => absurd hx List.not_mem_nil, fun x hx => absurd hx List.not_mem_nil,
        .inl ⟨rfl, rfl, rfl⟩⟩
    | cons addr rest =>
      refine (firing_foldl here (addr :: rest) (s := _) ⟨by rfl, ⟨rfl, rfl, rfl, rfl, rfl⟩, ?_⟩ rfl
        fun hne => absurd rfl hne).startFindPeer hroute
      exact ⟨rfl, Nat.zero_le _, Nat.zero_le _, hrefused, fun x hx => absurd hx List.not_mem_nil,
        rfl, rfl, rfl⟩

/-- **Every step keeps the invariant.** -/
theorem inv_step (s : ConnState) (i : Input) (h : s.Inv env) : (step env s i).Inv env := by
  cases i with
  | findPeerReply here source value => exact h.onFindPeerReply source value
  | findPeerDone => exact h.onFindPeerDone
  | handshake here k hs => exact h.onHandshake k hs
  | packet socket source => exact h.onPaths (onPaths_step rfl)
  | relayConnect error result channel => exact h.onPaths (onPaths_step rfl)
  | relayPair remoteId => exact h.onPaths (onPaths_step rfl)
  | relayPairFailed => exact h.onPaths (onPaths_step rfl)
  | relayTimeout => exact h.onPaths (onPaths_step rfl)
  | passiveTimeout => exact h.onPaths (onPaths_step rfl)
  | lanPing ok => exact h.onPaths (onPaths_step rfl)
  | holepunch hp => exact h.onPaths (onPaths_step rfl)
  | destroy =>
    exact ⟨h.once, h.fresh, h.search.inFlight_le, h.search.counted_le, h.search.counted,
      h.search.route, h.search.waiting, h.search.settled, h.search.unfound, h.search.routed,
      h.search.written, h.search.successes⟩

/-- **The invariant holds after every run.** -/
theorem inv_run (here : Surroundings) (is : List Input) :
    (run (step env) (start env here) is).Inv env :=
  run_invariant inv_step (inv_start here) is

end

end HyperDHT.Connect
