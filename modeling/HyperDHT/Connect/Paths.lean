import HyperDHT.Connect.Steps

/-!
# A connect should not give up early

After a handshake has succeeded several paths to the peer may be under way, and the first that gets
there completes the connect. A relay that fails leaves the connect to the others; but a holepunch that
fails, a wait that ends and a peer that offers no address complete it with an error at once, whatever
the other paths do.

## Main definitions

* `Connect.Path` — the paths to the peer, and `Connect.Input.onPath` — their events.
* `Connect.CanSucceed` — a path can still complete a connect that has not been completed.
* `Connect.NotEarly` — a step completes the connect with an error only when no path can succeed.
* `Connect.GivesUp` — the event on which a connect gives up.
* `Connect.NothingElse` — no relay is under way and no ping unanswered when a connect gives up.

## Main results

* `Connect.canSucceed_relay_iff` — a relay can succeed while it is connected to, and while it pairs.
* `Connect.notEarly_iff` — a step is not early exactly when nothing else is under way.
* `Connect.notEarly_run_iff` — the same of the steps of a run.
-/

set_option autoImplicit false

namespace HyperDHT.Connect

open Compact Runs

variable {env : Env} {here : Surroundings} {s : ConnState}

/-! ## Paths -/

/-- The paths to a peer whose handshake has succeeded. -/
inductive Path where
  | relay
  | lanPing
  | holepunch
  | passive
  deriving DecidableEq

/-- The event is one of the path. -/
def Input.onPath : Input → Path → Bool
  | .relayConnect .., .relay | .relayPair .., .relay | .relayPairFailed, .relay => true
  | .lanPing .., .lanPing => true
  | .holepunch .., .holepunch => true
  | .packet .., .passive => true
  | _, _ => false

/-- The path was begun, and is not over as far as the connect can tell. -/
def Begun (s : ConnState) : Path → Prop
  | .relay => s.relay.isSome = true
  | .lanPing => s.lanPing.isSome = true
  | .holepunch => s.holepunch.isSome = true
  | .passive => s.passiveTimer = true

/-- The connect as if its callback had not been called. -/
def reopened (s : ConnState) : ConnState := { s with completed := false, completions := [] }

/-- The path was begun, and its events can still complete the connect without an error. -/
def CanSucceed (env : Env) (s : ConnState) (p : Path) : Prop :=
  Begun s p ∧ ∃ is : List Input, (∀ i ∈ is, i.onPath p = true) ∧
    ∃ c ∈ (run (step env) (reopened s) is).completions, c.error = .none

/-- A step that completes the connect with an error leaves no path that could have succeeded. -/
def NotEarly (env : Env) (s : ConnState) (i : Input) : Prop :=
  s.completed = false → (∃ c ∈ (step env s i).completions, c.error ≠ .none) →
    ∀ p, ¬ CanSucceed env (step env s i) p

/-! ## When a relay can succeed -/

/-- The relay is being connected to, or pairs the sides over a stream that is connected. -/
def RelayUnderWay (s : ConnState) : Prop :=
  s.alive = true ∧ ∃ r, s.relay = some r ∧
    (r.phase = .connecting ∨ r.phase = .pairing ∧ r.stream.isSome = true)

lemma not_underWay_step {i : Input} (hi : i.onPath .relay = true) (hrelay : ¬ RelayUnderWay s) :
    ¬ RelayUnderWay (step env s i) ∧ (step env s i).completions = s.completions := by
  cases i with
  | relayConnect error result channel =>
    simp only [step, ConnState.onRelayConnect]
    split
    · exact ⟨hrelay, rfl⟩
    · next r hr =>
      split
      · exact ⟨hrelay, rfl⟩
      · next hphase =>
        split
        · exact ⟨hrelay, rfl⟩
        · next hover =>
          -- a relay that is being connected to by a node that lives is under way
          refine absurd ⟨?_, r, hr, .inl (not_not.1 hphase)⟩ hrelay
          simp only [Bool.or_eq_true, Bool.not_eq_true', not_or, Bool.not_eq_false] at hover
          exact hover.2
  | relayPair remoteId =>
    simp only [step, ConnState.onRelayPair]
    split
    · exact ⟨hrelay, rfl⟩
    · next r hr =>
      split
      · exact ⟨hrelay, rfl⟩
      · next hphase =>
        split
        · exact ⟨hrelay, rfl⟩
        · next socket addr hstream =>
          split
          · exact ⟨hrelay, rfl⟩
          · next hover =>
            refine absurd ⟨?_, r, hr, .inr ⟨not_not.1 hphase, by simp [hstream]⟩⟩ hrelay
            simp only [Bool.or_eq_true, Bool.not_eq_true', not_or, Bool.not_eq_false] at hover
            exact hover.2
  | relayPairFailed =>
    simp only [step, ConnState.onRelayPairFailed]
    split
    · exact ⟨hrelay, rfl⟩
    · next r hr =>
      split_ifs with hphase hover
      · exact ⟨hrelay, rfl⟩
      · exact ⟨hrelay, rfl⟩
      · refine ⟨?_, rfl⟩
        rintro ⟨-, r', hr', hway⟩
        obtain rfl := Option.some.inj hr'
        simp at hway
  | findPeerReply here source value => exact absurd hi Bool.false_ne_true
  | findPeerDone => exact absurd hi Bool.false_ne_true
  | handshake here k hs => exact absurd hi Bool.false_ne_true
  | packet socket source => exact absurd hi Bool.false_ne_true
  | relayTimeout => exact absurd hi Bool.false_ne_true
  | passiveTimeout => exact absurd hi Bool.false_ne_true
  | lanPing ok => exact absurd hi Bool.false_ne_true
  | holepunch hp => exact absurd hi Bool.false_ne_true
  | destroy => exact absurd hi Bool.false_ne_true

lemma completions_of_not_underWay (hrelay : ¬ RelayUnderWay s) {is : List Input}
    (his : ∀ i ∈ is, i.onPath .relay = true) : (run (step env) s is).completions = s.completions := by
  induction is generalizing s with
  | nil => rfl
  | cons i is ih =>
    obtain ⟨hstill, hsame⟩ := @not_underWay_step env s i (his i List.mem_cons_self) hrelay
    rw [run_cons, ih hstill fun j hj => his j (List.mem_cons_of_mem i hj), hsame]

lemma completions_succeed (hopen : s.completed = false) (hs : HandshakeResult) (addr : Ipv4Address)
    (socket : Option ℕ) (via : Option RelayVia) :
    ∃ c, (s.succeed env hs addr socket via).completions = s.completions ++ [c] ∧ c.error = .none := by
  simp [ConnState.succeed, ConnState.complete, hopen]

/-- **A relay can succeed** while it is being connected to, and while it pairs the sides. -/
theorem canSucceed_relay_iff : CanSucceed env s .relay ↔ RelayUnderWay s := by
  constructor
  · rintro ⟨-, is, his, c, hc, -⟩
    by_contra hrelay
    have hreopened : ¬ RelayUnderWay (reopened s) := hrelay
    rw [completions_of_not_underWay hreopened his] at hc
    exact absurd hc List.not_mem_nil
  · rintro ⟨halive, r, hr, hway⟩
    refine ⟨by simp [Begun, hr], ?_⟩
    rcases hway with hconnecting | ⟨hpairing, hstream⟩
    · refine ⟨[.relayConnect .none { success := true, rawStream := true, udxSocket := some 0 } true,
        .relayPair 0], by simp [Input.onPath], ?_⟩
      simp [run, step, reopened, ConnState.onRelayConnect, ConnState.onRelayPair, hr, hconnecting,
        halive, ConnState.succeed, ConnState.complete]
    · obtain ⟨⟨socket, addr⟩, hstream⟩ := Option.isSome_iff_exists.1 hstream
      refine ⟨[.relayPair 0], by simp [Input.onPath], ?_⟩
      simp [run, step, reopened, ConnState.onRelayPair, hr, hpairing, hstream, halive,
        ConnState.succeed, ConnState.complete]

/-- **A ping can succeed** while it is not answered. -/
theorem canSucceed_lanPing_iff : CanSucceed env s .lanPing ↔ s.lanPing ≠ none := by
  constructor
  · rintro ⟨hbegun, -⟩ hnone
    simp [Begun, hnone] at hbegun
  · intro hne
    obtain ⟨addr, hping⟩ := Option.ne_none_iff_exists'.1 hne
    refine ⟨by simp [Begun, hping], [.lanPing true], by simp [Input.onPath], ?_⟩
    simp [run, step, reopened, ConnState.onLanPing, hping, ConnState.succeed, ConnState.complete]

/-! ## When a connect gives up -/

/-- The payload names no address, and no relay for a holepunch. -/
def OffersNothing (p : NoisePayload) : Prop :=
  p.addresses4 = [] ∧ ∀ hp, p.holepunch = some hp → hp.relays = []

/-- The `k`-th handshake that has not called back is the first to succeed. -/
def Wins (s : ConnState) (k : ℕ) (hs : HandshakeResult) : Prop :=
  s.alive = true ∧ s.hsResult.success = false ∧ hs.success = true ∧ k < s.handshakes.length

/-- The events on which a connect gives up although its handshake has succeeded: the payload of the peer
offers nothing, the wait ends, or the holepunch fails. -/
def GivesUp (s : ConnState) : Input → Prop
  | .handshake _ k hs => Wins s k hs ∧ s.cachedFw = none ∧ OffersNothing hs.remotePayload
  | .passiveTimeout => s.passiveTimer = true
  | .holepunch hp => s.holepunch ≠ none ∧ (s.alive = false ∨ hp.success = false)
  | _ => False

/-- Nothing else is under way. A handshake that wins begins the way through a relay if one of the sides
names one, unless the connect to it is refused at once; later a relay must not be under way, nor a ping
unanswered. -/
def NothingElse (env : Env) (s : ConnState) : Input → Prop
  | .handshake here _ hs =>
    hs.remotePayload.relayThrough = none ∧ env.relayThrough = none ∨ here.relayRefused = true
  | _ => ¬ RelayUnderWay s ∧ s.lanPing = none

/-- The ping and the holepunch are begun together, and the wait without them. -/
def Apart (s : ConnState) : Prop := s.passiveTimer = true → s.lanPing = none ∧ s.holepunch = none

/-! ### What a connect is completed with -/

/-- The callback was not called with an error. -/
def NoError (s : ConnState) : Prop := ∀ c ∈ s.completions, c.error = .none

lemma noError_of_nil (hnone : s.completions = []) : NoError s := by
  simp [NoError, hnone]

lemma noError_succeed (hopen : s.completed = false) (hnone : s.completions = [])
    (hs : HandshakeResult) (addr : Ipv4Address) (socket : Option ℕ) (via : Option RelayVia) :
    NoError (s.succeed env hs addr socket via) := by
  obtain ⟨c, hcompletions, hc⟩ := @completions_succeed env s hopen hs addr socket via
  simp [NoError, hcompletions, hnone, hc]

lemma exists_error_fail (hopen : s.completed = false) {error : ConnectError} (herror : error ≠ .none) :
    ∃ c ∈ (s.fail error).completions, c.error ≠ .none := by
  simp [ConnState.fail, ConnState.complete, hopen, herror]

lemma ConnState.Inv.completions_eq_nil (h : s.Inv env) (hopen : s.completed = false) :
    s.completions = [] := by
  have honce := h.once
  simp only [ConnState.Once, hopen, Bool.false_eq_true, if_false] at honce
  exact List.length_eq_zero_iff.1 honce

lemma notEarly_of_noError {i : Input} (h : s.completed = false → NoError (step env s i)) :
    NotEarly env s i := by
  rintro hopen ⟨c, hc, herror⟩
  exact absurd (h hopen c hc) herror

lemma not_canSucceed_of_fresh (h : s.Fresh env) (p : Path) : ¬ CanSucceed env s p := by
  rintro ⟨hbegun, -⟩
  cases p with
  | relay => simp [Begun, h.relay] at hbegun
  | lanPing => simp [Begun, h.lanPing] at hbegun
  | holepunch => simp [Begun, h.holepunch] at hbegun
  | passive => simp [Begun, h.passiveTimer] at hbegun

lemma none_canSucceed_iff (hpunch : s.holepunch = none) (hwait : s.passiveTimer = false) :
    (∀ p, ¬ CanSucceed env s p) ↔ ¬ RelayUnderWay s ∧ s.lanPing = none := by
  constructor
  · intro hall
    refine ⟨fun hrelay => hall .relay (canSucceed_relay_iff.2 hrelay), ?_⟩
    by_contra hping
    exact hall .lanPing (canSucceed_lanPing_iff.2 hping)
  · rintro ⟨hrelay, hping⟩ p hp
    cases p with
    | relay => exact hrelay (canSucceed_relay_iff.1 hp)
    | lanPing => exact canSucceed_lanPing_iff.1 hp hping
    | holepunch => simp [CanSucceed, Begun, hpunch] at hp
    | passive => simp [CanSucceed, Begun, hwait] at hp

lemma fail_paths (error : ConnectError) :
    (s.fail error).relay = s.relay ∧ (s.fail error).lanPing = s.lanPing ∧
      (s.fail error).holepunch = s.holepunch ∧ (s.fail error).passiveTimer = s.passiveTimer ∧
      (s.fail error).alive = s.alive := by
  unfold ConnState.fail ConnState.complete
  split <;> exact ⟨rfl, rfl, rfl, rfl, rfl⟩

lemma underWay_fail (error : ConnectError) : RelayUnderWay (s.fail error) ↔ RelayUnderWay s := by
  obtain ⟨hrelay, -, -, -, halive⟩ := @fail_paths s error
  simp only [RelayUnderWay, hrelay, halive]

/-- **A failure with nothing but the relay and the ping left** is not early exactly when neither is
under way. -/
lemma notEarly_fail_iff {i : Input} {t : ConnState} {error : ConnectError}
    (hstep : step env s i = t.fail error)
    (hopen : s.completed = false) (ht : t.completed = false) (herror : error ≠ .none)
    (hpunch : t.holepunch = none) (hwait : t.passiveTimer = false) :
    NotEarly env s i ↔ ¬ RelayUnderWay t ∧ t.lanPing = none := by
  obtain ⟨-, hping, hpunch', hwait', -⟩ := @fail_paths t error
  unfold NotEarly
  rw [hstep, none_canSucceed_iff (hpunch'.trans hpunch) (hwait'.trans hwait), underWay_fail, hping]
  simp only [hopen, exists_error_fail ht herror, forall_const]

/-! ### The handshake that wins -/

lemma choosePath_of_offersNothing {hs : HandshakeResult} (h : OffersNothing hs.remotePayload) :
    s.choosePath env here hs = s.fail .noAddresses := by
  have hdirect : ConnState.tryDirectConnect hs = none := by
    unfold ConnState.tryDirectConnect
    split_ifs
    · rfl
    · rw [h.1, List.head?_nil]
    · rfl
  unfold ConnState.choosePath
  rw [hdirect]
  dsimp only
  split
  · next id first rest hhp => exact absurd (h.2 _ hhp) (List.cons_ne_nil first rest)
  · rw [h.1]

lemma noError_choosePath (hopen : s.completed = false) (hnone : s.completions = [])
    {hs : HandshakeResult} (h : ¬ OffersNothing hs.remotePayload) :
    NoError (s.choosePath env here hs) := by
  unfold ConnState.choosePath
  split
  · exact noError_succeed hopen hnone _ _ _ _
  · split
    · refine noError_of_nil ?_
      unfold ConnState.startPaths
      split <;> exact hnone
    · next hrelays =>
      split
      · exact noError_succeed hopen hnone _ _ _ _
      · next haddresses =>
        refine absurd ⟨haddresses, fun hp hhp => ?_⟩ h
        obtain ⟨id, relays⟩ := hp
        cases relays with
        | nil => rfl
        | cons first rest => exact absurd hhp (hrelays id first rest)

lemma underWay_chooseRelay (hnone : s.relay = none) (halive : s.alive = true) (hs : HandshakeResult) :
    ¬ RelayUnderWay (s.chooseRelay env here hs) ↔
      hs.remotePayload.relayThrough = none ∧ env.relayThrough = none ∨ here.relayRefused = true := by
  unfold ConnState.chooseRelay
  split
  · next theirs _ htheirs =>
    simp only [ConnState.startRelayPath, RelayUnderWay, halive, htheirs]
    cases here.relayRefused <;> simp
  · next key htheirs hours =>
    simp only [ConnState.startRelayPath, RelayUnderWay, halive, htheirs, hours]
    cases here.relayRefused <;> simp
  · next htheirs hours =>
    simp [RelayUnderWay, hnone, htheirs, hours]

lemma chooseRelay_paths (hs : HandshakeResult) :
    (s.chooseRelay env here hs).completed = s.completed ∧
      (s.chooseRelay env here hs).completions = s.completions ∧
      (s.chooseRelay env here hs).lanPing = s.lanPing ∧
      (s.chooseRelay env here hs).holepunch = s.holepunch ∧
      (s.chooseRelay env here hs).passiveTimer = s.passiveTimer := by
  unfold ConnState.chooseRelay
  split <;> exact ⟨rfl, rfl, rfl, rfl, rfl⟩

/-- **The handshake that wins** is not the end too early exactly when the peer offers something or no
relay is begun; a packet that came before is a success. -/
lemma notEarly_won_iff {t : ConnState} {i : Input} {hs : HandshakeResult}
    (hstep : step env s i = t.onHandshakeSuccess env here hs) (hsopen : s.completed = false)
    (hopen : t.completed = false) (hnone : t.completions = []) (hfresh : t.Fresh env)
    (halive : t.alive = true) :
    NotEarly env s i ↔ (t.cachedFw = none → OffersNothing hs.remotePayload →
      hs.remotePayload.relayThrough = none ∧ env.relayThrough = none ∨ here.relayRefused = true) := by
  set t' : ConnState := { t with successes := t.successes ++ [(t.relayAddr, hs)] } with ht'
  cases hpacket : t.cachedFw with
  | some packet =>
    have hresult : t.onHandshakeSuccess env here hs = t'.succeed env hs packet.2 (some packet.1) none := by
      simp [ConnState.onHandshakeSuccess, ht', hpacket, hopen]
    refine iff_of_true (notEarly_of_noError fun _ => ?_) fun hcached => absurd hcached (by simp)
    rw [hstep, hresult]
    exact noError_succeed (s := t') hopen hnone _ _ _ _
  | none =>
    have hresult : t.onHandshakeSuccess env here hs =
        (t'.chooseRelay env here hs).choosePath env here hs := by
      simp [ConnState.onHandshakeSuccess, ht', hpacket]
    obtain ⟨hopen', hnone', hping, hpunch, hwait⟩ := @chooseRelay_paths env here t' hs
    by_cases hnothing : OffersNothing hs.remotePayload
    · have hfail : step env s i = (t'.chooseRelay env here hs).fail .noAddresses := by
        rw [hstep, hresult, choosePath_of_offersNothing hnothing]
      have hrelay := @underWay_chooseRelay env here t' hfresh.relay halive hs
      rw [notEarly_fail_iff hfail hsopen (hopen'.trans hopen) (by simp) (hpunch.trans hfresh.holepunch)
        (hwait.trans hfresh.passiveTimer), hrelay]
      have hnoping : (t'.chooseRelay env here hs).lanPing = none := hping.trans hfresh.lanPing
      simp [hnothing, hnoping]
    · refine iff_of_true (notEarly_of_noError fun _ => ?_) fun _ h => absurd h hnothing
      rw [hstep, hresult]
      exact noError_choosePath (hopen'.trans hopen) (hnone'.trans hnone) hnothing

/-! ## A step is not early exactly when nothing else is under way -/

lemma notEarly_of_lost {i : Input} (h : s.Inv env) (hlost : (step env s i).hsResult.success = false) :
    NotEarly env s i := by
  intro _ _ p
  exact not_canSucceed_of_fresh ((inv_step s i h).fresh hlost) p

lemma hsResult_onFindPeerReply (source : Ipv4Address) (value : Option (List UInt8)) :
    (s.onFindPeerReply env here source value).hsResult = s.hsResult ∧
      (s.onFindPeerReply env here source value).completions = s.completions := by
  unfold ConnState.onFindPeerReply ConnState.fireOrQueue ConnState.fireHandshake
  split_ifs <;> exact ⟨rfl, rfl⟩

lemma hsResult_fail (s : ConnState) (error : ConnectError) : (s.fail error).hsResult = s.hsResult := by
  unfold ConnState.fail ConnState.complete
  split <;> rfl

lemma notEarly_findPeerDone (h : s.Inv env) : NotEarly env s .findPeerDone := by
  cases hwon : s.hsResult.success with
  | false =>
    refine notEarly_of_lost h ?_
    have hresult : s.onFindPeerDone.hsResult = s.hsResult := by
      obtain heq | heq | ⟨-, error, heq⟩ := ConnState.onFindPeerDone_cases s
      · rw [heq]
      · rw [heq]
      · rw [heq, hsResult_fail]
    exact (congrArg (·.success) hresult).trans hwon
  | true =>
    -- a reply has won, so that the peer was found and nothing is exhausted
    refine notEarly_of_noError fun hopen => noError_of_nil ?_
    have hfound : s.found = true := by
      refine eq_true_of_ne_false fun hnot => ?_
      have hlost : s.hsResult.success = false := (h.search.unfound hnot).2.2
      rw [hwon] at hlost
      exact absurd hlost Bool.true_eq_false.mp
    rw [← h.completions_eq_nil hopen]
    show s.onFindPeerDone.completions = s.completions
    obtain heq | heq | ⟨hnot | hlost, -⟩ := ConnState.onFindPeerDone_cases s
    · rw [heq]
    · rw [heq]
    · exact absurd (hnot.symm.trans hfound) Bool.false_ne_true
    · exact absurd (hlost.symm.trans hwon) Bool.false_ne_true

lemma notEarly_wins_iff {t : ConnState} {k : ℕ} {hs : HandshakeResult}
    (hstep : step env s (.handshake here k hs) = t.onHandshakeSuccess env here hs)
    (hopen : t.completed = false) (hnone : t.completions = []) (hfresh : t.Fresh env)
    (halive : t.alive = true) (hsame : t.cachedFw = s.cachedFw ∧ t.completed = s.completed)
    (hwins : Wins s k hs) :
    NotEarly env s (.handshake here k hs) ↔
      (GivesUp s (.handshake here k hs) → NothingElse env s (.handshake here k hs)) := by
  rw [notEarly_won_iff hstep (hsame.2 ▸ hopen) hopen hnone hfresh halive, hsame.1]
  simp only [GivesUp, NothingElse, hwins, true_and, and_imp]

/-- **A handshake calls back**: if it wins, this is not the end too early exactly when the peer offers
something or no relay is begun. -/
lemma notEarly_handshake_iff (h : s.Inv env) (k : ℕ) (hs : HandshakeResult)
    (hopen : s.completed = false) :
    NotEarly env s (.handshake here k hs) ↔
      (GivesUp s (.handshake here k hs) → NothingElse env s (.handshake here k hs)) := by
  have hnone := h.completions_eq_nil hopen
  cases hk : s.handshakes[k]? with
  | none =>
    refine iff_of_true (notEarly_of_noError fun _ => noError_of_nil ?_) fun hgives => ?_
    · simp [step, ConnState.onHandshake, hk, hnone]
    · exact absurd hgives.1.2.2.2 (not_lt.2 (List.getElem?_eq_none_iff.1 hk))
  | some x =>
    have hbound : k < s.handshakes.length := (List.getElem?_eq_some_iff.1 hk).1
    cases hroute : x.viaRoute with
    | false =>
      have hresult := @ConnState.onHandshake_of_relay env here s k x hk hroute hs
      rw [if_neg (ne_true_of_eq_false hopen)] at hresult
      by_cases hwon : s.hsResult.success = true
      · rw [if_pos hwon] at hresult
        refine iff_of_true (notEarly_of_noError fun _ => noError_of_nil ?_) fun hgives => ?_
        · simp only [step, hresult]
          exact hnone
        · exact absurd (hwon.symm.trans hgives.1.2.1) Bool.true_eq_false.mp
      · have hlost : s.hsResult.success = false := eq_false_of_ne_true hwon
        rw [if_neg hwon] at hresult
        by_cases hskip : (!s.alive || !hs.success) = true
        · rw [if_pos hskip] at hresult
          refine iff_of_true (notEarly_of_lost h ?_) fun hgives => ?_
          · simp only [step, hresult, ConnState.tryNextRelay_kept.1]
            exact hlost
          · simp [hgives.1.1, hgives.1.2.2.1] at hskip
        · rw [if_neg hskip] at hresult
          simp only [Bool.or_eq_true, Bool.not_eq_true', not_or, Bool.not_eq_false] at hskip
          exact notEarly_wins_iff hresult hopen hnone (h.fresh hlost) hskip.1 ⟨rfl, rfl⟩
            ⟨hskip.1, hlost, hskip.2, hbound⟩
    | true =>
      have hlost : s.hsResult.success = false :=
        (h.search.route x (List.mem_of_getElem? hk) hroute).2.2.2
      have hresult := @ConnState.onHandshake_of_route env here s h k x hk hroute hs
      by_cases hover : (s.completed || !s.alive) = true
      · rw [if_pos hover] at hresult
        refine iff_of_true (notEarly_of_noError fun _ => noError_of_nil ?_) fun hgives => ?_
        · simp only [step, hresult]
          exact hnone
        · simp [hgives.1.1, hopen] at hover
      · rw [if_neg hover] at hresult
        simp only [Bool.or_eq_true, Bool.not_eq_true', not_or, Bool.not_eq_false] at hover
        by_cases hsuccess : hs.success = true
        · rw [if_pos hsuccess] at hresult
          exact notEarly_wins_iff hresult hopen hnone (h.fresh hlost) hover.2 ⟨rfl, rfl⟩
            ⟨hover.2, hlost, hsuccess, hbound⟩
        · rw [if_neg hsuccess] at hresult
          refine iff_of_true (notEarly_of_noError fun _ => noError_of_nil ?_) fun hgives => ?_
          · simp only [step, hresult, ConnState.startFindPeer]
            split <;> exact hnone
          · exact absurd hgives.1.2.2.1 hsuccess

lemma notEarly_passiveTimeout_iff (h : s.Inv env) (hapart : Apart s) (hopen : s.completed = false) :
    NotEarly env s .passiveTimeout ↔ (GivesUp s .passiveTimeout → NothingElse env s .passiveTimeout) := by
  by_cases harmed : s.passiveTimer = true
  · have hfail : step env s .passiveTimeout = { s with passiveTimer := false }.fail .holepunchTimeout := by
      simp [step, ConnState.onPassiveTimeout, harmed, hopen]
    have hpunch : s.holepunch = none := (hapart harmed).2
    rw [notEarly_fail_iff hfail hopen hopen (by simp) hpunch rfl]
    simp only [GivesUp, NothingElse, harmed, forall_const]
    rfl
  · refine iff_of_true (notEarly_of_noError fun _ => noError_of_nil ?_) fun hgives =>
      absurd hgives harmed
    have hidle : step env s .passiveTimeout = s := by
      simp [step, ConnState.onPassiveTimeout, eq_false_of_ne_true harmed]
    rw [hidle]
    exact h.completions_eq_nil hopen

lemma notEarly_holepunch_iff (h : s.Inv env) (hapart : Apart s) (hopen : s.completed = false)
    (hp : HolepunchResult) :
    NotEarly env s (.holepunch hp) ↔ (GivesUp s (.holepunch hp) → NothingElse env s (.holepunch hp)) := by
  have hnone := h.completions_eq_nil hopen
  cases hcall : s.holepunch with
  | none =>
    refine iff_of_true (notEarly_of_noError fun _ => noError_of_nil ?_) fun hgives =>
      absurd hcall hgives.1
    simp [step, ConnState.onHolepunch, hcall, hnone]
  | some call =>
    by_cases hfails : (!s.alive || !hp.success) = true
    · have hfail : step env s (.holepunch hp) = { s with holepunch := none }.fail .holepunchFailed := by
        simp only [step, ConnState.onHolepunch, hcall, hopen, Bool.false_eq_true, if_false]
        exact if_pos hfails
      have hwait : s.passiveTimer = false := by
        refine eq_false_of_ne_true fun harmed => ?_
        simp [(hapart harmed).2] at hcall
      have hgives : GivesUp s (.holepunch hp) := by
        simp only [Bool.or_eq_true, Bool.not_eq_true'] at hfails
        exact ⟨by simp [hcall], hfails⟩
      rw [notEarly_fail_iff hfail hopen hopen (by simp) rfl hwait]
      simp only [hgives, NothingElse, forall_const]
      rfl
    · refine iff_of_true (notEarly_of_noError fun _ => ?_) fun hgives => ?_
      · have hsucceeds : step env s (.holepunch hp) =
            { s with holepunch := none }.succeed env s.hsResult hp.address hp.socket none := by
          simp only [step, ConnState.onHolepunch, hcall, hopen, Bool.false_eq_true, if_false]
          exact if_neg hfails
        rw [hsucceeds]
        exact noError_succeed (s := { s with holepunch := none }) hopen hnone _ _ _ _
      · rcases hgives.2 with hdead | hfailed
        · simp [hdead] at hfails
        · simp [hfailed] at hfails

lemma noError_path (h : s.Inv env) (hopen : s.completed = false) {i : Input}
    (hi : i.ofPath = true) (hwait : i ≠ .passiveTimeout) (hpunch : ∀ hp, i ≠ .holepunch hp) :
    NoError (step env s i) := by
  have hnone := h.completions_eq_nil hopen
  cases i with
  | packet socket source =>
    simp only [step, ConnState.onPacket]
    split_ifs
    · exact noError_of_nil hnone
    · exact noError_of_nil hnone
    · exact noError_of_nil hnone
    · exact noError_of_nil hnone
    · exact noError_succeed hopen hnone _ _ _ _
  | relayConnect error result channel =>
    simp only [step, ConnState.onRelayConnect]
    split
    · exact noError_of_nil hnone
    · split_ifs <;> exact noError_of_nil hnone
  | relayPair remoteId =>
    simp only [step, ConnState.onRelayPair]
    split
    · exact noError_of_nil hnone
    · split
      · exact noError_of_nil hnone
      · split
        · exact noError_of_nil hnone
        · split
          · exact noError_of_nil hnone
          · exact noError_succeed (by exact hopen) (by exact hnone) _ _ _ _
  | relayPairFailed =>
    simp only [step, ConnState.onRelayPairFailed]
    split
    · exact noError_of_nil hnone
    · split_ifs <;> exact noError_of_nil hnone
  | relayTimeout => exact noError_of_nil hnone
  | passiveTimeout => exact absurd rfl hwait
  | lanPing ok =>
    simp only [step, ConnState.onLanPing]
    split
    · exact noError_of_nil hnone
    · split_ifs
      · exact noError_of_nil hnone
      · exact noError_of_nil hnone
      · exact noError_succeed (by exact hopen) (by exact hnone) _ _ _ _
  | holepunch hp => exact absurd rfl (hpunch hp)
  | findPeerReply here source value => exact absurd hi Bool.false_ne_true
  | findPeerDone => exact absurd hi Bool.false_ne_true
  | handshake here k hs => exact absurd hi Bool.false_ne_true
  | destroy => exact absurd hi Bool.false_ne_true

/-- A connect gives up only when nothing else is under way. -/
def Patient (env : Env) (s : ConnState) (i : Input) : Prop :=
  s.completed = false → GivesUp s i → NothingElse env s i

/-- **A step is not early exactly when nothing else is under way** at the event on which the connect
gives up. -/
theorem notEarly_iff (h : s.Inv env) (hapart : Apart s) (i : Input) :
    NotEarly env s i ↔ Patient env s i := by
  cases hopen : s.completed with
  | true =>
    refine iff_of_true (fun hnot => ?_) fun hnot => ?_
    · rw [hopen] at hnot
      exact absurd hnot Bool.true_eq_false.mp
    · rw [hopen] at hnot
      exact absurd hnot Bool.true_eq_false.mp
  | false =>
    have hnone := h.completions_eq_nil hopen
    have hpath {i : Input} (hi : i.ofPath = true) (hwait : i ≠ .passiveTimeout)
        (hpunch : ∀ hp, i ≠ .holepunch hp) (hnever : ¬ GivesUp s i) :
        NotEarly env s i ↔ (GivesUp s i → NothingElse env s i) :=
      iff_of_true (notEarly_of_noError fun _ => noError_path h hopen hi hwait hpunch)
        fun hgives => absurd hgives hnever
    simp only [Patient, hopen, forall_const]
    cases i with
    | findPeerReply here source value =>
      refine iff_of_true (notEarly_of_noError fun _ => noError_of_nil ?_) fun hgives => absurd hgives id
      exact (hsResult_onFindPeerReply source value).2.trans hnone
    | findPeerDone =>
      exact iff_of_true (notEarly_findPeerDone h) fun hgives => absurd hgives id
    | handshake here k hs => exact notEarly_handshake_iff h k hs hopen
    | packet socket source => exact hpath rfl (by simp) (by simp) id
    | relayConnect error result channel => exact hpath rfl (by simp) (by simp) id
    | relayPair remoteId => exact hpath rfl (by simp) (by simp) id
    | relayPairFailed => exact hpath rfl (by simp) (by simp) id
    | relayTimeout => exact hpath rfl (by simp) (by simp) id
    | passiveTimeout => exact notEarly_passiveTimeout_iff h hapart hopen
    | lanPing ok => exact hpath rfl (by simp) (by simp) id
    | holepunch hp => exact notEarly_holepunch_iff h hapart hopen hp
    | destroy =>
      exact iff_of_true (notEarly_of_noError fun _ => noError_of_nil hnone) fun hgives =>
        absurd hgives id

/-! ### The ping and the holepunch are begun together -/

lemma apart_of_fresh (h : s.Fresh env) : Apart s := by
  intro harmed
  rw [h.passiveTimer] at harmed
  exact absurd harmed Bool.false_ne_true

lemma apart_succeed (h : Apart s) (hs : HandshakeResult) (addr : Ipv4Address) (socket : Option ℕ)
    (via : Option RelayVia) : Apart (s.succeed env hs addr socket via) := by
  unfold ConnState.succeed ConnState.complete
  split <;> exact h

lemma apart_fail (h : Apart s) (error : ConnectError) : Apart (s.fail error) := by
  unfold ConnState.fail ConnState.complete
  split <;> exact h

lemma apart_choosePath (hfresh : s.lanPing = none ∧ s.holepunch = none ∧ s.passiveTimer = false)
    (hs : HandshakeResult) : Apart (s.choosePath env here hs) := by
  have hapart : Apart s := fun _ => ⟨hfresh.1, hfresh.2.1⟩
  unfold ConnState.choosePath
  split
  · exact apart_succeed hapart _ _ _ _
  · split
    · unfold ConnState.startPaths
      split
      · exact fun _ => ⟨hfresh.1, hfresh.2.1⟩
      · intro harmed
        exact absurd (hfresh.2.2.symm.trans harmed) Bool.false_ne_true
    · split
      · exact apart_succeed hapart _ _ _ _
      · exact apart_fail hapart _

lemma apart_onHandshakeSuccess (h : s.Fresh env) (hs : HandshakeResult) :
    Apart (s.onHandshakeSuccess env here hs) := by
  set s' : ConnState := { s with successes := s.successes ++ [(s.relayAddr, hs)] } with hs'
  obtain ⟨-, -, hping, hpunch, hwait⟩ := @chooseRelay_paths env here s' hs
  have hpaths : Apart ((s'.chooseRelay env here hs).choosePath env here hs) :=
    apart_choosePath ⟨hping.trans h.lanPing, hpunch.trans h.holepunch, hwait.trans h.passiveTimer⟩ hs
  have hfresh : s'.Fresh env := h
  have hapart : Apart s' := apart_of_fresh hfresh
  unfold ConnState.onHandshakeSuccess
  rw [← hs']
  dsimp only
  split
  · split
    · exact hpaths
    · exact apart_succeed hapart _ _ _ _
  · exact hpaths

/-- **Every step keeps the wait apart** from the ping and the holepunch.

**Proof sketch.** While no handshake has succeeded nothing is begun. The handshake that wins begins
either, and from there the steps only end them. -/
theorem apart_step (h : s.Inv env) (hapart : Apart s) (i : Input) : Apart (step env s i) := by
  cases hwon : (step env s i).hsResult.success with
  | false => exact apart_of_fresh ((inv_step s i h).fresh hwon)
  | true =>
    cases i with
    | findPeerReply here source value =>
      have hbefore : s.hsResult.success = true := by
        rw [← (@hsResult_onFindPeerReply env here s source value).1]
        exact hwon
      simp only [step, ConnState.onFindPeerReply, hbefore, if_true]
      split_ifs <;> exact hapart
    | findPeerDone =>
      show Apart s.onFindPeerDone
      obtain heq | heq | ⟨-, error, heq⟩ := ConnState.onFindPeerDone_cases s
      · rwa [heq]
      · rw [heq]
        exact hapart
      · rw [heq]
        exact apart_fail (by exact hapart) error
    | handshake here k hs =>
      simp only [step] at hwon ⊢
      cases hk : s.handshakes[k]? with
      | none => simpa [ConnState.onHandshake, hk] using hapart
      | some x =>
        cases hroute : x.viaRoute with
        | false =>
          rw [ConnState.onHandshake_of_relay hk hroute] at hwon ⊢
          split_ifs at hwon ⊢ with hcompleted hbefore hskip
          · exact hapart
          · exact hapart
          · rw [ConnState.tryNextRelay_kept.1] at hwon
            exact absurd hwon hbefore
          · exact apart_onHandshakeSuccess (by exact h.fresh (eq_false_of_ne_true hbefore)) hs
        | true =>
          have hlost : s.hsResult.success = false :=
            (h.search.route x (List.mem_of_getElem? hk) hroute).2.2.2
          rw [ConnState.onHandshake_of_route h hk hroute]
          split_ifs with hover hsuccess
          · exact hapart
          · exact apart_onHandshakeSuccess (by exact h.fresh hlost) hs
          · unfold ConnState.startFindPeer
            split <;> exact hapart
    | packet socket source =>
      simp only [step, ConnState.onPacket]
      split_ifs <;> first | exact hapart | exact apart_succeed hapart _ _ _ _
    | relayConnect error result channel =>
      simp only [step, ConnState.onRelayConnect]
      split
      · exact hapart
      · split_ifs <;> exact hapart
    | relayPair remoteId =>
      simp only [step, ConnState.onRelayPair]
      split
      · exact hapart
      · split
        · exact hapart
        · split
          · exact hapart
          · split
            · exact hapart
            · exact apart_succeed (by exact hapart) _ _ _ _
    | relayPairFailed =>
      simp only [step, ConnState.onRelayPairFailed]
      split
      · exact hapart
      · split_ifs <;> exact hapart
    | relayTimeout => exact hapart
    | passiveTimeout =>
      simp only [step, ConnState.onPassiveTimeout]
      split_ifs with hidle hcompleted
      · exact hapart
      · exact fun harmed => absurd harmed Bool.false_ne_true
      · exact apart_fail (fun harmed => absurd harmed Bool.false_ne_true) _
    | lanPing ok =>
      simp only [step, ConnState.onLanPing]
      split
      · exact hapart
      · have hless : Apart { s with lanPing := none } := fun harmed => ⟨rfl, (hapart harmed).2⟩
        split_ifs
        · exact hless
        · exact hless
        · exact apart_succeed hless _ _ _ _
    | holepunch hp =>
      simp only [step, ConnState.onHolepunch]
      split
      · exact hapart
      · have hless : Apart { s with holepunch := none } := fun harmed => ⟨(hapart harmed).1, rfl⟩
        split_ifs
        · exact hless
        · exact apart_fail hless _
        · exact apart_succeed hless _ _ _ _
    | destroy => exact hapart

lemma hsResult_start : (start env here).hsResult = {} := by
  have hfire (s : ConnState) (addr : Ipv4Address) :
      (s.fireOrQueue env here addr).hsResult = s.hsResult := by
    unfold ConnState.fireOrQueue ConnState.fireHandshake
    split_ifs <;> rfl
  have hfold (relays : List Ipv4Address) (s : ConnState) :
      (relays.foldl (ConnState.fireOrQueue env here) s).hsResult = s.hsResult := by
    induction relays generalizing s with
    | nil => rfl
    | cons addr rest ih => rw [List.foldl_cons, ih, hfire]
  unfold start
  dsimp only
  split
  · rfl
  · unfold ConnState.startFindPeer
    split <;> exact hfold _ _

lemma apart_start : Apart (start env here) := by
  have hinv : (start env here).Inv env := inv_start here
  refine apart_of_fresh (hinv.fresh ?_)
  rw [hsResult_start]

/-! ## The steps of a run -/

/-- **A connect does not give up early in a run exactly when it gives up only where nothing else is under
way**: whenever the peer offers nothing, the wait ends or the holepunch fails, no relay is under way and
no ping unanswered. -/
theorem notEarly_run_iff (env : Env) (here : Surroundings) (is : List Input) :
    EveryStep (step env) (NotEarly env) (start env here) is ↔
      EveryStep (step env) (Patient env) (start env here) is := by
  refine everyStep_iff (I := fun s => s.Inv env ∧ Apart s) (fun s i h => notEarly_iff h.1 h.2 i)
    (fun s i h _ => ⟨inv_step s i h.1, apart_step h.1 h.2 i⟩) ⟨inv_start here, apart_start⟩

/-! ## A relay that is forgotten -/

def relayedEnv : Env := { relayThrough := some (List.Vector.replicate 32 1) }

/-- A node that knows the peer answers, and the peer answers the handshake with a payload that names
neither an address nor a relay for a holepunch. -/
def relayedRun : List Input :=
  [.findPeerReply {} (.ofOctets 10 0 0 1 49737) (some [1]),
    .handshake {} 0 { success := true, remotePayload := { udx := some { id := 7 } } }]

/-- The connect then fails for want of addresses, while it connects to its relay. -/
theorem not_notEarly_relayedRun :
    ¬ EveryStep (step relayedEnv) (NotEarly relayedEnv) (start relayedEnv {}) relayedRun := by
  rintro ⟨-, hsecond, -⟩
  refine hsecond rfl ⟨⟨.noAddresses, {}, [], none⟩, ?_, by simp⟩ .relay (canSucceed_relay_iff.2 ?_)
  · decide
  · exact ⟨rfl, _, rfl, .inl rfl⟩

end HyperDHT.Connect
