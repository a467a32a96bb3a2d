import HyperDHT.BlindRelay.Pairings

/-!
# The bookkeeping of pairings

Who takes part in a pairing is kept twice: the relay keeps the links of each pairing, each session the tokens of
its pairings. The two disagree after a pairing was evicted, or was taken out for a match that then failed.

## Main definitions

* `BlindRelay.Ended` — no session waits for a request when it has none.
* `BlindRelay.Owned` — every token of a session is that of a pairing of the session.
* `BlindRelay.Bookkeeping` — the two records agree, and what follows from that.
* `BlindRelay.KeepsBooks` — the condition on the steps.

## Main results

* `BlindRelay.owned_step_iff` — when a step keeps the records in agreement.
* `BlindRelay.bookkeeping_iff` — they agree in every state exactly when every step meets the condition.
* `BlindRelay.not_bookkeeping_evictedRun` — a session that closes takes another session's pairing with it.
-/

set_option autoImplicit false

namespace HyperDHT.BlindRelay

open RelayServer

/-! ## A session that waits for its last request -/

/-- The session does not wait for a request when it has none. -/
def RelaySession.Ended (session : RelaySession) : Prop :=
  session.pendingClose = true → session.pairingTokens = ∅ → session.closed = true

/-- No session waits for a request when it has none. -/
def Ended (s : RelayServer) : Prop := ∀ σ, (s.sessions σ).Ended

section Steps

variable {s s' : RelayServer} {σ : SessionId}

lemma ended_of_closed {session : RelaySession} (h : session.closed = true) : session.Ended :=
  fun _ _ => h

lemma ended_of_ne (hne : ∀ τ, τ ≠ σ → (s.sessions τ).Ended) (hself : (s.sessions σ).Ended) :
    Ended s := by
  intro τ
  rcases eq_or_ne τ σ with rfl | h
  · exact hself
  · exact hne τ h

lemma Ended.modifySession (h : Ended s) (σ : SessionId) {f : RelaySession → RelaySession}
    (hf : (f (s.sessions σ)).Ended) : Ended (s.modifySession σ f) := by
  refine @ended_of_ne _ σ (fun τ hne => ?_) ?_
  · rw [sessions_modifySession, Function.update_of_ne hne]
    exact h τ
  · rwa [sessions_modifySession, Function.update_self]

lemma Ended.onClose (h : Ended s) (σ : SessionId) : Ended (s.onClose σ) := by
  refine @ended_of_ne _ σ (fun τ hne => ?_) (ended_of_closed ?_)
  · rw [s.sessions_onClose_ne σ τ hne]
    exact h τ
  · rw [s.sessions_onClose_self σ]

lemma ended_closeChannel (hne : ∀ τ, τ ≠ σ → (s.sessions τ).Ended) : Ended (s.closeChannel σ) := by
  refine @ended_of_ne _ σ (fun τ h => ?_) (ended_of_closed (s.closed_closeChannel σ))
  rw [s.sessions_closeChannel_ne σ τ h]
  exact hne τ h

lemma ended_endMaybe (hne : ∀ τ, τ ≠ σ → (s.sessions τ).Ended) : Ended (s.endMaybe σ) := by
  refine @ended_of_ne _ σ (fun τ h => ?_) (s.closed_endMaybe σ)
  rw [s.sessions_endMaybe_ne σ τ h]
  exact hne τ h

lemma Ended.track (h : Ended s) (token : Token) (e : RelayEnd) : Ended (s.track token e) := by
  refine ended_endMaybe fun τ hne => ?_
  rw [sessions_modifySession, Function.update_of_ne hne]
  exact h τ

lemma Ended.enter (h : Ended s) (pair : RelayPair) (link : Link) : Ended (s.enter pair link) := by
  have hmodify := h.modifySession link.session (f := fun session =>
    { session with pairingTokens := insert pair.token session.pairingTokens })
    fun _ hempty => absurd hempty (Finset.insert_ne_empty _ _)
  exact hmodify

lemma Ended.complete (h : Ended s) {pair : RelayPair} {responder initiator : Link}
    (hresponder : pair.links false = some responder) (hinitiator : pair.links true = some initiator)
    (draw : Draw) : Ended (s.complete pair draw) := by
  rcases s.complete_cases hresponder hinitiator draw with
    ⟨-, n, heq⟩ | ⟨_, _, a, b, -, -, ⟨-, heq⟩ | ⟨-, heq⟩⟩ <;> rw [heq]
  · exact h
  · exact h
  · have hwired : Ended (((s.removePair pair.token).makeStreams 2).log
        (.relayTo pair.token a b true)) := h
    exact (hwired.track pair.token a).track pair.token b

/-- Every step leaves no session that waits for a request when it has none. -/
theorem ended_step (s : RelayServer) (i : ServerInput) (hlinked : Linked s) (h : Ended s) :
    Ended (serverStep s i) := by
  cases i with
  | pair σ data draw =>
    rw [serverStep]
    rcases hlinked.onPair_cases σ data draw with ⟨-, heq⟩ | ⟨-, ⟨_, _, -, -, -, heq⟩ | ⟨-, heq⟩ |
      ⟨pair, other, -, hwaits, hrole, heq⟩⟩ <;> rw [heq]
    · exact h
    · exact h
    · exact Ended.enter h _ _
    · obtain ⟨responder, initiator, hresponder, hinitiator, -⟩ :=
        @RelayPair.Waits.ends pair (s.newLink σ (decodePair data)) other hwaits hrole
      have hevict : Ended s.evict := h
      exact (hevict.enter _ _).complete hresponder hinitiator draw
  | unpair σ data =>
    rw [serverStep, RelayServer.onUnpair]
    split_ifs
    · exact h
    · have hpending : Ended (s.unpairPending σ (decodeUnpair data).token) := by
        rw [unpairPending]
        split_ifs
        · refine ended_endMaybe fun τ hne => ?_
          rw [takeBack, sessions_removePair, sessions_modifySession, Function.update_of_ne hne]
          exact h τ
        · exact h
      rw [dropStream]
      split
      · exact hpending
      · exact Ended.modifySession (s := (s.unpairPending σ _).log _) hpending σ (hpending σ)
  | close σ =>
    rw [serverStep, RelayServer.close]
    split_ifs with hclosed htokens
    · exact h
    · exact ended_closeChannel fun τ _ => h τ
    · exact h.modifySession σ fun _ hempty => absurd hempty htokens
  | destroy σ =>
    rw [serverStep, RelayServer.destroy]
    split_ifs
    · exact h
    · refine ended_closeChannel fun τ hne => ?_
      rw [sessions_modifySession, Function.update_of_ne hne]
      exact h τ
  | remoteClose σ =>
    rw [serverStep, RelayServer.remoteClose]
    split_ifs
    · exact h
    · exact Ended.onClose (s := s.log _) h σ
  | tick elapsed => exact h

/-! ## Tokens and their owners -/

/-- The pairing for a token has a request of a session. -/
def RelayServer.Owns (s : RelayServer) (σ : SessionId) (k : Token) : Prop :=
  ∃ pair, s.pairings.lookup k = some pair ∧ pair.owns σ = true

/-- Every token of a session is that of a pairing with a request of the session. -/
def Owned (s : RelayServer) : Prop := ∀ σ, ∀ k ∈ (s.sessions σ).pairingTokens, s.Owns σ k

lemma Linked.mem_of_owns (h : Linked s) {k : Token} (howns : s.Owns σ k) :
    k ∈ (s.sessions σ).pairingTokens := by
  obtain ⟨pair, hpair, howner⟩ := howns
  obtain ⟨link, hwaits, hin⟩ := h.waits k pair hpair
  exact (hwaits.owns σ).1 howner ▸ hin

lemma Linked.eq_of_owns (h : Linked s) {τ : SessionId} {k : Token} (hσ : s.Owns σ k)
    (hτ : s.Owns τ k) : τ = σ := by
  obtain ⟨pair, hpair, howner⟩ := hσ
  obtain ⟨pair', hpair', howner'⟩ := hτ
  obtain rfl := Option.some.inj (hpair.symm.trans hpair')
  obtain ⟨link, hwaits, -⟩ := h.waits k pair hpair
  exact ((hwaits.owns τ).1 howner').symm.trans ((hwaits.owns σ).1 howner)

lemma Owned.mono (h : Owned s)
    (htokens : ∀ τ, (s'.sessions τ).pairingTokens ⊆ (s.sessions τ).pairingTokens)
    (hlookup : ∀ τ, ∀ k ∈ (s'.sessions τ).pairingTokens, ∀ pair, s.pairings.lookup k = some pair →
      pair.owns τ = true → s'.pairings.lookup k = some pair) : Owned s' := by
  intro τ k hk
  obtain ⟨pair, hpair, howner⟩ := h τ k (htokens τ hk)
  exact ⟨pair, hlookup τ k hk pair hpair howner, howner⟩

lemma Owned.onClose (h : Owned s) (hlinked : Linked s) (σ : SessionId) : Owned (s.onClose σ) := by
  refine h.mono (fun τ => ?_) fun τ k hk pair hpair howner => (s.lookup_onClose σ k).2 ⟨hpair, ?_⟩
  · rcases eq_or_ne τ σ with rfl | hne
    · rw [s.sessions_onClose_self τ]
      exact Finset.empty_subset _
    · rw [s.sessions_onClose_ne σ τ hne]
  · intro hin
    obtain rfl := hlinked.eq_of_owns (h σ k hin) ⟨pair, hpair, howner⟩
    rw [s.sessions_onClose_self τ] at hk
    exact absurd hk (Finset.notMem_empty k)

lemma Owned.closeChannel (h : Owned s) (hlinked : Linked s) (σ : SessionId) :
    Owned (s.closeChannel σ) := by
  rw [RelayServer.closeChannel]
  split_ifs
  · exact h
  · exact Owned.onClose (s := s.log _) h (hlinked.log _) σ

lemma Owned.unpairPending (h : Owned s) (hlinked : Linked s) (σ : SessionId) (token : Token) :
    Owned (s.unpairPending σ token) := by
  rw [RelayServer.unpairPending]
  split_ifs with htoken
  · refine h.mono (fun τ => ?_) fun τ k hk pair hpair howner => ?_
    · rw [pairingTokens_endMaybe, takeBack, sessions_removePair, sessions_modifySession]
      rcases eq_or_ne τ σ with rfl | hne
      · rw [Function.update_self]
        exact Finset.erase_subset _ _
      · rw [Function.update_of_ne hne]
    · rw [pairingTokens_endMaybe, takeBack, sessions_removePair, sessions_modifySession] at hk
      rw [lookup_endMaybe, takeBack, pairings_removePair, pairings_modifySession]
      rcases eq_or_ne k token with rfl | hne
      · obtain rfl := hlinked.eq_of_owns (h σ k htoken) ⟨pair, hpair, howner⟩
        rw [Function.update_self] at hk
        exact absurd rfl (Finset.mem_erase.1 hk).1
      · rw [AList.lookup_erase_ne hne, hpair]
  · exact h

lemma Owned.modifySession (h : Owned s) (σ : SessionId) {f : RelaySession → RelaySession}
    (hf : (f (s.sessions σ)).pairingTokens = (s.sessions σ).pairingTokens) :
    Owned (s.modifySession σ f) := by
  refine h.mono (fun τ => ?_) fun _ _ _ _ hpair _ => hpair
  rcases eq_or_ne τ σ with rfl | hne
  · rw [sessions_modifySession, Function.update_self, hf]
  · rw [sessions_modifySession, Function.update_of_ne hne]

lemma Owned.onUnpair (h : Owned s) (hlinked : Linked s) (σ : SessionId) (data : List UInt8) :
    Owned (s.onUnpair σ data) := by
  rw [RelayServer.onUnpair]
  split_ifs
  · exact h
  · have hpending := h.unpairPending hlinked σ (decodeUnpair data).token
    rw [dropStream]
    split
    · exact hpending
    · exact Owned.modifySession (s := (s.unpairPending σ _).log _) hpending σ rfl

end Steps

/-! ## The condition on the steps -/

/-- The pairings that have waited for too long are those of one token and one session. -/
def StaleOnlyOwn (s : RelayServer) (σ : SessionId) (token : Token) : Prop :=
  ∀ entry ∈ s.pairings.entries, entry.2.stale s.now = true →
    entry.1 = token ∧ entry.2.owns σ = true

instance (s : RelayServer) (σ : SessionId) (token : Token) : Decidable (StaleOnlyOwn s σ token) :=
  inferInstanceAs (Decidable (∀ entry ∈ s.pairings.entries, entry.2.stale s.now = true →
    entry.1 = token ∧ entry.2.owns σ = true))

/-- The request finds its counterpart. -/
def RelayServer.completes (s : RelayServer) (msg : PairMessage) : Bool :=
  (s.evict.pairings.lookup msg.token).any (·.has (!msg.isInitiator))

/-- A Pair message that is not ignored evicts no pairing but one of its own session and token, which it replaces;
and if it completes a pairing, the streams can be made and wired. -/
def KeepsBooks (s : RelayServer) : ServerInput → Prop
  | .pair σ data draw =>
    ((s.sessions σ).closed = true ∨ s.full (decodePair data).token = true) ∨
      StaleOnlyOwn s σ (decodePair data).token ∧
        (s.completes (decodePair data) = true → draw.ok = true)
  | _ => True

instance (s : RelayServer) : (i : ServerInput) → Decidable (KeepsBooks s i)
  | .pair σ data draw => inferInstanceAs (Decidable
      (((s.sessions σ).closed = true ∨ s.full (decodePair data).token = true) ∨
        StaleOnlyOwn s σ (decodePair data).token ∧
          (s.completes (decodePair data) = true → draw.ok = true)))
  | .unpair _ _ => .isTrue trivial
  | .close _ => .isTrue trivial
  | .destroy _ => .isTrue trivial
  | .remoteClose _ => .isTrue trivial
  | .tick _ => .isTrue trivial

section Pair

variable {s s' : RelayServer} {σ : SessionId} {token : Token}

lemma staleOnlyOwn_iff :
    StaleOnlyOwn s σ token ↔
      (∀ k pair, k ≠ token → s.pairings.lookup k = some pair → pair.stale s.now = false) ∧
      ∀ pair, s.pairings.lookup token = some pair → pair.stale s.now = true → pair.owns σ = true := by
  have hmem : ∀ k pair, s.pairings.lookup k = some pair ↔ ⟨k, pair⟩ ∈ s.pairings.entries :=
    fun _ _ => AList.mem_lookup_iff
  constructor
  · refine fun h => ⟨fun k pair hne hpair => ?_, fun pair hpair hstale =>
      (h _ ((hmem _ _).1 hpair) hstale).2⟩
    exact Bool.eq_false_iff.2 fun hstale => hne (h _ ((hmem _ _).1 hpair) hstale).1
  · rintro ⟨hother, htoken⟩ ⟨k, pair⟩ hin hstale
    have hpair := (hmem k pair).2 hin
    by_cases hk : k = token
    · subst hk
      exact ⟨rfl, htoken pair hpair hstale⟩
    · exact absurd hstale (by simp [hother k pair hk hpair])

lemma owned_iff_of_evict (hlinked : Linked s) (h : Owned s)
    (htokens : ∀ τ k, k ≠ token →
      (k ∈ (s'.sessions τ).pairingTokens ↔ k ∈ (s.sessions τ).pairingTokens))
    (hlookup : ∀ k, k ≠ token → s'.pairings.lookup k = s.evict.pairings.lookup k) :
    Owned s' ↔
      (∀ k pair, k ≠ token → s.pairings.lookup k = some pair → pair.stale s.now = false) ∧
      ∀ τ, token ∈ (s'.sessions τ).pairingTokens → s'.Owns τ token := by
  constructor
  · refine fun h' => ⟨fun k pair hne hpair => ?_, fun τ => h' τ token⟩
    -- the session of the pairing still has the token, so the pairing is still there
    obtain ⟨link, -, hin⟩ := hlinked.waits k pair hpair
    obtain ⟨pair', hpair', -⟩ := h' link.session k ((htokens _ k hne).2 hin)
    rw [hlookup k hne, s.lookup_evict k, hpair] at hpair'
    obtain ⟨heq, hfresh⟩ := hpair'
    exact Option.some.inj heq ▸ hfresh
  · rintro ⟨hother, htoken⟩ τ k hk
    by_cases hne : k = token
    · subst hne
      exact htoken τ hk
    · obtain ⟨pair, hpair, howner⟩ := h τ k ((htokens τ k hne).1 hk)
      refine ⟨pair, ?_, howner⟩
      rw [hlookup k hne, s.lookup_evict k]
      exact ⟨hpair, hother k pair hne hpair⟩

lemma owned_evict_iff (hlinked : Linked s) (h : Owned s) {pair : RelayPair}
    (hpair : s.evict.pairings.lookup token = some pair) (σ : SessionId) :
    Owned s.evict ↔ StaleOnlyOwn s σ token := by
  obtain ⟨hold, hfresh⟩ := (s.lookup_evict token).1 hpair
  rw [staleOnlyOwn_iff, @owned_iff_of_evict s s.evict token hlinked h (fun _ _ _ => Iff.rfl)
    fun _ _ => rfl]
  refine and_congr_right fun _ => ⟨fun _ pair' hpair' hstale => ?_, fun _ τ hτ => ?_⟩
  · obtain rfl := Option.some.inj (hold.symm.trans hpair')
    rw [hfresh] at hstale
    cases hstale
  · obtain ⟨pair', hpair', howner⟩ := h τ token hτ
    obtain rfl := Option.some.inj (hold.symm.trans hpair')
    exact ⟨pair, hpair, howner⟩

lemma owned_enter_iff (hlinked : Linked s) (h : Owned s)
    (hnone : s.evict.pairings.lookup token = none) (now : ℕ) (link : Link) :
    Owned (s.evict.enter { token := token, createdAt := now } link) ↔
      StaleOnlyOwn s link.session token := by
  have hself : (s.evict.enter { token := token, createdAt := now } link).pairings.lookup token =
      some (RelayPair.fill { token := token, createdAt := now } link) := AList.lookup_insert _
  have hwaits := RelayPair.waits_fill token now link
  have hin : token ∈ ((s.evict.enter { token := token, createdAt := now } link).sessions
      link.session).pairingTokens := by simp [enter]
  have htokens : ∀ τ, τ ≠ link.session → ∀ k,
      (k ∈ ((s.evict.enter { token := token, createdAt := now } link).sessions τ).pairingTokens ↔
        k ∈ (s.sessions τ).pairingTokens) := fun τ hτ k => by simp [enter, hτ]
  rw [staleOnlyOwn_iff, owned_iff_of_evict hlinked h (fun τ k hne => ?_) fun k hne => ?_]
  · refine and_congr_right fun _ => ⟨fun hall pair hpair _ => ?_, fun hold τ hτ => ?_⟩
    · obtain ⟨other, hother, hinOther⟩ := hlinked.waits token pair hpair
      rw [hother.owns]
      -- the session of the old pairing has the token of the new one
      by_contra hne
      obtain ⟨pair', hpair', howner'⟩ := hall other.session ((htokens _ hne token).2 hinOther)
      obtain rfl := Option.some.inj (hself.symm.trans hpair')
      exact hne ((hwaits.owns _).1 howner').symm
    · refine ⟨_, hself, (hwaits.owns τ).2 ?_⟩
      by_contra hne
      obtain ⟨pair, hpair, howner⟩ := h τ token ((htokens τ (Ne.symm hne) token).1 hτ)
      have hstale : pair.stale s.now = true := by
        by_contra hfresh
        rw [(s.lookup_evict token).2 ⟨hpair, by simpa using hfresh⟩] at hnone
        cases hnone
      exact hne (hlinked.eq_of_owns ⟨pair, hpair, howner⟩ ⟨pair, hpair, hold pair hpair hstale⟩)
  · rcases eq_or_ne τ link.session with rfl | hτ
    · simp [enter, hne]
    · exact htokens τ hτ k
  · exact AList.lookup_insert_ne hne

lemma mem_pairingTokens_wire (a b : RelayEnd) (τ : SessionId) (k : Token) :
    k ∈ ((s.wire token a b).sessions τ).pairingTokens ↔
      k ∈ (s.sessions τ).pairingTokens ∧
        (k = token → τ ≠ a.link.session ∧ τ ≠ b.link.session) := by
  have hwire : (s.wire token a b).sessions = ((s.track token a).track token b).sessions := rfl
  rw [hwire, pairingTokens_track, pairingTokens_track]
  split_ifs with hb ha ha <;> grind

lemma not_owned_complete {pair : RelayPair} {link responder initiator : Link}
    (hresponder : (pair.fill link).links false = some responder)
    (hinitiator : (pair.fill link).links true = some initiator) {draw : Draw} (hok : draw.ok = false) :
    ¬ Owned ((s.enter pair link).complete (pair.fill link) draw) := by
  intro h
  have hin : pair.token ∈ ((s.enter pair link).sessions link.session).pairingTokens := by
    simp [enter]
  have hnone : ((s.enter pair link).removePair pair.token).pairings.lookup pair.token = none := by
    simp
  rcases (s.enter pair link).complete_cases hresponder hinitiator draw with
    ⟨-, n, heq⟩ | ⟨_, _, a, b, -, -, ⟨-, heq⟩ | ⟨hok', -⟩⟩
  · rw [heq] at h
    obtain ⟨pair', hpair', -⟩ := h link.session pair.token hin
    exact absurd (hnone.symm.trans hpair') (by simp)
  · rw [heq] at h
    obtain ⟨pair', hpair', -⟩ := h link.session pair.token hin
    exact absurd (hnone.symm.trans hpair') (by simp)
  · rw [hok] at hok'
    cases hok'

/-- A match keeps the records in agreement if its streams can be made and wired, and no other pairing is
evicted. -/
lemma owned_complete_iff (hlinked : Linked s) (h : Owned s) {pair : RelayPair} {link other : Link}
    (hpair : s.evict.pairings.lookup token = some pair) (hwaits : pair.Waits other)
    (hrole : link.isInitiator = !other.isInitiator) (draw : Draw) :
    Owned ((s.evict.enter pair link).complete (pair.fill link) draw) ↔
      StaleOnlyOwn s link.session token ∧ draw.ok = true := by
  obtain ⟨hold, hfresh⟩ := (s.lookup_evict token).1 hpair
  have htoken : pair.token = token := hlinked.token token pair hold
  obtain ⟨responder, initiator, hresponder, hinitiator, -, -, hends⟩ := hwaits.ends hrole
  cases hok : draw.ok with
  | false =>
    have hnot := not_owned_complete (s := s.evict) hresponder hinitiator hok
    simp [hnot]
  | true =>
    rw [eq_self_iff_true, and_true]
    rcases (s.evict.enter pair link).complete_cases hresponder hinitiator draw with
      ⟨hok', -⟩ | ⟨_, _, a, b, ha, hb, ⟨hok', -⟩ | ⟨-, heq⟩⟩
    · rw [hok] at hok'
      cases hok'
    · rw [hok] at hok'
      cases hok'
    · have hsessions : a.link.session = other.session ∧ b.link.session = link.session ∨
          a.link.session = link.session ∧ b.link.session = other.session := by
        rw [ha, hb]
        rcases hends with ⟨rfl, rfl⟩ | ⟨rfl, rfl⟩
        · exact Or.inl ⟨rfl, rfl⟩
        · exact Or.inr ⟨rfl, rfl⟩
      have htokens : ∀ τ k, k ∈ ((s.evict.enter pair link).sessions τ).pairingTokens ↔
          k = token ∧ τ = link.session ∨ k ∈ (s.sessions τ).pairingTokens := by
        intro τ k
        rcases eq_or_ne τ link.session with rfl | hne
        · simp [enter, htoken]
        · simp [enter, hne]
      have hmem : ∀ τ k, k ∈ (((s.evict.enter pair link).complete (pair.fill link) draw).sessions
          τ).pairingTokens ↔ k ≠ token ∧ k ∈ (s.sessions τ).pairingTokens ∨
            k = token ∧ k ∈ (s.sessions τ).pairingTokens ∧ τ ≠ link.session ∧ τ ≠ other.session := by
        intro τ k
        have hfill : (pair.fill link).token = token := htoken
        rw [heq, hfill, mem_pairingTokens_wire]
        show k ∈ ((s.evict.enter pair link).sessions τ).pairingTokens ∧ _ ↔ _
        rw [htokens]
        grind
      rw [staleOnlyOwn_iff, owned_iff_of_evict hlinked h (fun τ k hne => ?_) fun k hne => ?_]
      · refine and_congr_right fun _ => ⟨fun _ pair' hpair' hstale => ?_, fun _ τ hτ => ?_⟩
        · obtain rfl := Option.some.inj (hold.symm.trans hpair')
          rw [hfresh] at hstale
          cases hstale
        · -- whoever has the token was one of the two, and they have forgotten it
          rcases (hmem τ token).1 hτ with ⟨hne, -⟩ | ⟨-, hin, -, hne⟩
          · exact absurd rfl hne
          · obtain ⟨pair', hpair', howner⟩ := h τ token hin
            obtain rfl := Option.some.inj (hold.symm.trans hpair')
            exact absurd ((hwaits.owns τ).1 howner).symm hne
      · rw [hmem]
        simp [hne]
      · rw [heq]
        show (((_ : RelayServer).track _ a).track _ b).pairings.lookup k = _
        rw [lookup_track, lookup_track]
        show ((s.evict.enter pair link).removePair pair.token).pairings.lookup k = _
        rw [htoken, pairings_removePair, AList.lookup_erase_ne hne, enter, htoken,
          AList.lookup_insert_ne hne]

/-- **Exactly the good Pair messages** keep the records in agreement. -/
lemma owned_onPair_iff (hlinked : Linked s) (h : Owned s) (σ : SessionId) (data : List UInt8)
    (draw : Draw) : Owned (s.onPair σ data draw) ↔ KeepsBooks s (.pair σ data draw) := by
  rw [KeepsBooks]
  rcases hlinked.onPair_cases σ data draw with ⟨hignored, heq⟩ | ⟨⟨hopen, hfull⟩,
    ⟨pair, other, hpair, hwaits, hrole, heq⟩ | ⟨hnone, heq⟩ | ⟨pair, other, hpair, hwaits, hrole, heq⟩⟩ <;>
    rw [heq]
  · simp [h, hignored]
  · have hcompletes : s.completes (decodePair data) = false := by
      rw [RelayServer.completes, hpair, ← hrole]
      simp [RelayPair.has, hwaits.links_not]
    rw [owned_evict_iff hlinked h hpair σ]
    simp [hopen, hfull, hcompletes]
  · have hcompletes : s.completes (decodePair data) = false := by
      simp [RelayServer.completes, hnone]
    rw [owned_enter_iff hlinked h hnone]
    simp [hopen, hfull, hcompletes, newLink]
  · have hcompletes : s.completes (decodePair data) = true := by
      rw [RelayServer.completes, hpair, hrole]
      simp [RelayPair.has, hwaits.links_self]
    rw [owned_complete_iff hlinked h hpair hwaits hrole]
    simp [hopen, hfull, hcompletes, newLink]

end Pair

/-- **When a step keeps the records in agreement.** -/
theorem owned_step_iff (s : RelayServer) (i : ServerInput) (hlinked : Linked s) (h : Owned s) :
    Owned (serverStep s i) ↔ KeepsBooks s i := by
  cases i with
  | pair σ data draw => exact owned_onPair_iff hlinked h σ data draw
  | unpair σ data => exact iff_of_true (h.onUnpair hlinked σ data) trivial
  | close σ =>
    refine iff_of_true ?_ trivial
    rw [serverStep, RelayServer.close]
    split_ifs
    · exact h
    · exact h.closeChannel hlinked σ
    · exact h.modifySession σ rfl
  | destroy σ =>
    refine iff_of_true ?_ trivial
    rw [serverStep, RelayServer.destroy]
    split_ifs
    · exact h
    · exact (h.modifySession σ rfl).closeChannel (hlinked.modifySession σ _ rfl rfl) σ
  | remoteClose σ =>
    refine iff_of_true ?_ trivial
    rw [serverStep, RelayServer.remoteClose]
    split_ifs
    · exact h
    · exact Owned.onClose (s := s.log _) h (hlinked.log _) σ
  | tick elapsed => exact iff_of_true h trivial

/-! ## The claim for all runs -/

/-- The input ends the part of a session in its pairings, or in one of them. -/
def ServerInput.EndsFor (i : ServerInput) (σ : SessionId) : Prop :=
  match i with
  | .unpair τ _ | .close τ | .destroy τ | .remoteClose τ => τ = σ
  | .pair .. | .tick _ => False

/-- **The bookkeeping**: a session has a token exactly when the pairing for it has a request of the session. So a
session that ends takes no pairing with it in which it has no request, and one that waits to be closed has a
request left. -/
structure Bookkeeping (s : RelayServer) : Prop where
  owned : ∀ σ k, k ∈ (s.sessions σ).pairingTokens ↔ s.Owns σ k
  removes : ∀ σ (i : ServerInput), i.EndsFor σ → ∀ k pair, s.pairings.lookup k = some pair →
    pair.owns σ = false → (serverStep s i).pairings.lookup k = some pair
  waiting : ∀ σ, (s.sessions σ).pendingClose = true → (s.sessions σ).closed = false →
    ∃ k, s.Owns σ k

section Claim

variable {s : RelayServer} {σ : SessionId} {k : Token} {pair : RelayPair}

lemma lookup_closeChannel (hpair : s.pairings.lookup k = some pair)
    (hin : k ∉ (s.sessions σ).pairingTokens) : (s.closeChannel σ).pairings.lookup k = some pair := by
  rw [closeChannel]
  split_ifs
  · exact hpair
  · exact (lookup_onClose _ σ k).2 ⟨hpair, hin⟩

lemma Owned.lookup_step (h : Owned s) {i : ServerInput} (hi : i.EndsFor σ)
    (hpair : s.pairings.lookup k = some pair) (howner : pair.owns σ = false) :
    (serverStep s i).pairings.lookup k = some pair := by
  have hin : k ∉ (s.sessions σ).pairingTokens := by
    intro hin
    obtain ⟨pair', hpair', howner'⟩ := h σ k hin
    rw [Option.some.inj (hpair.symm.trans hpair'), howner'] at howner
    cases howner
  cases i with
  | pair _ _ _ => exact absurd hi id
  | unpair τ data =>
    obtain rfl : τ = σ := hi
    rw [serverStep, RelayServer.onUnpair]
    split_ifs
    · exact hpair
    · have hpending : (s.unpairPending τ (decodeUnpair data).token).pairings.lookup k = some pair := by
        rw [RelayServer.unpairPending]
        split_ifs with htoken
        · have hne : k ≠ (decodeUnpair data).token := fun heq => hin (heq ▸ htoken)
          rw [lookup_endMaybe, takeBack, pairings_removePair, AList.lookup_erase_ne hne]
          exact hpair
        · exact hpair
      rw [RelayServer.dropStream]
      split
      · exact hpending
      · exact hpending
  | close τ =>
    obtain rfl : τ = σ := hi
    rw [serverStep, RelayServer.close]
    split_ifs
    · exact hpair
    · exact lookup_closeChannel hpair hin
    · exact hpair
  | destroy τ =>
    obtain rfl : τ = σ := hi
    rw [serverStep, RelayServer.destroy]
    split_ifs
    · exact hpair
    · exact lookup_closeChannel hpair (by simpa using hin)
  | remoteClose τ =>
    obtain rfl : τ = σ := hi
    rw [serverStep, RelayServer.remoteClose]
    split_ifs
    · exact hpair
    · exact (lookup_onClose _ τ k).2 ⟨hpair, hin⟩
  | tick _ => exact absurd hi id

lemma bookkeeping_iff_owned (hlinked : Linked s) (hended : Ended s) : Bookkeeping s ↔ Owned s := by
  refine ⟨fun h σ k hin => (h.owned σ k).1 hin, fun h => ⟨fun σ k => ⟨h σ k, hlinked.mem_of_owns⟩,
    fun σ i hi k pair => h.lookup_step hi, fun σ hpending hopen => ?_⟩⟩
  have hne : (s.sessions σ).pairingTokens ≠ ∅ := by
    intro hempty
    rw [hended σ hpending hempty] at hopen
    cases hopen
  obtain ⟨k, hin⟩ := Finset.nonempty_iff_ne_empty.2 hne
  exact ⟨k, h σ k hin⟩

end Claim

lemma ended_init : Ended {} := fun _ h => by simp at h

lemma owned_init : Owned {} := fun _ _ h => by simp at h

/-- **The bookkeeping of pairings**: in a run of the relay, with any number of sessions, the bookkeeping holds in
every state exactly when every Pair message that is not ignored evicts at most a pairing of its own session and
token, and completes a pairing only if the streams can be made and wired. -/
theorem bookkeeping_iff (is : List ServerInput) :
    Runs.EveryState serverStep Bookkeeping {} is ↔ Runs.EveryStep serverStep KeepsBooks {} is := by
  refine Runs.everyState_iff_everyStep (I := fun s => Linked s ∧ Ended s)
    (fun s i h => ⟨linked_step s i h.1, ended_step s i h.1 h.2⟩) (fun s i h hs => ?_)
    ⟨linked_init, ended_init⟩ ((bookkeeping_iff_owned linked_init ended_init).2 owned_init)
  rw [bookkeeping_iff_owned (linked_step s i h.1) (ended_step s i h.1 h.2)]
  exact owned_step_iff s i h.1 ((bookkeeping_iff_owned h.1 h.2).1 hs)

/-! ## A run with an eviction -/

def pairedRun : List ServerInput :=
  [.pair 0 (pairData zeroToken true) goodDraw, .pair 1 (pairData zeroToken false) goodDraw, .close 0, .remoteClose 1]

example : Runs.EveryStep serverStep KeepsBooks {} pairedRun := by decide +kernel

/-- A session waits for too long; then another one asks for the same token, in the same role. -/
def evictedRun : List ServerInput :=
  [.pair 0 (pairData zeroToken true) goodDraw, .tick 31000000000, .pair 1 (pairData zeroToken true) goodDraw]

/-- The first session takes the pairing of the other one with it when it is destroyed. -/
theorem not_bookkeeping_evictedRun : ¬ Runs.EveryState serverStep Bookkeeping {} evictedRun := by
  intro hall
  have hmiss : ∃ entry ∈ (Runs.run serverStep {} evictedRun).pairings.entries,
      entry.2.owns 0 = false ∧
      ((serverStep (Runs.run serverStep {} evictedRun) (.destroy 0)).pairings.lookup
        entry.1).isNone = true := by
    decide +kernel
  obtain ⟨⟨k, pair⟩, hin, howner, hnone⟩ := hmiss
  have hkept := hall.run.removes 0 (.destroy 0) rfl k pair (AList.mem_lookup_iff.2 hin) howner
  rw [hkept] at hnone
  cases hnone

end HyperDHT.BlindRelay
