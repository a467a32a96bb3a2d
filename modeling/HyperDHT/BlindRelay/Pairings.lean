import HyperDHT.BlindRelay.Server

/-!
# Pairings that wait

What holds of the pairings of a relay in every state: each consists of one request, whose session knows its
token. This makes precise what a Pair message may do.

## Main definitions

* `RelayPair.Waits` — the pairing consists of one request.
* `BlindRelay.Linked` — every pairing waits, and its session has its token.

## Main results

* `Linked.onPair_cases` — the four outcomes of a Pair message.
* `BlindRelay.linked_step` — every step keeps the links.
-/

set_option autoImplicit false

namespace HyperDHT.BlindRelay

open RelayServer

/-! ## A pairing that waits -/

/-- The pairing consists of one request. -/
def RelayPair.Waits (pair : RelayPair) (link : Link) : Prop :=
  pair.links = Function.update (fun _ => none) link.isInitiator (some link)

section Waits

variable {pair : RelayPair} {link other : Link}

lemma RelayPair.Waits.links_self (h : pair.Waits link) : pair.links link.isInitiator = some link := by
  rw [h, Function.update_self]

lemma RelayPair.Waits.links_not (h : pair.Waits link) : pair.links (!link.isInitiator) = none := by
  rw [h, Function.update_of_ne (by simp)]

lemma RelayPair.Waits.owns (h : pair.Waits link) (σ : SessionId) :
    pair.owns σ = true ↔ link.session = σ := by
  have hself := h.links_self
  have hnot := h.links_not
  cases hrole : link.isInitiator <;>
    simp only [hrole, Bool.not_false, Bool.not_true] at hself hnot <;>
    simp [RelayPair.owns, hself, hnot]

lemma RelayPair.Waits.not_paired (h : pair.Waits link) : pair.paired = false := by
  have hnot := h.links_not
  cases hrole : link.isInitiator <;> simp only [hrole, Bool.not_false, Bool.not_true] at hnot <;>
    simp [RelayPair.paired, RelayPair.has, hnot]

lemma RelayPair.Waits.eq (h : pair.Waits link) (h' : pair.Waits other) : link = other := by
  have hrole : link.isInitiator = other.isInitiator := by
    by_contra hne
    have hnot := h'.links_not
    rw [← Bool.eq_not_of_ne hne, h.links_self] at hnot
    cases hnot
  have hself := h.links_self
  rw [hrole, h'.links_self] at hself
  exact (Option.some.inj hself).symm

lemma RelayPair.waits_fill (token : Token) (now : ℕ) (link : Link) :
    RelayPair.Waits (RelayPair.fill { token := token, createdAt := now } link) link := rfl

lemma RelayPair.Waits.fill (h : pair.Waits other) (hrole : link.isInitiator = !other.isInitiator) :
    (pair.fill link).links other.isInitiator = some other ∧
      (pair.fill link).links (!other.isInitiator) = some link := by
  constructor
  · rw [RelayPair.links_fill, hrole, Function.update_of_ne (by simp)]
    exact h.links_self
  · rw [RelayPair.links_fill, hrole, Function.update_self]

lemma RelayPair.Waits.ends (h : pair.Waits other) (hrole : link.isInitiator = !other.isInitiator) :
    ∃ responder initiator, (pair.fill link).links false = some responder ∧
      (pair.fill link).links true = some initiator ∧ responder.isInitiator = false ∧
      initiator.isInitiator = true ∧
      ((responder = other ∧ initiator = link) ∨ (responder = link ∧ initiator = other)) := by
  obtain ⟨hself, hnot⟩ := h.fill hrole
  cases hother : other.isInitiator with
  | false =>
    rw [hother] at hself hnot hrole
    exact ⟨other, link, hself, hnot, hother, hrole, Or.inl ⟨rfl, rfl⟩⟩
  | true =>
    rw [hother] at hself hnot hrole
    exact ⟨link, other, hnot, hself, hrole, hother, Or.inr ⟨rfl, rfl⟩⟩

end Waits

/-! ## What holds in every state -/

/-- Every pairing is filed under its token, waits for its second request, and is known to the session of its
first. A closed session knows no token. -/
structure Linked (s : RelayServer) : Prop where
  token : ∀ k pair, s.pairings.lookup k = some pair → pair.token = k
  waits : ∀ k pair, s.pairings.lookup k = some pair →
    ∃ link, pair.Waits link ∧ k ∈ (s.sessions link.session).pairingTokens
  closed : ∀ σ, (s.sessions σ).closed = true → (s.sessions σ).pairingTokens = ∅

section Steps

variable {s s' : RelayServer} {σ : SessionId} {token : Token}

lemma Linked.mono (h : Linked s)
    (hlookup : ∀ k pair, s'.pairings.lookup k = some pair → s.pairings.lookup k = some pair)
    (htokens : ∀ τ, (∀ k ∈ (s.sessions τ).pairingTokens, (s'.pairings.lookup k).isSome →
      k ∈ (s'.sessions τ).pairingTokens))
    (hclosed : ∀ τ, (s'.sessions τ).closed = true → (s'.sessions τ).pairingTokens = ∅) :
    Linked s' := by
  refine ⟨fun k pair hk => h.token k pair (hlookup k pair hk), fun k pair hk => ?_, hclosed⟩
  obtain ⟨link, hwaits, hin⟩ := h.waits k pair (hlookup k pair hk)
  exact ⟨link, hwaits, htokens _ k hin (by rw [hk]; rfl)⟩

lemma Linked.evict (h : Linked s) : Linked s.evict :=
  h.mono (fun k _ hk => ((s.lookup_evict k).1 hk).1) (fun _ _ hin _ => hin) h.closed

lemma Linked.onClose (h : Linked s) (σ : SessionId) : Linked (s.onClose σ) := by
  refine h.mono (fun k _ hk => ((s.lookup_onClose σ k).1 hk).1) (fun τ k hin hsome => ?_) fun τ hτ => ?_
  · obtain ⟨pair, hpair⟩ := Option.isSome_iff_exists.1 hsome
    have hnot := ((s.lookup_onClose σ k).1 hpair).2
    rcases eq_or_ne τ σ with rfl | hne
    · exact absurd hin hnot
    · rwa [s.sessions_onClose_ne σ τ hne]
  · rcases eq_or_ne τ σ with rfl | hne
    · rw [s.sessions_onClose_self τ]
    · rw [s.sessions_onClose_ne σ τ hne] at hτ ⊢
      exact h.closed τ hτ

lemma Linked.log (h : Linked s) (call : RelayCall) : Linked (s.log call) := ⟨h.token, h.waits, h.closed⟩

lemma Linked.closeChannel (h : Linked s) (σ : SessionId) : Linked (s.closeChannel σ) := by
  rw [RelayServer.closeChannel]
  split_ifs
  · exact h.log _
  · exact (h.log _).onClose σ

lemma Linked.endMaybe (h : Linked s) (σ : SessionId) : Linked (s.endMaybe σ) := by
  rw [RelayServer.endMaybe]
  split_ifs
  · exact h.closeChannel σ
  · exact h

lemma Linked.forget (h : Linked s) (hnone : s.pairings.lookup token = none)
    (f : RelaySession → RelaySession) (hclosed : ∀ session, (f session).closed = session.closed)
    (htokens : ∀ session, (f session).pairingTokens = session.pairingTokens.erase token) :
    Linked (s.modifySession σ f) := by
  refine h.mono (fun _ _ hk => hk) (fun τ k hin hsome => ?_) fun τ hτ => ?_
  · rcases eq_or_ne τ σ with rfl | hne
    · rw [sessions_modifySession, Function.update_self, htokens]
      refine Finset.mem_erase.2 ⟨?_, hin⟩
      rintro rfl
      rw [pairings_modifySession, hnone] at hsome
      cases hsome
    · rwa [sessions_modifySession, Function.update_of_ne hne]
  · rcases eq_or_ne τ σ with rfl | hne
    · rw [sessions_modifySession, Function.update_self] at hτ ⊢
      rw [htokens, h.closed τ (by rw [← hclosed]; exact hτ), Finset.erase_empty]
    · rw [sessions_modifySession, Function.update_of_ne hne] at hτ ⊢
      exact h.closed τ hτ

lemma Linked.track (h : Linked s) (hnone : s.pairings.lookup token = none) (e : RelayEnd) :
    Linked (s.track token e) := by
  have hforget : Linked (s.modifySession e.link.session fun session =>
      { session with
        pairingTokens := session.pairingTokens.erase token
        streams := session.streams.insert token e.stream }) :=
    h.forget hnone _ (fun _ => rfl) fun _ => rfl
  exact hforget.endMaybe _

lemma Linked.removePair (h : Linked s) (token : Token) : Linked (s.removePair token) := by
  refine h.mono (fun k pair hk => ?_) (fun _ _ hin _ => hin) h.closed
  rw [pairings_removePair] at hk
  rcases eq_or_ne k token with rfl | hne
  · rw [AList.lookup_erase] at hk
    cases hk
  · rwa [AList.lookup_erase_ne hne] at hk

lemma Linked.enter_new (h : Linked s) (hnone : s.pairings.lookup token = none) (now : ℕ) {link : Link}
    (hopen : (s.sessions link.session).closed = false) :
    Linked (s.enter { token := token, createdAt := now } link) := by
  have htokens : ∀ τ, (s.sessions τ).pairingTokens ⊆
      ((s.enter { token := token, createdAt := now } link).sessions τ).pairingTokens := by
    intro τ
    rcases eq_or_ne τ link.session with rfl | hne
    · simp [enter]
    · simp [enter, hne]
  refine ⟨fun k pair hk => ?_, fun k pair hk => ?_, fun τ hτ => ?_⟩
  · rcases eq_or_ne k token with rfl | hne
    · rw [enter, AList.lookup_insert] at hk
      rw [← Option.some.inj hk]
      rfl
    · rw [enter, AList.lookup_insert_ne hne] at hk
      exact h.token k pair hk
  · rcases eq_or_ne k token with rfl | hne
    · rw [enter, AList.lookup_insert] at hk
      rw [← Option.some.inj hk]
      exact ⟨link, RelayPair.waits_fill k now link, by simp [enter]⟩
    · rw [enter, AList.lookup_insert_ne hne] at hk
      obtain ⟨other, hwaits, hin⟩ := h.waits k pair hk
      exact ⟨other, hwaits, htokens _ hin⟩
  · rcases eq_or_ne τ link.session with rfl | hne
    · simp [enter, hopen] at hτ
    · simp only [enter, sessions_modifySession, ne_eq, hne, not_false_eq_true,
        Function.update_of_ne] at hτ ⊢
      exact h.closed τ hτ

lemma Linked.enter_removePair (h : Linked s) (pair : RelayPair) {link : Link}
    (hopen : (s.sessions link.session).closed = false) :
    Linked ((s.enter pair link).removePair pair.token) := by
  refine h.mono (fun k pair' hk => ?_) (fun τ k hin _ => ?_) fun τ hτ => ?_
  · rcases eq_or_ne k pair.token with rfl | hne
    · rw [pairings_removePair, AList.lookup_erase] at hk
      cases hk
    · rw [pairings_removePair, AList.lookup_erase_ne hne, enter, AList.lookup_insert_ne hne] at hk
      exact hk
  · rcases eq_or_ne τ link.session with rfl | hne
    · simp [enter, hin]
    · simpa [enter, hne] using hin
  · rcases eq_or_ne τ link.session with rfl | hne
    · simp [enter, hopen] at hτ
    · simp only [enter, sessions_removePair, sessions_modifySession, ne_eq, hne, not_false_eq_true,
        Function.update_of_ne] at hτ ⊢
      exact h.closed τ hτ

/-- **A Pair message**: it is ignored, or it is a duplicate, or it waits, or it completes a pairing. -/
theorem Linked.onPair_cases (h : Linked s) (σ : SessionId) (data : List UInt8) (draw : Draw) :
    ((s.sessions σ).closed = true ∨ s.full (decodePair data).token = true) ∧
      s.onPair σ data draw = s ∨
    ((s.sessions σ).closed = false ∧ s.full (decodePair data).token = false) ∧
    ((∃ pair other, s.evict.pairings.lookup (decodePair data).token = some pair ∧
        pair.Waits other ∧ other.isInitiator = (decodePair data).isInitiator ∧
        s.onPair σ data draw = s.evict) ∨
      (s.evict.pairings.lookup (decodePair data).token = none ∧
        s.onPair σ data draw = s.evict.enter
          { token := (decodePair data).token, createdAt := s.now } (s.newLink σ (decodePair data))) ∨
      ∃ pair other, s.evict.pairings.lookup (decodePair data).token = some pair ∧
        pair.Waits other ∧ (decodePair data).isInitiator = !other.isInitiator ∧
        s.onPair σ data draw = (s.evict.enter pair (s.newLink σ (decodePair data))).complete
          (pair.fill (s.newLink σ (decodePair data))) draw) := by
  by_cases hignored : ((s.sessions σ).closed || s.full (decodePair data).token) = true
  · exact Or.inl ⟨by simpa using hignored, by rw [onPair, if_pos hignored]⟩
  · refine Or.inr ⟨by simpa using hignored, ?_⟩
    rw [onPair, if_neg hignored]
    cases hlookup : s.evict.pairings.lookup (decodePair data).token with
    | none =>
      refine Or.inr (Or.inl ⟨rfl, ?_⟩)
      have hpair : s.evict.getOrCreatePair (decodePair data).token =
          { token := (decodePair data).token, createdAt := s.now } := by
        rw [getOrCreatePair, hlookup]
        rfl
      have hwaits := RelayPair.waits_fill (decodePair data).token s.now (s.newLink σ (decodePair data))
      simp only [hpair]
      rw [if_neg (by simp [RelayPair.has]), if_neg]
      · rfl
      · exact fun hpaired => absurd (hwaits.not_paired.symm.trans hpaired) (by simp)
    | some pair =>
      have hpair : s.evict.getOrCreatePair (decodePair data).token = pair := by
        rw [getOrCreatePair, hlookup]
        rfl
      obtain ⟨other, hwaits, -⟩ := h.evict.waits _ _ hlookup
      simp only [hpair]
      by_cases hrole : other.isInitiator = (decodePair data).isInitiator
      · refine Or.inl ⟨pair, other, rfl, hwaits, hrole, if_pos ?_⟩
        rw [RelayPair.has, ← hrole, hwaits.links_self]
        rfl
      · have hrole' : (decodePair data).isInitiator = !other.isInitiator := by
          cases hother : other.isInitiator <;> cases hmsg : (decodePair data).isInitiator <;>
            simp_all
        refine Or.inr (Or.inr ⟨pair, other, rfl, hwaits, hrole', ?_⟩)
        rw [if_neg, if_pos]
        · rfl
        · obtain ⟨hself, hnot⟩ := @RelayPair.Waits.fill pair (s.newLink σ (decodePair data)) other
            hwaits hrole'
          cases hother : other.isInitiator <;> rw [hother] at hself hnot <;>
            simp_all [RelayPair.paired, RelayPair.has, newLink]
        · rw [RelayPair.has, hrole', hwaits.links_not]
          simp

lemma Linked.modifySession (h : Linked s) (σ : SessionId) (f : RelaySession → RelaySession)
    (hclosed : (f (s.sessions σ)).closed = (s.sessions σ).closed)
    (htokens : (f (s.sessions σ)).pairingTokens = (s.sessions σ).pairingTokens) :
    Linked (s.modifySession σ f) := by
  refine h.mono (fun _ _ hk => hk) (fun τ k hin _ => ?_) fun τ hτ => ?_
  · rcases eq_or_ne τ σ with rfl | hne
    · rwa [sessions_modifySession, Function.update_self, htokens]
    · rwa [sessions_modifySession, Function.update_of_ne hne]
  · rcases eq_or_ne τ σ with rfl | hne
    · rw [sessions_modifySession, Function.update_self] at hτ ⊢
      rw [htokens]
      exact h.closed τ (hclosed ▸ hτ)
    · rw [sessions_modifySession, Function.update_of_ne hne] at hτ ⊢
      exact h.closed τ hτ

lemma Linked.makeStreams (h : Linked s) (n : ℕ) : Linked (s.makeStreams n) :=
  ⟨h.token, h.waits, h.closed⟩

/-- Keeping the streams of a match takes no pairing out. -/
@[simp] lemma lookup_track (e : RelayEnd) (k : Token) :
    (s.track token e).pairings.lookup k = s.pairings.lookup k := by
  rw [track, lookup_endMaybe, pairings_modifySession]

lemma pairingTokens_track (e : RelayEnd) (τ : SessionId) :
    ((s.track token e).sessions τ).pairingTokens =
      if τ = e.link.session then (s.sessions τ).pairingTokens.erase token
      else (s.sessions τ).pairingTokens := by
  rw [track, pairingTokens_endMaybe, sessions_modifySession]
  split_ifs with h
  · rw [← h, Function.update_self]
  · rw [Function.update_of_ne h]

lemma Linked.wire (h : Linked s) (hnone : s.pairings.lookup token = none) (a b : RelayEnd) :
    Linked (s.wire token a b) := by
  have ha := h.track hnone a
  have hb := ha.track (by rw [lookup_track, hnone]) b
  exact (hb.log _).log _

lemma Linked.complete {pair : RelayPair} (h : Linked (s.removePair pair.token))
    {responder initiator : Link} (hresponder : pair.links false = some responder)
    (hinitiator : pair.links true = some initiator) (draw : Draw) :
    Linked (s.complete pair draw) := by
  have hnone : (s.removePair pair.token).pairings.lookup pair.token = none := by simp
  rcases s.complete_cases hresponder hinitiator draw with
    ⟨-, n, heq⟩ | ⟨_, _, a, b, -, -, ⟨-, heq⟩ | ⟨-, heq⟩⟩ <;> rw [heq]
  · exact h.makeStreams n
  · exact (((h.makeStreams 2).log _).log _).log _
  · exact ((h.makeStreams 2).log _).wire hnone a b

lemma Linked.onPair (h : Linked s) (σ : SessionId) (data : List UInt8) (draw : Draw) :
    Linked (s.onPair σ data draw) := by
  rcases h.onPair_cases σ data draw with ⟨-, heq⟩ | ⟨⟨hopen, -⟩, ⟨_, _, -, -, -, heq⟩ |
    ⟨hnone, heq⟩ | ⟨pair, other, -, hwaits, hrole, heq⟩⟩ <;> rw [heq]
  · exact h
  · exact h.evict
  · exact h.evict.enter_new hnone s.now hopen
  · obtain ⟨responder, initiator, hresponder, hinitiator, -⟩ :=
      @RelayPair.Waits.ends pair (s.newLink σ (decodePair data)) other hwaits hrole
    have hopen' : (s.evict.sessions (s.newLink σ (decodePair data)).session).closed = false := hopen
    have hremoved : Linked ((s.evict.enter pair (s.newLink σ (decodePair data))).removePair
        (pair.fill (s.newLink σ (decodePair data))).token) := h.evict.enter_removePair pair hopen'
    exact hremoved.complete hresponder hinitiator draw

lemma Linked.takeBack (h : Linked s) (σ : SessionId) (token : Token) :
    Linked (s.takeBack σ token) := by
  have hnone : (s.removePair token).pairings.lookup token = none := by simp
  have hforget : Linked ((s.removePair token).modifySession σ fun session =>
      { session with pairingTokens := session.pairingTokens.erase token }) :=
    (h.removePair token).forget hnone _ (fun _ => rfl) fun _ => rfl
  exact hforget

lemma Linked.unpairPending (h : Linked s) (σ : SessionId) (token : Token) :
    Linked (s.unpairPending σ token) := by
  rw [RelayServer.unpairPending]
  split_ifs
  · exact (h.takeBack σ token).endMaybe σ
  · exact h

lemma Linked.dropStream (h : Linked s) (σ : SessionId) (token : Token) :
    Linked (s.dropStream σ token) := by
  rw [RelayServer.dropStream]
  split
  · exact h
  · exact (h.log _).modifySession σ _ rfl rfl

lemma Linked.onUnpair (h : Linked s) (σ : SessionId) (data : List UInt8) :
    Linked (s.onUnpair σ data) := by
  rw [RelayServer.onUnpair]
  split_ifs
  · exact h
  · exact (h.unpairPending σ _).dropStream σ _

/-- Every step keeps the links. -/
theorem linked_step (s : RelayServer) (i : ServerInput) (h : Linked s) : Linked (serverStep s i) := by
  cases i with
  | pair σ data draw => exact h.onPair σ data draw
  | unpair σ data => exact h.onUnpair σ data
  | close σ =>
    rw [serverStep, RelayServer.close]
    split_ifs
    · exact h
    · exact h.closeChannel σ
    · exact h.modifySession σ _ rfl rfl
  | destroy σ =>
    rw [serverStep, RelayServer.destroy]
    split_ifs
    · exact h
    · exact (h.modifySession σ _ rfl rfl).closeChannel σ
  | remoteClose σ =>
    rw [serverStep, RelayServer.remoteClose]
    split_ifs
    · exact h
    · exact (h.log _).onClose σ
  | tick elapsed => exact ⟨h.token, h.waits, h.closed⟩

end Steps

lemma linked_init : Linked {} where
  token _ _ h := by simp at h
  waits _ _ h := by simp at h
  closed _ h := by simp at h

/-! ## Inputs -/

/-- The Pair message of a peer in a role. -/
def pairData (token : Token) (isInitiator : Bool) : List UInt8 :=
  encodePair { isInitiator := isInitiator, token := token }

def goodDraw : Draw where
  first := some 5
  second := some 6
  relayed := true

end HyperDHT.BlindRelay
