import HyperDHT.BlindRelay.Matching
import HyperDHT.Lib.Trace

/-!
# Closing a session gracefully

`BlindRelaySession::close` lets the requests that wait be completed before it closes the channel. The match of the
last one closes the channel, though, before the confirmations are sent: closing destroys the stream that was just
wired and frees the channel, and then the confirmation is sent on it.

## Main definitions

* `RelayCall.Lawful` — no channel or stream is used after it was closed or destroyed.
* `BlindRelay.Graceful` — all calls are lawful, and a pairing that is completed is confirmed to both peers.
* `BlindRelay.EndsGracefully` — the condition on the steps.

## Main results

* `BlindRelay.keptStreams_step` — what the sessions hold, in every state.
* `BlindRelay.lawful_step_iff` — when a step is lawful.
* `BlindRelay.graceful_iff` — every state is graceful exactly when every step meets the condition.
* `BlindRelay.not_graceful_lastPairRun` — the last pairing of a session that waits to be closed.
-/

set_option autoImplicit false

namespace HyperDHT.BlindRelay

open RelayServer

/-! ## The calls -/

/-- The channel of a session was not closed by some calls. -/
def Open (calls : List RelayCall) (σ : SessionId) : Prop := .close σ ∉ calls ∧ .remoteClose σ ∉ calls

/-- A stream was not destroyed by some calls. -/
def Live (calls : List RelayCall) (stream : RelayStream) : Prop :=
  ∀ stream', .destroyStream stream' ∈ calls → stream'.ptr ≠ stream.ptr

/-- A call uses a channel that is open and streams that live, after the calls before it. -/
def RelayCall.Lawful (history : List RelayCall) : RelayCall → Prop
  | .send σ _ stream => Open history σ ∧ Live history stream
  | .close σ => Open history σ
  | .destroyStream stream => Live history stream
  | .relayTo _ a b _ => Live history a.stream ∧ Live history b.stream
  | .remoteClose _ => True

/-- **A graceful run** so far: every call is lawful; of each pairing that was completed both peers got their
confirmation; and a session's channel is closed only after its last confirmation. -/
structure Graceful (s : RelayServer) : Prop where
  lawful : Trace.Always RelayCall.Lawful s.calls
  confirmed : ∀ token a b, .relayTo token a b true ∈ s.calls →
    .send a.link.session (a.confirmation token) a.stream ∈ s.calls ∧
      .send b.link.session (b.confirmation token) b.stream ∈ s.calls
  last : ∀ history σ rest, s.calls = history ++ .close σ :: rest →
    ∀ message stream, .send σ message stream ∉ rest

lemma Confirmed.mem_sends {calls : List RelayCall} (h : Confirmed calls) {token : Token}
    {a b : RelayEnd} (hwire : .relayTo token a b true ∈ calls) :
    .send a.link.session (a.confirmation token) a.stream ∈ calls ∧
      .send b.link.session (b.confirmation token) b.stream ∈ calls := by
  have hwires : (⟨token, a, b, true⟩ : Wire) ∈ wiresOf calls := List.mem_filterMap.2 ⟨_, hwire, rfl⟩
  have hsent : ∀ e : RelayEnd, e.confirmed token ∈ sendsOf calls →
      .send e.link.session (e.confirmation token) e.stream ∈ calls := by
    intro e he
    obtain ⟨call, hcall, hconfirmation⟩ := List.mem_filterMap.1 he
    cases call <;> simp only [RelayCall.confirmation?, Option.some.injEq, reduceCtorEq] at hconfirmation
    cases hconfirmation
    exact hcall
  refine ⟨hsent a ?_, hsent b ?_⟩ <;> rw [h] <;> refine List.mem_flatMap.2 ⟨_, hwires, ?_⟩ <;>
    simp [Wire.confirmations]

lemma graceful_iff_lawful {s : RelayServer} (h : Confirmed s.calls) :
    Graceful s ↔ Trace.Always RelayCall.Lawful s.calls := by
  refine ⟨fun hgraceful => hgraceful.lawful, fun hlawful => ⟨hlawful, fun _ _ _ => h.mem_sends,
    fun history σ rest hsplit message stream => ?_⟩⟩
  rw [hsplit] at hlawful
  exact hlawful.not_mem_after fun _ hsend => hsend.1.1

section Calls

variable {calls ends : List RelayCall} {call : RelayCall} {σ τ : SessionId} {stream : RelayStream}

lemma open_append : Open (calls ++ ends) σ ↔ Open calls σ ∧ Open ends σ := by
  simp only [Open, List.mem_append, not_or]
  tauto

lemma live_append : Live (calls ++ ends) stream ↔ Live calls stream ∧ Live ends stream := by
  simp only [Live, List.mem_append, or_imp, forall_and]

/-- The streams of a session that closes. -/
def destroysOf (session : RelaySession) : List RelayCall :=
  session.streams.entries.map fun entry => .destroyStream entry.2

lemma open_destroysOf (session : RelaySession) (σ : SessionId) : Open (destroysOf session) σ := by
  simp [Open, destroysOf]

lemma mem_destroysOf {session : RelaySession} :
    .destroyStream stream ∈ destroysOf session ↔ ∃ k, session.streams.lookup k = some stream := by
  simp only [destroysOf, List.mem_map, RelayCall.destroyStream.injEq]
  constructor
  · rintro ⟨⟨k, stream'⟩, hin, rfl⟩
    exact ⟨k, AList.mem_lookup_iff.2 hin⟩
  · rintro ⟨k, hk⟩
    exact ⟨⟨k, stream⟩, AList.mem_lookup_iff.1 hk, rfl⟩

lemma calls_onClose (s : RelayServer) (σ : SessionId) :
    (s.onClose σ).calls = s.calls ++ destroysOf (s.sessions σ) := rfl

end Calls

/-! ## What the sessions hold -/

/-- A session is closed exactly when its channel was; the streams of the sessions live, and each is held at one
place. -/
structure Kept (s : RelayServer) : Prop where
  closed : ∀ τ, (s.sessions τ).closed = false ↔ Open s.calls τ
  live : ∀ τ k stream, (s.sessions τ).streams.lookup k = some stream → Live s.calls stream
  held : ∀ τ k stream, (s.sessions τ).streams.lookup k = some stream → stream.ptr < s.nextStream
  distinct : ∀ τ k stream τ' k' stream', (s.sessions τ).streams.lookup k = some stream →
    (s.sessions τ').streams.lookup k' = some stream' → stream.ptr = stream'.ptr → τ = τ' ∧ k = k'
  destroyed : ∀ stream, .destroyStream stream ∈ s.calls → stream.ptr < s.nextStream

section Kept

variable {s s' : RelayServer} {σ : SessionId} {token : Token}

lemma Kept.congr (h : Kept s) (hcalls : s'.calls = s.calls) (hnext : s.nextStream ≤ s'.nextStream)
    (hclosed : ∀ τ, (s'.sessions τ).closed = (s.sessions τ).closed)
    (hstreams : ∀ τ, (s'.sessions τ).streams = (s.sessions τ).streams) : Kept s' := by
  refine ⟨fun τ => ?_, fun τ k stream hk => ?_, fun τ k stream hk => ?_,
    fun τ k stream τ' k' stream' hk hk' => ?_, fun stream hin => ?_⟩
  · rw [hclosed, hcalls]
    exact h.closed τ
  · rw [hcalls]
    exact h.live τ k stream (hstreams τ ▸ hk)
  · exact Nat.lt_of_lt_of_le (h.held τ k stream (hstreams τ ▸ hk)) hnext
  · exact h.distinct τ k stream τ' k' stream' (hstreams τ ▸ hk) (hstreams τ' ▸ hk')
  · exact Nat.lt_of_lt_of_le (h.destroyed stream (hcalls ▸ hin)) hnext

lemma Kept.modifySession (h : Kept s) (σ : SessionId) (f : RelaySession → RelaySession)
    (hclosed : (f (s.sessions σ)).closed = (s.sessions σ).closed)
    (hstreams : (f (s.sessions σ)).streams = (s.sessions σ).streams) : Kept (s.modifySession σ f) := by
  refine h.congr rfl (Nat.le_refl _) (fun τ => ?_) fun τ => ?_
  · rcases eq_or_ne τ σ with rfl | hne
    · rw [sessions_modifySession, Function.update_self, hclosed]
    · rw [sessions_modifySession, Function.update_of_ne hne]
  · rcases eq_or_ne τ σ with rfl | hne
    · rw [sessions_modifySession, Function.update_self, hstreams]
    · rw [sessions_modifySession, Function.update_of_ne hne]

lemma Kept.log (h : Kept s) {call : RelayCall} (hend : ¬ call.IsEnd) : Kept (s.log call) := by
  have hopen : ∀ τ, Open [call] τ := by
    intro τ
    cases call <;> first | exact absurd trivial hend | simp [Open]
  have hlive : ∀ stream, Live [call] stream := by
    intro stream
    cases call <;> first | exact absurd trivial hend | simp [Live]
  refine ⟨fun τ => ?_, fun τ k stream hk => ?_, h.held, h.distinct, fun stream hin => ?_⟩
  · rw [calls_log, open_append, and_iff_left (hopen τ)]
    exact h.closed τ
  · rw [calls_log, live_append]
    exact ⟨h.live τ k stream hk, hlive stream⟩
  · rcases List.mem_append.1 hin with hin | hin
    · exact h.destroyed stream hin
    · obtain rfl := List.mem_singleton.1 hin
      exact absurd trivial hend

lemma Kept.onClose (h : Kept s) (σ : SessionId) {call : RelayCall}
    (hcall : call = .close σ ∨ call = .remoteClose σ) : Kept ((s.log call).onClose σ) := by
  have hself : ¬ Open [call] σ := by rcases hcall with rfl | rfl <;> simp [Open]
  have hother : ∀ τ, τ ≠ σ → Open [call] τ := by
    intro τ hne
    rcases hcall with rfl | rfl <;> simp [Open, hne]
  have hlive : ∀ stream, Live [call] stream := by
    intro stream
    rcases hcall with rfl | rfl <;> simp [Live]
  have hstreams : ∀ τ k stream, (((s.log call).onClose σ).sessions τ).streams.lookup k = some stream →
      τ ≠ σ ∧ (s.sessions τ).streams.lookup k = some stream := by
    intro τ k stream hk
    rcases eq_or_ne τ σ with rfl | hne
    · rw [sessions_onClose_self] at hk
      simp at hk
    · rw [sessions_onClose_ne _ _ _ hne] at hk
      exact ⟨hne, hk⟩
  refine ⟨fun τ => ?_, fun τ k stream hk => ?_, fun τ k stream hk => ?_,
    fun τ k stream τ' k' stream' hk hk' => ?_, fun stream hin => ?_⟩
  · rw [calls_onClose, calls_log, open_append, open_append, and_iff_left (open_destroysOf _ τ)]
    rcases eq_or_ne τ σ with rfl | hne
    · rw [sessions_onClose_self]
      exact iff_of_false (by simp) fun hopen => hself hopen.2
    · rw [sessions_onClose_ne _ _ _ hne, sessions_log, and_iff_left (hother τ hne)]
      exact h.closed τ
  · obtain ⟨hne, hold⟩ := hstreams τ k stream hk
    rw [calls_onClose, calls_log, live_append, live_append]
    refine ⟨⟨h.live τ k stream hold, hlive stream⟩, fun stream' hin hptr => ?_⟩
    obtain ⟨k', hk'⟩ := mem_destroysOf.1 hin
    exact hne (h.distinct τ k stream σ k' stream' hold hk' hptr.symm).1
  · exact h.held τ k stream (hstreams τ k stream hk).2
  · exact h.distinct τ k stream τ' k' stream' (hstreams τ k stream hk).2
      (hstreams τ' k' stream' hk').2
  · rw [calls_onClose, calls_log] at hin
    rcases List.mem_append.1 hin with hin | hin
    · rcases List.mem_append.1 hin with hin | hin
      · exact h.destroyed stream hin
      · exact absurd rfl (hlive stream stream hin)
    · obtain ⟨k, hk⟩ := mem_destroysOf.1 hin
      exact h.held σ k stream hk

lemma Kept.closeChannel (h : Kept s) (σ : SessionId) : Kept (s.closeChannel σ) := by
  rw [RelayServer.closeChannel]
  split_ifs with hclosed
  · -- the channel was closed before
    have hlive : ∀ stream, Live [.close σ] stream := fun stream => by simp [Live]
    refine ⟨fun τ => ?_, fun τ k stream hk => ?_, h.held, h.distinct, fun stream hin => ?_⟩
    · rw [calls_log, open_append, sessions_log, h.closed τ]
      refine ⟨fun hopen => ⟨hopen, ?_⟩, And.left⟩
      have hne : τ ≠ σ := by
        rintro rfl
        rw [(h.closed τ).2 hopen] at hclosed
        cases hclosed
      simp [Open, hne]
    · rw [calls_log, live_append]
      exact ⟨h.live τ k stream hk, hlive stream⟩
    · rcases List.mem_append.1 hin with hin | hin
      · exact h.destroyed stream hin
      · exact absurd rfl (hlive stream stream hin)
  · exact h.onClose σ (Or.inl rfl)

lemma Kept.endMaybe (h : Kept s) (σ : SessionId) : Kept (s.endMaybe σ) := by
  rw [RelayServer.endMaybe]
  split_ifs
  · exact h.closeChannel σ
  · exact h

/-- A stream that no session holds and that lives. -/
structure Fresh (s : RelayServer) (stream : RelayStream) : Prop where
  live : Live s.calls stream
  unheld : ∀ τ k stream', (s.sessions τ).streams.lookup k = some stream' → stream'.ptr ≠ stream.ptr

lemma Fresh.endMaybe {stream : RelayStream} (h : Fresh s stream) (σ : SessionId) :
    Fresh (s.endMaybe σ) stream := by
  have hclose : Live [.close σ] stream := by simp [Live]
  rw [RelayServer.endMaybe, RelayServer.closeChannel]
  split_ifs
  · exact ⟨live_append.2 ⟨h.live, hclose⟩, h.unheld⟩
  · refine ⟨?_, fun τ k stream' hk => ?_⟩
    · rw [calls_onClose, live_append]
      refine ⟨live_append.2 ⟨h.live, hclose⟩, fun stream' hin => ?_⟩
      obtain ⟨k, hk⟩ := mem_destroysOf.1 hin
      exact h.unheld σ k stream' hk
    · rcases eq_or_ne τ σ with rfl | hne
      · rw [sessions_onClose_self] at hk
        simp at hk
      · rw [sessions_onClose_ne _ _ _ hne] at hk
        exact h.unheld τ k stream' hk
  · exact h

lemma lookup_insert_stream {e : RelayEnd} {f : RelaySession → RelaySession}
    (hf : ∀ session, (f session).streams = session.streams.insert token e.stream) {τ : SessionId}
    {k : Token} {stream : RelayStream}
    (hk : ((s.modifySession e.link.session f).sessions τ).streams.lookup k = some stream) :
    (τ = e.link.session ∧ k = token ∧ stream = e.stream) ∨
      (s.sessions τ).streams.lookup k = some stream := by
  rw [sessions_modifySession] at hk
  rcases eq_or_ne τ e.link.session with rfl | hne
  · rw [Function.update_self, hf] at hk
    rcases eq_or_ne k token with rfl | hkey
    · rw [AList.lookup_insert] at hk
      exact Or.inl ⟨rfl, rfl, (Option.some.inj hk).symm⟩
    · rw [AList.lookup_insert_ne hkey] at hk
      exact Or.inr hk
  · rw [Function.update_of_ne hne] at hk
    exact Or.inr hk

lemma Fresh.track {stream : RelayStream} (h : Fresh s stream) (token : Token) {e : RelayEnd}
    (hne : e.stream.ptr ≠ stream.ptr) : Fresh (s.track token e) stream := by
  apply Fresh.endMaybe
  refine ⟨h.live, fun τ k stream' hk => ?_⟩
  rcases lookup_insert_stream (fun _ => rfl) hk with ⟨-, -, rfl⟩ | hold
  · exact hne
  · exact h.unheld τ k stream' hold

lemma Kept.track (h : Kept s) (token : Token) {e : RelayEnd} (hfresh : Fresh s e.stream)
    (hptr : e.stream.ptr < s.nextStream) : Kept (s.track token e) := by
  apply Kept.endMaybe
  refine ⟨fun τ => ?_, fun τ k stream hk => ?_, fun τ k stream hk => ?_,
    fun τ k stream τ' k' stream' hk hk' heq => ?_, h.destroyed⟩
  · rw [calls_modifySession, ← h.closed τ, sessions_modifySession]
    rcases eq_or_ne τ e.link.session with rfl | hne
    · rw [Function.update_self]
    · rw [Function.update_of_ne hne]
  · rcases lookup_insert_stream (fun _ => rfl) hk with ⟨-, -, rfl⟩ | hold
    · exact hfresh.live
    · exact h.live τ k stream hold
  · rcases lookup_insert_stream (fun _ => rfl) hk with ⟨-, -, rfl⟩ | hold
    · exact hptr
    · exact h.held τ k stream hold
  · rcases lookup_insert_stream (fun _ => rfl) hk with ⟨rfl, rfl, rfl⟩ | hold <;>
      rcases lookup_insert_stream (fun _ => rfl) hk' with ⟨rfl, rfl, rfl⟩ | hold'
    · exact ⟨rfl, rfl⟩
    · exact absurd heq.symm (hfresh.unheld τ' k' stream' hold')
    · exact absurd heq (hfresh.unheld τ k stream hold)
    · exact h.distinct τ k stream τ' k' stream' hold hold' heq

lemma Kept.fresh (h : Kept s) {stream : RelayStream} (hptr : s.nextStream ≤ stream.ptr) :
    Fresh s stream :=
  ⟨fun stream' hin => Nat.ne_of_lt (Nat.lt_of_lt_of_le (h.destroyed stream' hin) hptr),
    fun τ k stream' hk => Nat.ne_of_lt (Nat.lt_of_lt_of_le (h.held τ k stream' hk) hptr)⟩

lemma Kept.destroyStream (h : Kept s) {stream : RelayStream} (hptr : stream.ptr < s.nextStream)
    (hunheld : ∀ τ k stream', (s.sessions τ).streams.lookup k = some stream' →
      stream'.ptr ≠ stream.ptr) : Kept (s.log (.destroyStream stream)) := by
  refine ⟨fun τ => ?_, fun τ k stream' hk => ?_, h.held, h.distinct, fun stream' hin => ?_⟩
  · rw [calls_log, open_append, and_iff_left (by simp [Open])]
    exact h.closed τ
  · rw [calls_log, live_append]
    refine ⟨h.live τ k stream' hk, fun stream'' hin => ?_⟩
    obtain rfl : stream'' = stream := by simpa using hin
    exact (hunheld τ k stream' hk).symm
  · rcases List.mem_append.1 hin with hin | hin
    · exact h.destroyed stream' hin
    · obtain rfl : stream' = stream := by simpa using hin
      exact hptr

lemma Kept.dropStream (h : Kept s) (σ : SessionId) (token : Token) : Kept (s.dropStream σ token) := by
  rw [RelayServer.dropStream]
  split
  · exact h
  · rename_i stream hstream
    -- first the session gives the stream away
    have hlookup : ∀ τ k stream', ((s.modifySession σ fun session =>
        { session with streams := session.streams.erase token }).sessions τ).streams.lookup k =
          some stream' → (s.sessions τ).streams.lookup k = some stream' ∧ stream'.ptr ≠ stream.ptr := by
      intro τ k stream' hk
      rw [sessions_modifySession] at hk
      rcases eq_or_ne τ σ with rfl | hne
      · rw [Function.update_self] at hk
        rcases eq_or_ne k token with rfl | hkey
        · simp at hk
        · rw [AList.lookup_erase_ne hkey] at hk
          exact ⟨hk, fun heq => hkey (h.distinct τ k stream' τ token stream hk hstream heq).2⟩
      · rw [Function.update_of_ne hne] at hk
        exact ⟨hk, fun heq => hne (h.distinct τ k stream' σ token stream hk hstream heq).1⟩
    have hgiven : Kept (s.modifySession σ fun session =>
        { session with streams := session.streams.erase token }) := by
      refine ⟨fun τ => ?_, fun τ k stream' hk => h.live τ k stream' (hlookup τ k stream' hk).1,
        fun τ k stream' hk => h.held τ k stream' (hlookup τ k stream' hk).1,
        fun τ k stream₁ τ' k' stream₂ hk hk' => h.distinct τ k stream₁ τ' k' stream₂
          (hlookup τ k stream₁ hk).1 (hlookup τ' k' stream₂ hk').1, h.destroyed⟩
      rw [calls_modifySession, ← h.closed τ, sessions_modifySession]
      rcases eq_or_ne τ σ with rfl | hne
      · rw [Function.update_self]
      · rw [Function.update_of_ne hne]
    exact hgiven.destroyStream (h.held σ token stream hstream) fun τ k stream' hk =>
      (hlookup τ k stream' hk).2

lemma Kept.confirm (h : Kept s) (token : Token) (e : RelayEnd) : Kept (s.confirm token e) := by
  have hend : ¬ (RelayCall.send e.link.session (e.confirmation token) e.stream).IsEnd := id
  exact h.log hend

lemma Kept.wire (h : Kept s) (token : Token) {a b : RelayEnd} (hfreshA : Fresh s a.stream)
    (hfreshB : Fresh s b.stream) (hne : a.stream.ptr ≠ b.stream.ptr)
    (hptrA : a.stream.ptr < s.nextStream) (hptrB : b.stream.ptr < s.nextStream) :
    Kept (s.wire token a b) := by
  have hfirst := h.track token hfreshA hptrA
  have hsecond := hfirst.track token (hfreshB.track token hne)
    (Nat.lt_of_lt_of_le hptrB (quiet_track s token a).nextStream)
  exact (hsecond.confirm token a).confirm token b

lemma Kept.relayTo (h : Kept s) (token : Token) (a b : RelayEnd) (ok : Bool) :
    Kept (((s.removePair token).makeStreams 2).log (.relayTo token a b ok)) := by
  have hend : ¬ (RelayCall.relayTo token a b ok).IsEnd := id
  have hmade : Kept ((s.removePair token).makeStreams 2) :=
    h.congr rfl (Nat.le_add_right _ _) (fun _ => rfl) fun _ => rfl
  exact hmade.log hend

lemma Fresh.relayTo {stream : RelayStream} (h : Fresh s stream) (token : Token) (a b : RelayEnd)
    (ok : Bool) :
    Fresh (((s.removePair token).makeStreams 2).log (.relayTo token a b ok)) stream :=
  ⟨live_append.2 ⟨h.live, by simp [Live]⟩, h.unheld⟩

lemma Kept.complete (h : Kept s) {pair : RelayPair} {responder initiator : Link}
    (hresponder : pair.links false = some responder) (hinitiator : pair.links true = some initiator)
    (draw : Draw) : Kept (s.complete pair draw) := by
  rcases s.complete_cases hresponder hinitiator draw with
    ⟨-, n, heq⟩ | ⟨firstId, secondId, a, b, ha, hb, hcase⟩
  · rw [heq]
    exact h.congr rfl (Nat.le_add_right _ _) (fun _ => rfl) fun _ => rfl
  · have hptrA : a.stream.ptr = s.nextStream := by rw [ha]
    have hptrB : b.stream.ptr = s.nextStream + 1 := by rw [hb]
    have hltA : a.stream.ptr < s.nextStream + 2 := by omega
    have hltB : b.stream.ptr < s.nextStream + 2 := by omega
    have hfreshA : Fresh s a.stream := h.fresh (by omega)
    have hfreshB : Fresh s b.stream := h.fresh (by omega)
    rcases hcase with ⟨-, heq⟩ | ⟨-, heq⟩ <;> rw [heq]
    · have hfirst := (h.relayTo pair.token a b false).destroyStream hltA hfreshA.unheld
      exact hfirst.destroyStream hltB hfreshB.unheld
    · exact (h.relayTo pair.token a b true).wire pair.token (hfreshA.relayTo ..)
        (hfreshB.relayTo ..) (by omega) hltA hltB

lemma Kept.takeBack (h : Kept s) (σ : SessionId) (token : Token) : Kept (s.takeBack σ token) := by
  have hforget : Kept (s.modifySession σ fun session =>
      { session with pairingTokens := session.pairingTokens.erase token }) :=
    h.modifySession σ _ rfl rfl
  exact hforget.congr rfl (Nat.le_refl _) (fun _ => rfl) fun _ => rfl

lemma Kept.evict (h : Kept s) : Kept s.evict :=
  h.congr rfl (Nat.le_refl _) (fun _ => rfl) fun _ => rfl

lemma Kept.enter (h : Kept s) (pair : RelayPair) (link : Link) : Kept (s.enter pair link) := by
  have hmodify : Kept (s.modifySession link.session fun session =>
      { session with pairingTokens := insert pair.token session.pairingTokens }) :=
    h.modifySession link.session _ rfl rfl
  exact hmodify.congr rfl (Nat.le_refl _) (fun _ => rfl) fun _ => rfl

lemma Kept.unpairPending (h : Kept s) (σ : SessionId) (token : Token) :
    Kept (s.unpairPending σ token) := by
  rw [RelayServer.unpairPending]
  split_ifs
  · exact (h.takeBack σ token).endMaybe σ
  · exact h

/-- Every step keeps what the sessions hold in order. -/
theorem keptStreams_step (s : RelayServer) (i : ServerInput) (hlinked : Linked s) (h : Kept s) :
    Kept (serverStep s i) := by
  cases i with
  | pair σ data draw =>
    rw [serverStep]
    rcases hlinked.onPair_cases σ data draw with ⟨-, heq⟩ | ⟨-, ⟨_, _, -, -, -, heq⟩ | ⟨-, heq⟩ |
      ⟨pair, other, hlookup, hwaits, hrole, heq⟩⟩ <;> rw [heq]
    · exact h
    · exact h.evict
    · exact h.evict.enter _ _
    · obtain ⟨responder, initiator, hresponder, hinitiator, -⟩ :=
        @RelayPair.Waits.ends pair (s.newLink σ (decodePair data)) other hwaits hrole
      exact (h.evict.enter _ _).complete hresponder hinitiator draw
  | unpair σ data =>
    rw [serverStep, onUnpair]
    split_ifs
    · exact h
    · exact (h.unpairPending σ _).dropStream σ _
  | close σ =>
    rw [serverStep, RelayServer.close]
    split_ifs
    · exact h
    · exact h.closeChannel σ
    · exact h.modifySession σ _ rfl rfl
  | destroy σ =>
    rw [serverStep, RelayServer.destroy]
    split_ifs
    · exact h
    · exact (h.modifySession σ _ rfl rfl).closeChannel σ
  | remoteClose σ =>
    rw [serverStep, RelayServer.remoteClose]
    split_ifs
    · exact h
    · exact h.onClose σ (Or.inr rfl)
  | tick elapsed => exact h.congr rfl (Nat.le_refl _) (fun _ => rfl) fun _ => rfl

end Kept

/-! ## Lawful calls -/

section Lawful

variable {s : RelayServer} {σ : SessionId} {token : Token}

lemma Kept.live_destroysOf (h : Kept s) {history rest : List RelayCall} {call : RelayCall}
    (hsplit : destroysOf (s.sessions σ) = history ++ call :: rest) :
    ∃ k stream, call = .destroyStream stream ∧ (s.sessions σ).streams.lookup k = some stream ∧
      Live history stream := by
  obtain ⟨before, tail, hentries, rfl, htail⟩ := List.map_eq_append_iff.1 hsplit
  obtain ⟨⟨k, stream⟩, after, rfl, rfl, rfl⟩ := List.map_eq_cons_iff.1 htail
  have hnodup := (s.sessions σ).streams.nodupKeys
  have hmem : ∀ entry ∈ before ++ ⟨k, stream⟩ :: after,
      (s.sessions σ).streams.lookup entry.1 = some entry.2 := fun entry hin =>
    AList.mem_lookup_iff.2 (hentries ▸ hin)
  refine ⟨k, stream, rfl, hmem ⟨k, stream⟩ (by simp), fun stream' hin hptr => ?_⟩
  obtain ⟨⟨k', stream''⟩, hbefore, heq⟩ := List.mem_map.1 hin
  obtain rfl : stream'' = stream' := by simpa using heq
  -- the other stream has another key, but the same place
  have hkey : k' = k := (h.distinct σ k' stream'' σ k stream
    (hmem ⟨k', stream''⟩ (List.mem_append_left _ hbefore)) (hmem ⟨k, stream⟩ (by simp)) hptr).2
  rw [hentries, List.NodupKeys, List.keys, List.map_append, List.map_cons] at hnodup
  exact (List.nodup_append.1 hnodup).2.2 k' (List.mem_map_of_mem hbefore) k
    (List.mem_cons_self ..) hkey

lemma Kept.lawful_onClose (h : Kept s) (hlawful : Trace.Always RelayCall.Lawful s.calls)
    {call : RelayCall} (hcall : call = .close σ ∨ call = .remoteClose σ)
    (hopen : (s.sessions σ).closed = false) :
    Trace.Always RelayCall.Lawful ((s.log call).onClose σ).calls := by
  rw [calls_onClose, calls_log, Trace.always_append, Trace.always_concat]
  refine ⟨⟨hlawful, ?_⟩, fun history e rest hsplit => ?_⟩
  · rcases hcall with rfl | rfl
    · exact (h.closed σ).1 hopen
    · trivial
  · obtain ⟨k, stream, rfl, hk, hlive⟩ := h.live_destroysOf hsplit
    have hsingle : Live [call] stream := by rcases hcall with rfl | rfl <;> simp [Live]
    exact live_append.2 ⟨live_append.2 ⟨h.live σ k stream hk, hsingle⟩, hlive⟩

lemma Kept.lawful_closeChannel_iff (h : Kept s) (hlawful : Trace.Always RelayCall.Lawful s.calls) :
    Trace.Always RelayCall.Lawful (s.closeChannel σ).calls ↔ (s.sessions σ).closed = false := by
  rw [RelayServer.closeChannel]
  split_ifs with hclosed
  · rw [calls_log, Trace.always_concat, and_iff_right hlawful]
    exact (h.closed σ).symm
  · have hopen : (s.sessions σ).closed = false := by simpa using hclosed
    exact iff_of_true (h.lawful_onClose hlawful (Or.inl rfl) hopen) hopen

lemma Kept.lawful_unpairPending (h : Kept s) (hlawful : Trace.Always RelayCall.Lawful s.calls)
    (hopen : (s.sessions σ).closed = false) (token : Token) :
    Trace.Always RelayCall.Lawful (s.unpairPending σ token).calls := by
  rw [RelayServer.unpairPending]
  split_ifs
  · have hopen' : ((s.takeBack σ token).sessions σ).closed = false := by
      simp [RelayServer.takeBack, hopen]
    rw [RelayServer.endMaybe]
    split_ifs
    · exact ((h.takeBack σ token).lawful_closeChannel_iff hlawful).2 hopen'
    · exact hlawful
  · exact hlawful

lemma Kept.lawful_dropStream (h : Kept s) (hlawful : Trace.Always RelayCall.Lawful s.calls)
    (σ : SessionId) (token : Token) :
    Trace.Always RelayCall.Lawful (s.dropStream σ token).calls := by
  rw [RelayServer.dropStream]
  split
  · exact hlawful
  · rename_i stream hstream
    exact Trace.always_concat.2 ⟨hlawful, h.live σ token stream hstream⟩

/-! ## The last request of a session -/

/-- The session waits to be closed, and has no request but one for the token. -/
def LastFor (s : RelayServer) (τ : SessionId) (token : Token) : Prop :=
  (s.sessions τ).pendingClose = true ∧ (s.sessions τ).pairingTokens ⊆ {token}

instance (s : RelayServer) (τ : SessionId) (token : Token) : Decidable (LastFor s τ token) :=
  inferInstanceAs (Decidable ((s.sessions τ).pendingClose = true ∧ (s.sessions τ).pairingTokens ⊆ {token}))

lemma lastFor_iff {τ : SessionId} :
    LastFor s τ token ↔ (s.sessions τ).pendingClose = true ∧ (s.sessions τ).pairingTokens.erase token = ∅ := by
  rw [LastFor, Finset.erase_eq_empty_iff, Finset.subset_singleton_iff]

lemma track_of_not_lastFor {e : RelayEnd} (h : ¬ LastFor s e.link.session token) :
    s.track token e = s.modifySession e.link.session fun session =>
      { session with
        pairingTokens := session.pairingTokens.erase token
        streams := session.streams.insert token e.stream } := by
  rw [track, endMaybe, if_neg]
  rw [lastFor_iff] at h
  simpa using h

lemma mem_track_of_lastFor {e : RelayEnd} (h : LastFor s e.link.session token) :
    .close e.link.session ∈ (s.track token e).calls := by
  rw [lastFor_iff] at h
  rw [track, endMaybe, if_pos (by simpa using h), closeChannel]
  split_ifs
  · simp
  · rw [calls_onClose]
    simp

lemma lastFor_track (e : RelayEnd) (τ : SessionId) :
    LastFor (s.track token e) τ token ↔ LastFor s τ token := by
  have hpending : ((s.track token e).sessions τ).pendingClose = (s.sessions τ).pendingClose := by
    rw [track, endMaybe, closeChannel]
    rcases eq_or_ne τ e.link.session with rfl | hne
    · split_ifs <;> simp
    · split_ifs
      · simp [hne]
      · rw [sessions_onClose_ne _ _ _ hne]
        simp [hne]
      · simp [hne]
  rw [lastFor_iff, lastFor_iff, hpending, pairingTokens_track]
  split_ifs <;> simp

lemma lawful_wire_iff {a b : RelayEnd} (hlawful : Trace.Always RelayCall.Lawful s.calls)
    (hopenA : Open s.calls a.link.session) (hopenB : Open s.calls b.link.session)
    (hliveA : Live s.calls a.stream) (hliveB : Live s.calls b.stream) :
    Trace.Always RelayCall.Lawful (s.wire token a b).calls ↔
      ¬ LastFor s a.link.session token ∧ ¬ LastFor s b.link.session token := by
  have hcalls : (s.wire token a b).calls = ((s.track token a).track token b).calls ++
      [.send a.link.session (a.confirmation token) a.stream] ++
      [.send b.link.session (b.confirmation token) b.stream] := rfl
  rw [hcalls]
  constructor
  · intro h
    obtain ⟨⟨-, hsendA⟩, hsendB⟩ := (Trace.always_concat.trans
      (and_congr_left' Trace.always_concat)).1 h
    refine ⟨fun hlast => hsendA.1.1 ?_, fun hlast => hsendB.1.1 (List.mem_append_left _ ?_)⟩
    · obtain ⟨ends, heq, -⟩ := (quiet_track (s.track token a) token b).calls
      rw [heq]
      exact List.mem_append_left _ (mem_track_of_lastFor hlast)
    · exact mem_track_of_lastFor ((lastFor_track a _).2 hlast)
  · rintro ⟨hnotA, hnotB⟩
    have hsame : ((s.track token a).track token b).calls = s.calls := by
      rw [track_of_not_lastFor fun hlast => hnotB ((lastFor_track a _).1 hlast),
        track_of_not_lastFor hnotA]
      rfl
    rw [hsame]
    refine Trace.always_concat.2 ⟨Trace.always_concat.2 ⟨hlawful, hopenA, hliveA⟩, ?_, ?_⟩
    · exact open_append.2 ⟨hopenB, by simp [Open]⟩
    · exact live_append.2 ⟨hliveB, by simp [Live]⟩

lemma Kept.lawful_complete_iff (h : Kept s) (hlawful : Trace.Always RelayCall.Lawful s.calls)
    {pair : RelayPair} {responder initiator : Link} (hresponder : pair.links false = some responder)
    (hinitiator : pair.links true = some initiator)
    (hopenR : (s.sessions responder.session).closed = false)
    (hopenI : (s.sessions initiator.session).closed = false) (draw : Draw) :
    Trace.Always RelayCall.Lawful (s.complete pair draw).calls ↔
      (draw.ok = true → ¬ LastFor s responder.session pair.token ∧
        ¬ LastFor s initiator.session pair.token) := by
  rcases s.complete_cases hresponder hinitiator draw with
    ⟨hok, n, heq⟩ | ⟨firstId, secondId, a, b, ha, hb, hcase⟩
  · rw [heq, hok]
    exact iff_of_true hlawful (by simp)
  · have hfreshA : Fresh s a.stream := h.fresh (by rw [ha])
    have hfreshB : Fresh s b.stream := h.fresh (by rw [hb]; exact Nat.le_succ _)
    have hne : a.stream.ptr ≠ b.stream.ptr := by
      rw [ha, hb]
      exact Nat.ne_of_lt (Nat.lt_succ_self _)
    have hrelay : ∀ ok, Trace.Always RelayCall.Lawful
        (s.calls ++ [.relayTo pair.token a b ok]) := fun ok =>
      Trace.always_concat.2 ⟨hlawful, hfreshA.live, hfreshB.live⟩
    rcases hcase with ⟨hok, heq⟩ | ⟨hok, heq⟩ <;> rw [heq, hok]
    · refine iff_of_true ?_ (by simp)
      refine Trace.always_concat.2 ⟨Trace.always_concat.2 ⟨hrelay false, ?_⟩, ?_⟩
      · exact live_append.2 ⟨hfreshA.live, by simp [Live]⟩
      · exact live_append.2 ⟨live_append.2 ⟨hfreshB.live, by simp [Live]⟩, by simpa [Live] using hne⟩
    · have hopen : ∀ τ, (s.sessions τ).closed = false →
          Open (s.calls ++ [.relayTo pair.token a b true]) τ := fun τ hτ =>
        open_append.2 ⟨(h.closed τ).1 hτ, by simp [Open]⟩
      have hlive : ∀ stream, Live s.calls stream →
          Live (s.calls ++ [.relayTo pair.token a b true]) stream := fun stream hstream =>
        live_append.2 ⟨hstream, by simp [Live]⟩
      have hiff := @lawful_wire_iff (((s.removePair pair.token).makeStreams 2).log
        (.relayTo pair.token a b true)) pair.token a b (hrelay true)
        (hopen a.link.session (by rw [ha]; exact hopenR))
        (hopen b.link.session (by rw [hb]; exact hopenI)) (hlive a.stream hfreshA.live)
        (hlive b.stream hfreshB.live)
      rw [hiff]
      simp only [LastFor, sessions_log, sessions_makeStreams, sessions_removePair, ha, hb, forall_const]

end Lawful

/-! ## The condition on the steps -/

/-- The request that waits for a message to complete it. -/
def RelayServer.counterpart (s : RelayServer) (msg : PairMessage) : Option Link :=
  (s.evict.pairings.lookup msg.token).bind fun pair => pair.links (!msg.isInitiator)

/-- A Pair message that completes a pairing, whose streams can be made and wired, completes the last request of
no session that waits to be closed; and `destroy` is not called on a session that is closed already. -/
def EndsGracefully (s : RelayServer) : ServerInput → Prop
  | .pair σ data draw =>
    ((s.sessions σ).closed = true ∨ s.full (decodePair data).token = true) ∨
      (draw.ok = true → ∀ other ∈ s.counterpart (decodePair data),
        ¬ LastFor s σ (decodePair data).token ∧ ¬ LastFor s other.session (decodePair data).token)
  | .destroy σ => (s.sessions σ).closed = true → (s.sessions σ).destroyed = true
  | _ => True

instance (s : RelayServer) : (i : ServerInput) → Decidable (EndsGracefully s i)
  | .pair σ data draw => inferInstanceAs (Decidable
      (((s.sessions σ).closed = true ∨ s.full (decodePair data).token = true) ∨
        (draw.ok = true → ∀ other ∈ s.counterpart (decodePair data),
          ¬ LastFor s σ (decodePair data).token ∧ ¬ LastFor s other.session (decodePair data).token)))
  | .destroy σ =>
    inferInstanceAs (Decidable ((s.sessions σ).closed = true → (s.sessions σ).destroyed = true))
  | .unpair _ _ => .isTrue trivial
  | .close _ => .isTrue trivial
  | .remoteClose _ => .isTrue trivial
  | .tick _ => .isTrue trivial

/-- **When a step is lawful.** -/
theorem lawful_step_iff (s : RelayServer) (i : ServerInput) (hlinked : Linked s) (h : Kept s)
    (hlawful : Trace.Always RelayCall.Lawful s.calls) :
    Trace.Always RelayCall.Lawful (serverStep s i).calls ↔ EndsGracefully s i := by
  cases i with
  | pair σ data draw =>
    rw [serverStep, EndsGracefully]
    rcases hlinked.onPair_cases σ data draw with ⟨hignored, heq⟩ | ⟨⟨hopen, hfull⟩,
      ⟨pair, other, hpair, hwaits, hrole, heq⟩ | ⟨hnone, heq⟩ |
      ⟨pair, other, hpair, hwaits, hrole, heq⟩⟩ <;> rw [heq]
    · exact iff_of_true hlawful (Or.inl hignored)
    · have hnone : s.counterpart (decodePair data) = none := by
        rw [RelayServer.counterpart, hpair, ← hrole]
        exact hwaits.links_not
      exact iff_of_true hlawful (Or.inr (by simp [hnone]))
    · have hnone' : s.counterpart (decodePair data) = none := by
        rw [RelayServer.counterpart, hnone]
        rfl
      exact iff_of_true hlawful (Or.inr (by simp [hnone']))
    · have hsome : s.counterpart (decodePair data) = some other := by
        rw [RelayServer.counterpart, hpair, hrole]
        simpa using hwaits.links_self
      have htoken := hlinked.evict.token _ pair hpair
      obtain ⟨responder, initiator, hresponder, hinitiator, -, -, hends⟩ :=
        @RelayPair.Waits.ends pair (s.newLink σ (decodePair data)) other hwaits hrole
      obtain ⟨other', hother', hin⟩ := hlinked.evict.waits _ pair hpair
      obtain rfl := hwaits.eq hother'
      -- the session of the request that waited is open, since it knows the token
      have hopenOther : (s.sessions other.session).closed = false := by
        by_contra hclosed
        rw [sessions_evict, hlinked.closed _ (by simpa using hclosed)] at hin
        exact absurd hin (Finset.notMem_empty _)
      have hopens : ∀ τ, (s.sessions τ).closed = false → ((s.evict.enter pair
          (s.newLink σ (decodePair data))).sessions τ).closed = false := by
        intro τ hτ
        rcases eq_or_ne τ σ with rfl | hne
        · simpa [enter, newLink] using hτ
        · simpa [enter, newLink, hne] using hτ
      have hlast : ∀ τ, LastFor (s.evict.enter pair (s.newLink σ (decodePair data))) τ
          (decodePair data).token ↔ LastFor s τ (decodePair data).token := by
        intro τ
        rw [lastFor_iff, lastFor_iff]
        rcases eq_or_ne τ σ with rfl | hne
        · simp [enter, newLink, htoken]
        · simp [enter, newLink, hne]
      have henter : Kept (s.evict.enter pair (s.newLink σ (decodePair data))) := h.evict.enter _ _
      have hfill : (pair.fill (s.newLink σ (decodePair data))).token = (decodePair data).token := htoken
      rcases hends with ⟨rfl, rfl⟩ | ⟨rfl, rfl⟩
      · rw [henter.lawful_complete_iff hlawful hresponder hinitiator (hopens _ hopenOther)
          (hopens _ hopen), hfill, hlast, hlast]
        simp [hopen, hfull, hsome, newLink, and_comm]
      · rw [henter.lawful_complete_iff hlawful hresponder hinitiator (hopens _ hopen)
          (hopens _ hopenOther), hfill, hlast, hlast]
        simp [hopen, hfull, hsome, newLink]
  | unpair σ data =>
    refine iff_of_true ?_ trivial
    rw [serverStep, onUnpair]
    split_ifs with hclosed
    · exact hlawful
    · exact (h.unpairPending σ _).lawful_dropStream
        (h.lawful_unpairPending hlawful (by simpa using hclosed) _) σ _
  | close σ =>
    refine iff_of_true ?_ trivial
    rw [serverStep, RelayServer.close]
    split_ifs with hclosed
    · exact hlawful
    · exact (h.lawful_closeChannel_iff hlawful).2 (by simpa using hclosed)
    · exact hlawful
  | destroy σ =>
    rw [serverStep, RelayServer.destroy, EndsGracefully]
    split_ifs with hdestroyed
    · exact iff_of_true hlawful fun _ => hdestroyed
    · have hmodify : Kept (s.modifySession σ fun session => { session with destroyed := true }) :=
        h.modifySession σ _ rfl rfl
      rw [hmodify.lawful_closeChannel_iff hlawful]
      simp [hdestroyed]
  | remoteClose σ =>
    refine iff_of_true ?_ trivial
    rw [serverStep, RelayServer.remoteClose]
    split_ifs with hclosed
    · exact hlawful
    · exact h.lawful_onClose hlawful (Or.inr rfl) (by simpa using hclosed)
  | tick elapsed => exact iff_of_true hlawful trivial

lemma kept_init : Kept {} where
  closed _ := by simp [Open]
  live _ _ _ h := by simp at h
  held _ _ _ h := by simp at h
  distinct _ _ _ _ _ _ h := by simp at h
  destroyed _ h := by simp at h

/-- **Graceful closing**: in a run of the relay, with any number of sessions, all states are graceful exactly when
no Pair message completes the last request of a session that waits to be closed, and `destroy` is called on no
session that is closed already. -/
theorem graceful_iff (is : List ServerInput) :
    Runs.EveryState serverStep Graceful {} is ↔ Runs.EveryStep serverStep EndsGracefully {} is := by
  have hinit : Confirmed ({} : RelayServer).calls := rfl
  refine Runs.everyState_iff_everyStep
    (I := fun s => Linked s ∧ Kept s ∧ Wired s ∧ Confirmed s.calls)
    (fun s i h => ⟨linked_step s i h.1, keptStreams_step s i h.1 h.2.1,
      wired_step s i h.1 h.2.2.1 h.2.2.2⟩)
    (fun s i h hs => ?_) ⟨linked_init, kept_init, wired_init, hinit⟩
    ((graceful_iff_lawful hinit).2 (Trace.always_nil _))
  obtain ⟨hlinked, hkept, hwired, hconfirmed⟩ := h
  rw [graceful_iff_lawful (wired_step s i hlinked hwired hconfirmed).2]
  exact lawful_step_iff s i hlinked hkept hs.lawful

/-! ## Two runs -/

def onesToken : Token := List.Vector.replicate 32 1

/-- A session that waits to be closed has two requests; one of them is completed, the other one is taken back. -/
def oneLeftRun : List ServerInput :=
  [.pair 0 (pairData zeroToken true) goodDraw, .pair 0 (pairData onesToken true) goodDraw, .close 0,
    .pair 1 (pairData zeroToken false) goodDraw, .unpair 0 (encodeUnpair { token := onesToken })]

example : Runs.EveryStep serverStep EndsGracefully {} oneLeftRun := by decide +kernel

def lastPairRun : List ServerInput :=
  [.pair 0 (pairData zeroToken true) goodDraw, .close 0, .pair 1 (pairData zeroToken false) goodDraw]

/-- The channel is closed, and the stream destroyed, before the confirmation is sent. -/
theorem not_graceful_lastPairRun : ¬ Runs.EveryState serverStep Graceful {} lastPairRun := by
  intro hall
  have hcalls : (Runs.run serverStep {} lastPairRun).calls =
      [.relayTo zeroToken ⟨⟨1, false, 0, 1⟩, ⟨0, 5⟩⟩ ⟨⟨0, true, 0, 0⟩, ⟨1, 6⟩⟩ true] ++
        .close 0 :: [.destroyStream ⟨1, 6⟩, .send 1 ⟨false, zeroToken, 5, 0⟩ ⟨0, 5⟩,
          .send 0 ⟨true, zeroToken, 6, 0⟩ ⟨1, 6⟩] := by
    decide +kernel
  exact hall.run.last _ 0 _ hcalls ⟨true, zeroToken, 6, 0⟩ ⟨1, 6⟩ (by simp)

end HyperDHT.BlindRelay
