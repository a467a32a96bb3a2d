import HyperDHT.Server.Steps
import HyperDHT.Lib.Custody
import HyperDHT.Lib.Runs

/-!
# The streams of the sessions

A session keeps its stream until the client gets through, when the stream is handed out, or until the
session ends, when the stream is destroyed. All of this is what the owner of the streams may do, but for
one thing: when a relay pairs the sides, the session ends, which destroys its stream, and the stream is
handed out then.

## Main definitions

* `Server.custody` — the streams as things in the custody of the server.
* `Server.Moves` — the server does with its streams what it may, and all sessions, calls and relays
  come from those before.
* `Server.Labelled` — sessions, calls and relays go with the message of their stream.
* `Server.CalledByRelay` — a relay has paired the sides, and the stream of the session is handed out.

## Main results

* `Server.step_moves` — what a step does with the streams.
* `Server.Kept.step` — what holds of the streams after every run.
-/

set_option autoImplicit false

namespace HyperDHT.Server

open Compact Handlers

variable {env : Env} {s s' t : Server}

/-! ## Custody -/

/-- The stream was destroyed. -/
def streamDestroyed (s : Server) (p : ℕ) : Prop :=
  ∃ st : RawStream, s.streams[p]? = some st ∧ st.destroyed = true

/-- The streams that the server made: a session keeps one under its id. -/
def custody (s : Server) : Custody UInt32 where
  made := s.streams.length
  held hpId := (s.connections.lookup hpId).bind (·.rawStream)
  destroyed := streamDestroyed s
  given := s.accepted.filterMap (·.2.rawStream)

lemma custody_modifyStream (s : Server) (p : ℕ) {f : RawStream → RawStream}
    (hf : ∀ st, (f st).destroyed = st.destroyed) : (s.modifyStream p f).custody = s.custody := by
  have hdestroyed : streamDestroyed (s.modifyStream p f) = streamDestroyed s := by
    funext q
    by_cases hq : p = q
    · subst hq
      simp [streamDestroyed, modifyStream, hf]
    · simp [streamDestroyed, modifyStream, hq]
  rw [custody, hdestroyed]
  simp [custody, modifyStream]

lemma custody_destroyConnection {conn : ServerConnection} {p : ℕ} (hp : conn.rawStream = some p)
    (hlt : p < s.streams.length) : (s.destroyConnection conn).custody = s.custody.destroy p := by
  have hdestroyed : streamDestroyed (s.destroyConnection conn) =
      fun q => q = p ∨ streamDestroyed s q := by
    funext q
    by_cases hq : p = q
    · subst hq
      simp [streamDestroyed, destroyConnection, hp, modifyStream, hlt]
    · simp [streamDestroyed, destroyConnection, hp, modifyStream, hq, Ne.symm hq]
  rw [custody, hdestroyed]
  simp [custody, Custody.destroy, destroyConnection, hp, modifyStream]

lemma custody_erase (s : Server) (hpId : UInt32) :
    custody { s with connections := s.connections.erase hpId } = s.custody.empty hpId := by
  have hheld : ∀ id, ((s.connections.erase hpId).lookup id).bind (·.rawStream) =
      Function.update (fun id => (s.connections.lookup id).bind (·.rawStream)) hpId none id := by
    intro id
    by_cases hid : id = hpId
    · subst hid
      simp
    · simp [hid]
  simp only [custody, Custody.empty, Custody.mk.injEq, true_and, and_true]
  exact ⟨funext hheld, rfl⟩

lemma custody_drop (h : ∀ hpId p, s.custody.held hpId = some p → p < s.streams.length)
    {hpId : UInt32} {conn : ServerConnection} (hconn : s.connections.lookup hpId = some conn) :
    custody ({ s with connections := s.connections.erase hpId }.destroyConnection conn) =
      s.custody.drop hpId := by
  have hheld : s.custody.held hpId = conn.rawStream := by simp [custody, hconn]
  rw [Custody.drop, hheld]
  cases hp : conn.rawStream with
  | none => rw [destroyConnection, hp, custody_erase]
  | some p =>
    have hlt := h hpId p (hheld.trans hp)
    rw [custody_destroyConnection (s := { s with connections := s.connections.erase hpId }) hp hlt,
      custody_erase]

lemma custody_congr (hconnections : s'.connections = s.connections)
    (hstreams : s'.streams = s.streams) (haccepted : s'.accepted = s.accepted) :
    s'.custody = s.custody := by
  have hdestroyed : streamDestroyed s' = streamDestroyed s := by
    funext p
    rw [streamDestroyed, streamDestroyed, hstreams]
  rw [custody, custody, hconnections, hdestroyed, hstreams, haccepted]

lemma custody_accept {e : List UInt8 × ConnectionInfo} {p : ℕ}
    (haccepted : s'.accepted = s.accepted ++ [e]) (hp : e.2.rawStream = some p)
    (hconnections : s'.connections = s.connections) (hstreams : s'.streams = s.streams) :
    s'.custody = s.custody.give p := by
  have hsame : custody { s' with accepted := s.accepted } = s.custody :=
    custody_congr hconnections hstreams rfl
  rw [← hsame]
  simp only [custody, Custody.give, haccepted, List.filterMap_append, List.filterMap_cons, hp,
    List.filterMap_nil]
  rfl

/-! ## What a step does with the streams -/

/-- Nothing is there that does not come from before: sessions, calls and relays keep their message and
their stream. -/
structure Descends (s s' : Server) : Prop where
  streams : StreamsKept s s'
  made : s'.streams.length = s.streams.length
  connections : ∀ hpId conn', s'.connections.lookup hpId = some conn' →
    ∃ conn, s.connections.lookup hpId = some conn ∧ conn'.rawStream = conn.rawStream ∧
      conn'.noise = conn.noise ∧ conn'.replyNoise = conn.replyNoise
  accepted : ∀ e ∈ s'.accepted, e ∈ s.accepted ∨
    ∃ hpId conn, s.connections.lookup hpId = some conn ∧ e.1 = conn.noise ∧
      e.2.rawStream = conn.rawStream
  attempts : ∀ a ∈ s'.relayAttempts, ∃ a' ∈ s.relayAttempts, a.noise = a'.noise ∧
    a.rawStream = a'.rawStream ∧ a.hpId = a'.hpId
  replies : s'.replies = s.replies

/-- The server does with its streams what it may. -/
structure Moves (s s' : Server) : Prop where
  custody : Custody.Steps s.custody s'.custody
  descends : Descends s s'

lemma Descends.refl (s : Server) : Descends s s where
  streams := .refl s
  made := rfl
  connections _ conn' h := ⟨conn', h, rfl, rfl, rfl⟩
  accepted _ h := .inl h
  attempts a h := ⟨a, h, rfl, rfl, rfl⟩
  replies := rfl

lemma Moves.refl (s : Server) : Moves s s := ⟨.refl, .refl s⟩

lemma Descends.trans (h₁ : Descends s s') (h₂ : Descends s' t) : Descends s t where
  streams := h₁.streams.trans h₂.streams
  made := h₂.made.trans h₁.made
  connections := by
    intro hpId conn hconn
    obtain ⟨conn₁, hconn₁, hraw₁, hnoise₁, hreply₁⟩ := h₂.connections hpId conn hconn
    obtain ⟨conn₂, hconn₂, hraw₂, hnoise₂, hreply₂⟩ := h₁.connections hpId conn₁ hconn₁
    exact ⟨conn₂, hconn₂, hraw₁.trans hraw₂, hnoise₁.trans hnoise₂, hreply₁.trans hreply₂⟩
  accepted := by
    intro e he
    rcases h₂.accepted e he with hold | ⟨hpId, conn, hconn, hnoise, hraw⟩
    · exact h₁.accepted e hold
    · obtain ⟨conn', hconn', hraw', hnoise', -⟩ := h₁.connections hpId conn hconn
      exact .inr ⟨hpId, conn', hconn', hnoise.trans hnoise', hraw.trans hraw'⟩
  attempts := by
    intro a ha
    obtain ⟨a₁, ha₁, hnoise₁, hraw₁, hid₁⟩ := h₂.attempts a ha
    obtain ⟨a₂, ha₂, hnoise₂, hraw₂, hid₂⟩ := h₁.attempts a₁ ha₁
    exact ⟨a₂, ha₂, hnoise₁.trans hnoise₂, hraw₁.trans hraw₂, hid₁.trans hid₂⟩
  replies := h₂.replies.trans h₁.replies

lemma Moves.trans (h₁ : Moves s s') (h₂ : Moves s' t) : Moves s t :=
  ⟨h₁.custody.trans h₂.custody, h₁.descends.trans h₂.descends⟩

lemma Moves.of_eq (hconnections : s'.connections = s.connections) (hstreams : s'.streams = s.streams)
    (haccepted : s'.accepted = s.accepted) (hreplies : s'.replies = s.replies)
    (hattempts : ∀ a ∈ s'.relayAttempts, ∃ a' ∈ s.relayAttempts, a.noise = a'.noise ∧
      a.rawStream = a'.rawStream ∧ a.hpId = a'.hpId) : Moves s s' := by
  refine ⟨?_, .of_eq hstreams, by rw [hstreams], ?_, ?_, hattempts, hreplies⟩
  · rw [custody_congr hconnections hstreams haccepted]
  · rw [hconnections]
    exact (Descends.refl s).connections
  · rw [haccepted]
    exact fun e he => .inl he

lemma moves_modifyStream (s : Server) (p : ℕ) {f : RawStream → RawStream}
    (hf : ∀ st, (f st).localId = st.localId ∧ (f st).noise = st.noise)
    (hdestroyed : ∀ st, (f st).destroyed = st.destroyed) : Moves s (s.modifyStream p f) where
  custody := by rw [custody_modifyStream s p hdestroyed]
  descends := { Descends.refl s with
    streams := modifyStream_streamsKept s p hf
    made := List.length_modify f s.streams p }

lemma descends_erase (s : Server) (hpId : UInt32) :
    Descends s { s with connections := s.connections.erase hpId } where
  streams := .of_eq rfl
  made := rfl
  connections := by
    intro id conn hconn
    exact ⟨conn, lookup_of_erase hconn, rfl, rfl, rfl⟩
  accepted _ h := .inl h
  attempts a h := ⟨a, h, rfl, rfl, rfl⟩
  replies := rfl

lemma moves_drop (h : s.custody.Sound) {hpId : UInt32} {conn : ServerConnection}
    (hconn : s.connections.lookup hpId = some conn)
    (hconnections : s'.connections = s.connections.erase hpId)
    (hstreams : s'.streams = (s.destroyConnection conn).streams)
    (haccepted : s'.accepted = s.accepted) (hreplies : s'.replies = s.replies)
    (hattempts : s'.relayAttempts = s.relayAttempts) : Moves s s' := by
  set left : Server := { s with connections := s.connections.erase hpId } with hleft
  have hsame : s.streams = left.streams := rfl
  have hrest : Moves (left.destroyConnection conn) s' := by
    refine .of_eq (by simp [hconnections, hleft]) ?_ (by simp [haccepted, hleft])
      (by simp [hreplies, hleft]) ?_
    · rw [hstreams]
      exact destroyConnection_streams_congr hsame conn
    · rw [hattempts, destroyConnection_relayAttempts]
      exact (Descends.refl s).attempts
  refine Moves.trans ⟨?_, (descends_erase s hpId).trans ?_⟩ hrest
  · rw [hleft, custody_drop h.held_lt hconn]
    exact Custody.steps_drop _ _
  · have hkept := destroyConnection_streamsKept left conn
    have hlength := destroyConnection_length left conn
    rw [destroyConnection_eq] at hkept hlength ⊢
    exact { Descends.refl left with streams := hkept, made := hlength }

lemma moves_clearSession (h : s.custody.Sound) (hpId : UInt32) : Moves s (s.clearSession hpId) := by
  unfold clearSession
  split
  · exact .refl s
  · next conn hconn =>
    refine moves_drop h hconn (by simp [takeSession]) ?_ (by simp [takeSession])
      (by simp [takeSession]) (by simp [takeSession])
    apply destroyConnection_streams_congr
    rfl

lemma custody_onSocket {conn : ServerConnection} {p : ℕ} (h : s.onConnection = true)
    (hp : conn.rawStream = some p) (peerAddr : Ipv4Address) (udxSock : Option ℕ) :
    (s.onSocket conn peerAddr udxSock).custody = s.custody.give p := by
  obtain ⟨info, hraw, heq⟩ := onSocket_accepts h hp peerAddr udxSock
  have hsame := custody_modifyStream s p (f := fun st => { st with ctx := false }) fun _ => rfl
  rw [heq, ← hsame]
  exact custody_accept rfl hraw rfl rfl

/-- **The client of a session gets through**: the session leaves, and its stream is handed out or
destroyed. -/
lemma moves_onSocket (h : s.custody.Sound) {hpId : UInt32} {conn : ServerConnection} {p : ℕ}
    (hconn : s.connections.lookup hpId = some conn) (hp : conn.rawStream = some p)
    (punch : AList fun _ : UInt32 => UInt32) (peerAddr : Ipv4Address) (udxSock : Option ℕ) :
    Moves s ({ s.takeSession hpId with pendingPunchStreams := punch }.onSocket conn peerAddr
      udxSock) := by
  set taken : Server := { s.takeSession hpId with pendingPunchStreams := punch } with htaken
  cases honConnection : taken.onConnection with
  | false =>
    rw [onSocket_destroys honConnection]
    refine moves_drop h hconn (by simp [htaken, takeSession]) ?_ (by simp [htaken, takeSession])
      (by simp [htaken, takeSession]) (by simp [htaken, takeSession])
    apply destroyConnection_streams_congr
    rfl
  | true =>
    have hleft : taken.custody = s.custody.empty hpId := custody_erase s hpId
    have hdescends := descends_erase s hpId
    have hheld : s.custody.held hpId = some p := by simp [custody, hconn, hp]
    have hkept := onSocket_streamsKept taken conn peerAddr udxSock
    refine ⟨?_, fun q st hst => hkept q st hst, onSocket_length taken conn peerAddr udxSock, ?_, ?_,
      ?_, ?_⟩
    · rw [custody_onSocket honConnection hp, hleft]
      exact .single (.hand hheld)
    · rw [onSocket_eq]
      exact hdescends.connections
    · obtain ⟨info, hraw, heq⟩ := onSocket_accepts (s := taken) honConnection hp peerAddr udxSock
      rw [heq]
      intro e he
      rcases List.mem_append.1 he with hold | hnew
      · exact .inl hold
      · rw [List.mem_singleton.1 hnew]
        exact .inr ⟨hpId, conn, hconn, rfl, hraw.trans hp.symm⟩
    · rw [onSocket_eq]
      exact hdescends.attempts
    · rw [onSocket_eq]
      rfl

lemma moves_lose {hpId : UInt32} (hconnections : s'.connections = s.connections.erase hpId)
    (hstreams : s'.streams = s.streams) (haccepted : s'.accepted = s.accepted)
    (hreplies : s'.replies = s.replies) (hattempts : s'.relayAttempts = s.relayAttempts) :
    Moves s s' := by
  have hleft : Moves s { s with connections := s.connections.erase hpId } := by
    refine ⟨?_, descends_erase s hpId⟩
    rw [custody_erase]
    exact .single .lose
  refine hleft.trans (.of_eq hconnections hstreams haccepted hreplies ?_)
  rw [hattempts]
  exact (Descends.refl s).attempts

lemma moves_onRawStreamClose (s : Server) (localId : UInt32) :
    Moves s (s.onRawStreamClose localId) := by
  cases hpunch : s.pendingPunchStreams.lookup localId with
  | none =>
    rw [onRawStreamClose, hpunch]
    exact .refl s
  | some hpId =>
    cases hconn : s.connections.lookup hpId with
    | none =>
      rw [onRawStreamClose_of_none hpunch hconn]
      exact .of_eq rfl rfl rfl rfl (Descends.refl s).attempts
    | some conn =>
      rw [onRawStreamClose_of_lookup hpunch hconn]
      exact moves_lose rfl rfl rfl rfl rfl

lemma moves_onPeerHolepunch (h : s.custody.Sound) (hpId : UInt32) (shouldPunch allowed : Bool) :
    Moves s (s.onPeerHolepunch hpId shouldPunch allowed) := by
  rcases s.onPeerHolepunch_cases hpId shouldPunch allowed with heq | heq | ⟨conn, hconn, heq⟩
  · rw [heq]
    exact .refl s
  · rw [heq]
    exact moves_clearSession h hpId
  · have hlookup : ∀ id conn', (s.connections.insert hpId { conn with puncher := true }).lookup
        id = some conn' → ∃ old, s.connections.lookup id = some old ∧
          conn'.rawStream = old.rawStream ∧ conn'.noise = old.noise ∧
          conn'.replyNoise = old.replyNoise := by
      intro id conn' hconn'
      rw [lookup_insert_puncher hconn, Option.map_eq_some_iff] at hconn'
      obtain ⟨old, hold, rfl⟩ := hconn'
      exact ⟨old, hold, by split <;> rfl, by split <;> rfl, by split <;> rfl⟩
    have hheld : ∀ id, ((s.connections.insert hpId { conn with puncher := true }).lookup
        id).bind (·.rawStream) = (s.connections.lookup id).bind (·.rawStream) := by
      intro id
      rw [lookup_insert_puncher hconn, Option.bind_map]
      congr 1
      funext old
      dsimp only [Function.comp_apply]
      split <;> rfl
    have hsame : custody { s with
        connections := s.connections.insert hpId { conn with puncher := true } } = s.custody := by
      simp only [custody, hheld]
      rfl
    rw [heq]
    refine ⟨?_, .of_eq rfl, rfl, hlookup, fun e he => .inl he, (Descends.refl s).attempts, rfl⟩
    rw [hsame]

lemma moves_onRelayConnect (h : s.custody.Sound) (k : ℕ) (outcome : RelayOutcome) :
    Moves s (s.onRelayConnect k outcome) := by
  unfold onRelayConnect
  split
  · exact .refl s
  · next attempt hattempt =>
    have hless : Moves s { s with relayAttempts := s.relayAttempts.eraseIdx k } :=
      .of_eq rfl rfl rfl rfl fun a ha => ⟨a, (List.eraseIdx_sublist _ _).subset ha, rfl, rfl, rfl⟩
    split
    · exact .refl s
    · dsimp only
      split
      · exact hless
      · cases outcome with
        | failed => exact hless.trans (moves_clearSession (h.steps hless.custody) _)
        | noChannel => exact hless
        | connected =>
          refine .of_eq rfl rfl rfl rfl fun a ha => ?_
          rcases List.mem_or_eq_of_mem_set ha with hold | rfl
          · exact ⟨a, hold, rfl, rfl, rfl⟩
          · exact ⟨attempt, List.mem_of_getElem? hattempt, rfl, rfl, rfl⟩

lemma moves_onRelayPairFailed (h : s.custody.Sound) (k : ℕ) : Moves s (s.onRelayPairFailed k) := by
  have hless : Moves s { s with relayAttempts := s.relayAttempts.eraseIdx k } :=
    .of_eq rfl rfl rfl rfl fun a ha => ⟨a, (List.eraseIdx_sublist _ _).subset ha, rfl, rfl, rfl⟩
  unfold onRelayPairFailed
  split
  · exact .refl s
  · split
    · exact .refl s
    · dsimp only
      split
      · exact hless
      · exact hless.trans (moves_clearSession (h.steps hless.custody) _)

/-- **A relay has paired the sides**: the session ends, and the stream of the attempt is handed out. -/
lemma moves_onRelayPair (h : s.custody.Sound) (k : ℕ) (via : Option RelayVia) :
    Moves s (s.onRelayPair k via) ∨
      ∃ attempt info moved, s.relayAttempts[k]? = some attempt ∧ attempt.pairing = true ∧
        s.closed = false ∧ s.onConnection = true ∧ via.isSome = true ∧
        info.rawStream = some attempt.rawStream ∧ Moves s moved ∧
        moved.connections.lookup attempt.hpId = none ∧ moved.accepted = s.accepted ∧
        s.onRelayPair k via =
          { moved with accepted := moved.accepted ++ [(attempt.noise, info)] } := by
  have hless : Moves s { s with relayAttempts := s.relayAttempts.eraseIdx k } :=
    .of_eq rfl rfl rfl rfl fun a ha => ⟨a, (List.eraseIdx_sublist _ _).subset ha, rfl, rfl, rfl⟩
  unfold onRelayPair
  split
  · exact .inl (.refl s)
  · next attempt hattempt =>
    split
    · exact .inl (.refl s)
    · next hpairing =>
      cases via with
      | none => exact .inl hless
      | some via =>
        dsimp only
        split
        · exact .inl hless
        · next hclosed =>
          have hconnected := hless.trans (moves_modifyStream { s with
            relayAttempts := s.relayAttempts.eraseIdx k } attempt.rawStream
            (f := fun st => { st with remote := some via }) (fun _ => ⟨rfl, rfl⟩) fun _ => rfl)
          have hmoved := hconnected.trans
            (moves_clearSession (h.steps hconnected.custody) attempt.hpId)
          have hgone := clearSession_connections ({ s with
            relayAttempts := s.relayAttempts.eraseIdx k }.modifyStream attempt.rawStream
              fun st => { st with remote := some via }) attempt.hpId
          split
          · exact .inl hmoved
          · next honConnection =>
            rw [clearSession_eq] at honConnection
            exact .inr ⟨attempt, _, _, hattempt, by simpa using hpairing,
              Bool.eq_false_of_not_eq_true hclosed, by simpa [modifyStream] using honConnection, rfl,
              rfl, hmoved, by rw [hgone, AList.lookup_erase],
              by rw [clearSession_eq]; rfl, rfl⟩

/-- **All sessions end**, one after the other. -/
lemma moves_clearAll (h : s.custody.Sound) : Moves s s.clearAll := by
  have hdrained : ∀ (entries : List (Sigma fun _ : UInt32 => ServerConnection)) (t : Server),
      t.connections.entries = entries → t.custody.Sound →
        Moves t { entries.foldl (fun t e => t.destroyConnection e.2) t with connections := ∅ } := by
    intro entries
    induction entries with
    | nil =>
      intro t ht _
      have hempty : t.connections = ∅ := AList.ext ht
      exact .of_eq hempty.symm rfl rfl rfl (Descends.refl t).attempts
    | cons e entries ih =>
      intro t ht hsound
      set left : Server := { t with connections := t.connections.erase e.1 } with hleft
      have hhead : t.connections.lookup e.1 = some e.2 := by
        rw [← Option.mem_def, AList.mem_lookup_iff, ht]
        exact List.mem_cons_self
      have hdrop : Moves t (left.destroyConnection e.2) := by
        refine moves_drop hsound hhead (by simp [hleft]) ?_ (by simp [hleft]) (by simp [hleft])
          (by simp [hleft])
        apply destroyConnection_streams_congr
        rfl
      have hrest : (left.destroyConnection e.2).connections.entries = entries := by
        rw [destroyConnection_connections]
        change t.connections.entries.kerase e.1 = entries
        rw [ht, List.kerase_cons_eq rfl]
      refine (hdrop.trans (ih _ hrest (hsound.steps hdrop.custody))).trans (.of_eq rfl ?_ ?_ ?_ ?_)
      · exact foldl_destroyConnection_congr (e :: entries) rfl
      all_goals obtain ⟨haccepted, hreplies, hattempts⟩ := foldl_destroyConnection_rest (e :: entries) t
      all_goals obtain ⟨haccepted', hreplies', hattempts'⟩ :=
        foldl_destroyConnection_rest entries (left.destroyConnection e.2)
      · exact haccepted.trans (haccepted'.trans (destroyConnection_accepted left e.2)).symm
      · exact hreplies.trans (hreplies'.trans (destroyConnection_replies left e.2)).symm
      · dsimp only
        rw [hattempts, hattempts', destroyConnection_relayAttempts]
        exact (Descends.refl t).attempts
  refine (hdrained s.connections.entries s rfl h).trans (.of_eq rfl rfl rfl rfl ?_)
  exact fun a ha => ⟨a, ha, rfl, rfl, rfl⟩

/-! ## Sessions that are opened -/

lemma custody_append (s : Server) {stream : RawStream} (hthere : stream.destroyed = false) :
    custody { s with streams := s.streams ++ [stream] } =
      { s.custody with made := s.streams.length + 1 } := by
  have hdestroyed : streamDestroyed { s with streams := s.streams ++ [stream] } =
      streamDestroyed s := by
    funext p
    simp only [streamDestroyed, eq_iff_iff]
    constructor
    · rintro ⟨st, hst, hgone⟩
      rw [List.getElem?_append] at hst
      split at hst
      · exact ⟨st, hst, hgone⟩
      · rw [List.mem_singleton.1 (List.mem_of_getElem? hst), hthere] at hgone
        cases hgone
    · rintro ⟨st, hst, hgone⟩
      exact ⟨st, List.getElem?_append_left (List.getElem?_eq_some_iff.1 hst).1 ▸ hst, hgone⟩
  simp only [custody, hdestroyed, List.length_append, List.length_singleton]

lemma custody_clearSession (h : ∀ hpId p, s.custody.held hpId = some p → p < s.streams.length)
    (hpId : UInt32) : (s.clearSession hpId).custody = s.custody.drop hpId := by
  cases hconn : s.connections.lookup hpId with
  | none =>
    have hheld : s.custody.held hpId = none := by simp [custody, hconn]
    rw [clearSession, hconn, Custody.drop, hheld]
    dsimp only
    rw [Custody.empty, ← hheld, Function.update_eq_self]
  | some conn =>
    rw [← custody_drop h hconn, clearSession, hconn]
    refine custody_congr ?_ ?_ ?_
    · simp [takeSession]
    · apply destroyConnection_streams_congr
      rfl
    · simp [takeSession]

lemma custody_storeSession {conn : ServerConnection} {p : ℕ} (hp : conn.rawStream = some p)
    (h : ∀ hpId p, s.custody.held hpId = some p → p < s.streams.length) (env : Env)
    (hpId : UInt32) :
    (s.storeSession env hpId conn).custody =
      { s.custody.drop hpId with
        held := Function.update (s.custody.drop hpId).held hpId (some p) } := by
  -- what was in the place before is destroyed, the others stay
  have hheld : ∀ id, ((s.connections.insert hpId conn).lookup id).bind (·.rawStream) =
      Function.update (s.custody.drop hpId).held hpId (some p) id := by
    intro id
    by_cases hid : id = hpId
    · rw [hid, AList.lookup_insert, Function.update_self]
      exact hp
    · rw [AList.lookup_insert_ne hid, Function.update_of_ne hid, Custody.held_drop,
        Function.update_of_ne hid]
      rfl
  have hstored : (s.storeSession env hpId conn).custody =
      custody { s.clearSession hpId with connections := s.connections.insert hpId conn } := by
    cases hold : s.connections.lookup hpId with
    | none =>
      rw [storeSession, hold, clearSession, hold]
      exact custody_congr rfl rfl rfl
    | some old =>
      rw [storeSession, hold, clearSession, hold]
      refine custody_congr ?_ ?_ ?_
      · simp
      · apply destroyConnection_streams_congr
        rfl
      · simp [takeSession]
  rw [hstored, ← funext hheld, ← custody_clearSession h hpId]
  rfl

/-- **A session is opened**: its stream is made, and kept, handed out or destroyed. -/
lemma steps_openSession (h : s.custody.Sound) (env : Env) (d : Deciding) (refused : Bool)
    (conn : ServerConnection) :
    Custody.Steps s.custody (s.openSession env d refused conn).custody := by
  set stream : RawStream := { noise := conn.noise, localId := conn.localUdxId } with hmade
  set conn' := { conn with rawStream := some s.streams.length } with hconn'
  set s₁ := { s with streams := s.streams ++ [stream] } with hs₁
  set s₂ := s₁.startRelay d.hpId conn' s.streams.length d.relayThrough refused with hs₂
  have hraw : conn'.rawStream = some s.streams.length := rfl
  have hadded : s₁.custody = { s.custody with made := s.streams.length + 1 } :=
    custody_append s rfl
  have hbound : ∀ hpId p, s₁.custody.held hpId = some p → p < s₁.streams.length := by
    intro hpId p hheld
    rw [hadded] at hheld
    have hlt : p < s.streams.length := h.held_lt hpId p hheld
    rw [hs₁, List.length_append]
    exact hlt.trans (Nat.lt_succ_self _)
  -- the streams that were there before, when the relay has been seen to
  obtain ⟨c, hsteps, hmade₂, hrelayed⟩ : ∃ c, Custody.Steps s.custody c ∧
      c.made = s.streams.length ∧ s₂.custody = { c with made := c.made + 1 } := by
    obtain heq | heq | ⟨attempt, -, -, -, heq⟩ :=
      startRelay_eq s₁ d.hpId conn' s.streams.length d.relayThrough refused
    · exact ⟨s.custody, .refl, rfl, by rw [hs₂, heq, hadded]; rfl⟩
    · refine ⟨s.custody.drop d.hpId, Custody.steps_drop _ _, Custody.made_drop _ _, ?_⟩
      rw [hs₂, heq, custody_clearSession hbound, hadded, Custody.drop_make, Custody.made_drop]
      rfl
    · refine ⟨s.custody, .refl, rfl, ?_⟩
      have hsame : s₂.custody = s₁.custody := by
        rw [hs₂, heq]
        exact custody_congr rfl rfl rfl
      rw [hsame, hadded]
      rfl
  have hbound₂ : ∀ hpId p, s₂.custody.held hpId = some p → p < s₂.streams.length := by
    intro hpId p hheld
    have hsound : Custody.Sound { c with made := c.made + 1 } := (h.steps hsteps).make
    rw [← hrelayed] at hsound
    exact hsound.held_lt hpId p hheld
  have hraw₂ : conn'.rawStream = some c.made := by rw [hraw, hmade₂]
  have hstores : Custody.Steps s.custody (s₂.storeSession env d.hpId conn').custody := by
    rw [custody_storeSession hraw₂ hbound₂, hrelayed, Custody.drop_make]
    have hkeep := Custody.Step.keep (c := c.drop d.hpId) (k := d.hpId) (by simp)
    rw [Custody.made_drop] at hkeep
    exact (hsteps.trans (Custody.steps_drop c d.hpId)).tail hkeep
  have hdirect : ∀ peerAddr, Custody.Steps s.custody (s₂.onSocket conn' peerAddr none).custody := by
    intro peerAddr
    cases honConnection : s₂.onConnection with
    | false =>
      have hlt : c.made < s₂.streams.length := by
        have hlength : s₂.streams.length = c.made + 1 := congrArg Custody.made hrelayed
        rw [hlength]
        exact Nat.lt_succ_self c.made
      rw [onSocket_destroys honConnection, custody_destroyConnection hraw₂ hlt, hrelayed]
      exact hsteps.tail .discard
    | true =>
      rw [custody_onSocket honConnection hraw₂, hrelayed]
      exact hsteps.tail .deliver
  unfold openSession
  dsimp only
  cases conn.remotePayload.addresses4 with
  | nil => exact hstores
  | cons peerAddr rest =>
    dsimp only
    split
    · exact hdirect peerAddr
    · exact hstores

/-- A session that is opened brings one stream, and goes with it; so do the call and the relay that it
leads to. -/
structure Opens (s s' : Server) (hpId : UInt32) (noise replyNoise : List UInt8) : Prop where
  streams : StreamsKept s s'
  made : s'.streams.length = s.streams.length + 1
  stream : ∃ st : RawStream, s'.streams[s.streams.length]? = some st ∧ st.noise = noise
  connections : ∀ id conn, s'.connections.lookup id = some conn →
    s.connections.lookup id = some conn ∨
      id = hpId ∧ conn.rawStream = some s.streams.length ∧ conn.noise = noise ∧
        conn.replyNoise = replyNoise
  accepted : ∀ e ∈ s'.accepted, e ∈ s.accepted ∨
    e.1 = noise ∧ e.2.rawStream = some s.streams.length
  attempts : ∀ a ∈ s'.relayAttempts, a ∈ s.relayAttempts ∨
    a.noise = noise ∧ a.rawStream = s.streams.length ∧ a.hpId = hpId
  replies : s'.replies = s.replies

lemma startRelay_opens (s : Server) (hpId : UInt32) {conn : ServerConnection} {stream : RawStream}
    (hstream : stream.noise = conn.noise) (ours : Option RelayThroughInfo) (refused : Bool) :
    Opens s ({ s with streams := s.streams ++ [stream] }.startRelay hpId conn s.streams.length ours
      refused) hpId conn.noise conn.replyNoise := by
  set s₁ : Server := { s with streams := s.streams ++ [stream] } with hs₁
  have hadded : Opens s s₁ hpId conn.noise conn.replyNoise := by
    refine ⟨append_streamsKept s stream, by simp [hs₁], ⟨stream, by simp [hs₁], hstream⟩, ?_, ?_, ?_, rfl⟩
    · exact fun hpId conn' hconn' => .inl hconn'
    · exact fun e he => .inl he
    · exact fun a ha => .inl ha
  obtain heq | heq | ⟨attempt, hnoise, hid, hraw, heq⟩ :=
    startRelay_eq s₁ hpId conn s.streams.length ours refused
  · rwa [heq]
  · have hkept := clearSession_streamsKept s₁ hpId
    obtain ⟨st, hst, hst_noise⟩ := hadded.stream
    obtain ⟨st', hst', -, hsame⟩ := hkept _ st hst
    rw [heq]
    refine ⟨hadded.streams.trans hkept, (clearSession_length s₁ hpId).trans hadded.made,
      ⟨st', hst', hsame.trans hst_noise⟩, ?_, ?_, ?_, ?_⟩
    · intro id conn' hconn'
      rw [clearSession_connections] at hconn'
      exact .inl (lookup_of_erase hconn')
    · rw [clearSession_eq]
      exact hadded.accepted
    · rw [clearSession_eq]
      exact hadded.attempts
    · rw [clearSession_eq]
  · rw [heq]
    refine ⟨hadded.streams, hadded.made, hadded.stream, hadded.connections, hadded.accepted, ?_, rfl⟩
    intro a ha
    rcases List.mem_append.1 ha with hold | hnew
    · exact .inl hold
    · rw [List.mem_singleton.1 hnew]
      exact .inr ⟨hnoise, hraw, hid⟩

lemma Opens.onSocket {hpId : UInt32} {conn : ServerConnection}
    (h : Opens s s' hpId conn.noise conn.replyNoise) (hraw : conn.rawStream = some s.streams.length)
    (peerAddr : Ipv4Address) (udxSock : Option ℕ) :
    Opens s (s'.onSocket conn peerAddr udxSock) hpId conn.noise conn.replyNoise := by
  have hkept := onSocket_streamsKept s' conn peerAddr udxSock
  obtain ⟨st, hst, hst_noise⟩ := h.stream
  obtain ⟨st', hst', -, hsame⟩ := hkept _ st hst
  refine ⟨h.streams.trans hkept, (onSocket_length s' conn peerAddr udxSock).trans h.made,
    ⟨st', hst', hsame.trans hst_noise⟩, ?_, ?_, ?_, ?_⟩
  · rw [onSocket_eq]
    exact h.connections
  · cases honConnection : s'.onConnection with
    | false =>
      rw [onSocket_destroys honConnection, destroyConnection_accepted]
      exact h.accepted
    | true =>
      obtain ⟨info, hinfo, heq⟩ := onSocket_accepts honConnection hraw peerAddr udxSock
      rw [heq]
      intro e he
      rcases List.mem_append.1 he with hold | hnew
      · exact h.accepted e hold
      · rw [List.mem_singleton.1 hnew]
        exact .inr ⟨rfl, hinfo⟩
  · rw [onSocket_eq]
    exact h.attempts
  · rw [onSocket_eq]
    exact h.replies

lemma Opens.storeSession {hpId : UInt32} {conn : ServerConnection}
    (h : Opens s s' hpId conn.noise conn.replyNoise) (hraw : conn.rawStream = some s.streams.length)
    (env : Env) : Opens s (s'.storeSession env hpId conn) hpId conn.noise conn.replyNoise := by
  have hkept : StreamsKept s' (s'.storeSession env hpId conn) ∧
      (s'.storeSession env hpId conn).streams.length = s'.streams.length := by
    unfold Server.storeSession
    cases s'.connections.lookup hpId with
    | none => exact ⟨.of_eq rfl, rfl⟩
    | some old =>
      refine ⟨fun p st hst => ?_, destroyConnection_length s' old⟩
      exact destroyConnection_streamsKept s' old p st hst
  have hrest : (s'.storeSession env hpId conn).connections = s'.connections.insert hpId conn ∧
      (s'.storeSession env hpId conn).accepted = s'.accepted ∧
      (s'.storeSession env hpId conn).relayAttempts = s'.relayAttempts ∧
      (s'.storeSession env hpId conn).replies = s'.replies := by
    unfold Server.storeSession
    cases s'.connections.lookup hpId <;> simp
  obtain ⟨hstreams, hlength⟩ := hkept
  obtain ⟨hconnections, haccepted, hattempts, hreplies⟩ := hrest
  obtain ⟨st, hst, hst_noise⟩ := h.stream
  obtain ⟨st', hst', -, hsame⟩ := hstreams _ st hst
  refine ⟨h.streams.trans hstreams, hlength.trans h.made, ⟨st', hst', hsame.trans hst_noise⟩,
    ?_, ?_, ?_, hreplies.trans h.replies⟩
  · rw [hconnections]
    intro id other hother
    by_cases hid : id = hpId
    · rw [hid, AList.lookup_insert] at hother
      obtain rfl := Option.some.inj hother
      exact .inr ⟨hid, hraw, rfl, rfl⟩
    · rw [AList.lookup_insert_ne hid] at hother
      exact h.connections id other hother
  · rw [haccepted]
    exact h.accepted
  · rw [hattempts]
    exact h.attempts

lemma opens_openSession (env : Env) (s : Server) (d : Deciding) (refused : Bool)
    (conn : ServerConnection) :
    Opens s (s.openSession env d refused conn) d.hpId conn.noise conn.replyNoise := by
  set conn' := { conn with rawStream := some s.streams.length } with hconn'
  have hrelayed := @startRelay_opens s d.hpId conn'
    { noise := conn.noise, localId := conn.localUdxId } rfl d.relayThrough refused
  unfold openSession
  dsimp only
  cases conn.remotePayload.addresses4 with
  | nil => exact hrelayed.storeSession rfl env
  | cons peerAddr rest =>
    dsimp only
    split
    · exact hrelayed.onSocket rfl peerAddr none
    · exact hrelayed.storeSession rfl env

/-! ## Messages -/

/-- Sessions, calls and relays go with the message that their stream was made for. -/
structure Labelled (s : Server) : Prop where
  connections : ∀ hpId conn, s.connections.lookup hpId = some conn →
    ∃ p, ∃ st : RawStream, conn.rawStream = some p ∧ s.streams[p]? = some st ∧ st.noise = conn.noise
  accepted : ∀ e ∈ s.accepted,
    ∃ p, ∃ st : RawStream, e.2.rawStream = some p ∧ s.streams[p]? = some st ∧ st.noise = e.1
  attempts : ∀ a ∈ s.relayAttempts,
    ∃ st : RawStream, s.streams[a.rawStream]? = some st ∧ st.noise = a.noise
  placed : ∀ a ∈ s.relayAttempts, ∀ hpId conn, s.connections.lookup hpId = some conn →
    conn.rawStream = some a.rawStream → hpId = a.hpId

lemma Labelled.descends (h : Labelled s) (hdescends : Descends s s') : Labelled s' where
  connections := by
    intro hpId conn' hconn'
    obtain ⟨conn, hconn, hraw, hnoise, -⟩ := hdescends.connections hpId conn' hconn'
    obtain ⟨p, st, hp, hst, hst_noise⟩ := h.connections hpId conn hconn
    obtain ⟨st', hst', -, hsame⟩ := hdescends.streams p st hst
    exact ⟨p, st', hraw.trans hp, hst', hsame.trans (hst_noise.trans hnoise.symm)⟩
  accepted := by
    intro e he
    have hold : ∃ p, ∃ st : RawStream, e.2.rawStream = some p ∧ s.streams[p]? = some st ∧
        st.noise = e.1 := by
      rcases hdescends.accepted e he with hold | ⟨hpId, conn, hconn, hnoise, hraw⟩
      · exact h.accepted e hold
      · rw [hnoise, hraw]
        exact h.connections hpId conn hconn
    obtain ⟨p, st, hp, hst, hst_noise⟩ := hold
    obtain ⟨st', hst', -, hsame⟩ := hdescends.streams p st hst
    exact ⟨p, st', hp, hst', hsame.trans hst_noise⟩
  attempts := by
    intro a ha
    obtain ⟨a', ha', hnoise, hraw, -⟩ := hdescends.attempts a ha
    obtain ⟨st, hst, hst_noise⟩ := h.attempts a' ha'
    obtain ⟨st', hst', -, hsame⟩ := hdescends.streams _ st hst
    exact ⟨st', hraw ▸ hst', hsame.trans (hst_noise.trans hnoise.symm)⟩
  placed := by
    intro a ha hpId conn' hconn' hheld
    obtain ⟨a', ha', -, hraw, hid⟩ := hdescends.attempts a ha
    obtain ⟨conn, hconn, hsame, -⟩ := hdescends.connections hpId conn' hconn'
    rw [hid]
    exact h.placed a' ha' hpId conn hconn (by rw [← hsame, hheld, hraw])

lemma Labelled.opens (h : Labelled s) {hpId : UInt32} {noise replyNoise : List UInt8}
    (hopens : Opens s s' hpId noise replyNoise) : Labelled s' := by
  obtain ⟨new, hnew, hnew_noise⟩ := hopens.stream
  have hold : ∀ {p : ℕ} {other : List UInt8},
      (∃ st : RawStream, s.streams[p]? = some st ∧ st.noise = other) →
        ∃ st : RawStream, s'.streams[p]? = some st ∧ st.noise = other := by
    rintro p other ⟨st, hst, rfl⟩
    obtain ⟨st', hst', -, hsame⟩ := hopens.streams p st hst
    exact ⟨st', hst', hsame⟩
  refine ⟨?_, ?_, ?_, ?_⟩
  · intro id conn hconn
    rcases hopens.connections id conn hconn with hbefore | ⟨-, hraw, hnoise, -⟩
    · obtain ⟨p, st, hp, hst, hst_noise⟩ := h.connections id conn hbefore
      obtain ⟨st', hst'⟩ := hold ⟨st, hst, hst_noise⟩
      exact ⟨p, st', hp, hst'⟩
    · exact ⟨_, new, hraw, hnew, hnew_noise.trans hnoise.symm⟩
  · intro e he
    rcases hopens.accepted e he with hbefore | ⟨hnoise, hraw⟩
    · obtain ⟨p, st, hp, hst, hst_noise⟩ := h.accepted e hbefore
      obtain ⟨st', hst'⟩ := hold ⟨st, hst, hst_noise⟩
      exact ⟨p, st', hp, hst'⟩
    · exact ⟨_, new, hraw, hnew, hnew_noise.trans hnoise.symm⟩
  · intro a ha
    rcases hopens.attempts a ha with hbefore | ⟨hnoise, hraw, -⟩
    · exact hold (h.attempts a hbefore)
    · exact ⟨new, hraw ▸ hnew, hnew_noise.trans hnoise.symm⟩
  · intro a ha id conn hconn hheld
    -- the new stream is not that of a session or a relay from before
    have hlt : ∀ {p : ℕ} {st : RawStream}, s.streams[p]? = some st → p ≠ s.streams.length :=
      fun hst => (List.getElem?_eq_some_iff.1 hst).1.ne
    rcases hopens.attempts a ha with hbefore | ⟨-, hraw, hid⟩ <;>
      rcases hopens.connections id conn hconn with hconn_before | ⟨hconn_id, hconn_raw, -⟩
    · exact h.placed a hbefore id conn hconn_before hheld
    · obtain ⟨st, hst, -⟩ := h.attempts a hbefore
      exact absurd (Option.some.inj (hheld.symm.trans hconn_raw)) (hlt hst)
    · obtain ⟨p, st, hp, hst, -⟩ := h.connections id conn hconn_before
      exact absurd ((Option.some.inj (hp.symm.trans hheld)).trans hraw) (hlt hst)
    · exact hconn_id.trans hid.symm

lemma Labelled.nodup_rawStream (h : Labelled s) (hnodup : s.custody.given.Nodup) :
    (s.accepted.map (·.2.rawStream)).Nodup := by
  have hall : ∀ l : List (List UInt8 × ConnectionInfo), (∀ e ∈ l, e.2.rawStream.isSome = true) →
      l.map (·.2.rawStream) = (l.filterMap (·.2.rawStream)).map some := by
    intro l hl
    induction l with
    | nil => rfl
    | cons e l ih =>
      obtain ⟨p, hp⟩ := Option.isSome_iff_exists.1 (hl e List.mem_cons_self)
      have hrest := ih fun e' he' => hl e' (List.mem_cons_of_mem _ he')
      simp [hp, hrest]
  rw [hall s.accepted]
  · exact hnodup.map (Option.some_injective _)
  · intro e he
    obtain ⟨p, -, hp, -⟩ := h.accepted e he
    rw [hp]
    rfl

lemma Looked.descends (h : Looked s s') (hreplies : s'.replies = s.replies) : Descends s s' := by
  rw [h.eq]
  exact { Descends.refl s with replies := hreplies }

lemma Looked.custody (h : Looked s s') : s'.custody = s.custody := by
  rw [h.eq]
  exact custody_congr rfl rfl rfl

lemma Labelled.accept (h : Labelled s) {attempt : RelayAttempt} (hattempt : attempt ∈ s.relayAttempts)
    (hmoves : Moves s s') {info : ConnectionInfo} (hinfo : info.rawStream = some attempt.rawStream) :
    Labelled { s' with accepted := s'.accepted ++ [(attempt.noise, info)] } := by
  have hmoved := h.descends hmoves.descends
  refine ⟨hmoved.connections, ?_, hmoved.attempts, hmoved.placed⟩
  intro e he
  rcases List.mem_append.1 he with hold | hnew
  · exact hmoved.accepted e hold
  · obtain ⟨st, hst, hst_noise⟩ := h.attempts attempt hattempt
    obtain ⟨st', hst', -, hsame⟩ := hmoves.descends.streams _ st hst
    rw [List.mem_singleton.1 hnew]
    exact ⟨attempt.rawStream, st', hinfo, hst', hsame.trans hst_noise⟩

/-! ## Steps -/

/-- A relay pairs the sides, and the callback is called. -/
def CalledByRelay (s : Server) (i : Input) (s' : Server) : Prop :=
  ∃ k via attempt info moved, i = .relayPair k (some via) ∧ s.relayAttempts[k]? = some attempt ∧
    attempt.pairing = true ∧ s.closed = false ∧ s.onConnection = true ∧
    info.rawStream = some attempt.rawStream ∧ Moves s moved ∧
    moved.connections.lookup attempt.hpId = none ∧ moved.accepted = s.accepted ∧
    s' = { moved with accepted := moved.accepted ++ [(attempt.noise, info)] }

/-- **What a step does with the streams** unless it is about a first message. -/
theorem step_moves (env : Env) (h : s.custody.Sound) (hlabelled : Labelled s) {i : Input}
    (hi : i.isHandshake = false) : Moves s (step env s i) ∨ CalledByRelay s i (step env s i) := by
  cases i with
  | listen onConnection =>
    left
    simp only [step, listen]
    split
    · exact .refl s
    · exact .of_eq rfl rfl rfl rfl (Descends.refl s).attempts
  | setFirewall firewall => exact .inl (.of_eq rfl rfl rfl rfl (Descends.refl s).attempts)
  | suspend =>
    left
    simp only [step, suspend]
    split
    · exact .refl s
    · exact (moves_clearAll h).trans (.of_eq rfl rfl rfl rfl (Descends.refl _).attempts)
  | resume => exact .inl (.of_eq rfl rfl rfl rfl (Descends.refl s).attempts)
  | close =>
    left
    simp only [step, close]
    split
    · exact .refl s
    · exact (moves_clearAll h).trans (.of_eq rfl rfl rfl rfl (Descends.refl _).attempts)
  | handshake | decision => cases hi
  | holepunch hpId shouldPunch allowed =>
    exact .inl (moves_onPeerHolepunch h hpId shouldPunch allowed)
  | puncherConnect hpId address socket =>
    left
    simp only [step, onPuncherConnect]
    split
    · exact .refl s
    · split
      · exact .refl s
      · next conn hconn =>
        obtain ⟨p, -, hp, -⟩ := hlabelled.connections hpId conn hconn
        split
        · exact .refl s
        · exact moves_onSocket h hconn hp _ address (some socket)
  | packet p address socket =>
    left
    simp only [step]
    split
    · exact .refl s
    · split
      · exact .refl s
      · unfold onRawStreamFirewall
        split
        · exact .refl s
        · split
          · exact .refl s
          · next hpId _ =>
            dsimp only
            split
            · exact .of_eq rfl rfl rfl rfl (Descends.refl s).attempts
            · next conn hconn =>
              obtain ⟨q, -, hq, -⟩ := hlabelled.connections hpId conn hconn
              exact moves_onSocket h hconn hq _ address (some socket)
  | streamClose p =>
    left
    have hmodified := moves_modifyStream s p (f := fun st => { st with ctx := false, closed := true })
      (fun _ => ⟨rfl, rfl⟩) fun _ => rfl
    simp only [step]
    split
    · exact .refl s
    · split
      · exact hmodified
      · exact hmodified.trans (moves_onRawStreamClose _ _)
  | sessionTimeout hpId =>
    left
    simp only [step]
    split
    · exact .refl s
    · exact moves_clearSession h hpId
  | relayConnect k outcome => exact .inl (moves_onRelayConnect h k outcome)
  | relayPair k via =>
    rcases moves_onRelayPair h k via with hmoves | ⟨attempt, info, moved, hattempt, hpairing, hclosed,
      honConnection, hvia, hinfo, hmoves, hgone, hsame, heq⟩
    · exact .inl hmoves
    · obtain ⟨via, rfl⟩ := Option.isSome_iff_exists.1 hvia
      exact .inr ⟨k, via, attempt, info, moved, rfl, hattempt, hpairing, hclosed, honConnection, hinfo,
        hmoves, hgone, hsame, heq⟩
  | relayPairFailed k => exact .inl (moves_onRelayPairFailed h k)

/-- What holds of the streams after every run. -/
structure Kept (s : Server) : Prop where
  sound : s.custody.Sound
  labelled : Labelled s

lemma kept_empty : Kept {} where
  sound := ⟨by simp [custody], by simp [custody], by simp [custody],
    by simp [custody, streamDestroyed], by simp [custody]⟩
  labelled := ⟨by simp, by simp, by simp, by simp⟩

lemma Kept.looked (h : Kept s) (hlooked : Looked s s') : Kept s' := by
  refine ⟨hlooked.custody ▸ h.sound, ?_⟩
  rw [hlooked.eq]
  exact ⟨h.labelled.connections, h.labelled.accepted, h.labelled.attempts, h.labelled.placed⟩

lemma CalledByRelay.kept (h : Kept s) {i : Input} (hcalled : CalledByRelay s i s') : Kept s' := by
  obtain ⟨k, via, attempt, info, moved, -, hattempt, -, -, -, hinfo, hmoves, hgone, -,
    rfl⟩ := hcalled
  have hmem := List.mem_of_getElem? hattempt
  have hsound := h.sound.steps hmoves.custody
  refine ⟨?_, h.labelled.accept hmem hmoves hinfo⟩
  have hgiven : custody { moved with accepted := moved.accepted ++ [(attempt.noise, info)] } =
      moved.custody.give attempt.rawStream := custody_accept rfl hinfo rfl rfl
  rw [hgiven]
  refine hsound.give ?_ ?_
  · obtain ⟨st, hst, -⟩ := h.labelled.attempts attempt hmem
    obtain ⟨st', hst', -⟩ := hmoves.descends.streams _ st hst
    exact (List.getElem?_eq_some_iff.1 hst').1
  · intro hpId hheld
    obtain ⟨conn', hconn', hraw'⟩ := Option.bind_eq_some_iff.1 hheld
    obtain ⟨conn, hconn, hraw, -⟩ := hmoves.descends.connections hpId conn' hconn'
    rw [h.labelled.placed attempt hmem hpId conn hconn (hraw.symm.trans hraw'), hgone] at hconn'
    cases hconn'

/-- **With its streams** the server does what it may, unless a relay has paired the sides. -/
theorem Kept.steps (h : Kept s) (env : Env) (i : Input) :
    Custody.Steps s.custody (s.step env i).custody ∨ CalledByRelay s i (s.step env i) := by
  by_cases hi : i.isHandshake = true
  · left
    cases hanswers : answers env s i with
    | none => rw [(step_of_not_answers hi hanswers).1.custody]
    | some a =>
      obtain ⟨d, draw, conn⟩ := a
      obtain ⟨-, -, hlooked⟩ := prepared_of_answers hanswers
      have hreplied : custody { prepared s i with
          replies := s.replies ++ [(conn.noise, conn.replyNoise)] } = s.custody :=
        (custody_congr rfl rfl rfl).trans hlooked.custody
      rw [step_of_answers hanswers]
      split
      · rw [hreplied]
      · have hsteps := steps_openSession (hreplied ▸ h.sound) env d draw.relayRefused conn
        rwa [hreplied] at hsteps
  · rcases step_moves env h.sound h.labelled (Bool.eq_false_of_not_eq_true hi) with hmoves | hcalled
    · exact .inl hmoves.custody
    · exact .inr hcalled

/-- **One step** keeps what holds of the streams. -/
theorem Kept.step (h : Kept s) (env : Env) (i : Input) : Kept (s.step env i) := by
  rcases h.steps env i with hsteps | hcalled
  · refine ⟨h.sound.steps hsteps, ?_⟩
    by_cases hi : i.isHandshake = true
    · cases hanswers : answers env s i with
      | none => exact (h.looked (step_of_not_answers hi hanswers).1).labelled
      | some a =>
        obtain ⟨d, draw, conn⟩ := a
        obtain ⟨-, -, hlooked⟩ := prepared_of_answers hanswers
        have hreplied : Kept { prepared s i with
            replies := s.replies ++ [(conn.noise, conn.replyNoise)] } :=
          (h.looked hlooked).looked ⟨rfl, fun _ _ hkey => hkey, .inl rfl⟩
        rw [step_of_answers hanswers]
        split
        · exact hreplied.labelled
        · exact hreplied.labelled.opens (opens_openSession env _ d draw.relayRefused conn)
    · rcases step_moves env h.sound h.labelled (Bool.eq_false_of_not_eq_true hi) with
        hmoves | hcalled
      · exact h.labelled.descends hmoves.descends
      · exact (hcalled.kept h).labelled
  · exact hcalled.kept h

end HyperDHT.Server
