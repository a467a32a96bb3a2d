import HyperDHT.Server.Steps
import HyperDHT.Lib.AssocMap
import HyperDHT.Lib.Runs

/-!
# The tables of the sessions

A session is in four tables: under its id, with its timer, under the message that led to it, and under
the id of its stream. The tables agree as long as no session is stored under the id of another one.

## Main definitions

* `Server.Coherent` — the tables agree.
* `Server.stores` — the session that an input enters into the tables.
* `Server.IdFree`, `Server.StreamIdFree` — the id of such a session, and that of its stream, is not that
  of another one.

## Main results

* `Server.coherent_of_idFree` — the tables agree in every state of a run in which the sessions that are
  stored have ids of their own.
-/

set_option autoImplicit false

namespace HyperDHT.Server

open Compact Handlers

variable {env : Env} {s s' t : Server}

/-! ## Tables -/

/-- Everything but the tables, which stay; the streams are still there. -/
structure TablesKept (s s' : Server) : Prop where
  connections : s'.connections = s.connections
  handshakeDedup : s'.handshakeDedup = s.handshakeDedup
  pendingPunchStreams : s'.pendingPunchStreams = s.pendingPunchStreams
  sessionTimers : s'.sessionTimers = s.sessionTimers
  streams : StreamsKept s s'
  resting : s'.closed = true ∨ s'.suspended = true → s.closed = true ∨ s.suspended = true

lemma modifyStream_tablesKept (s : Server) (p : ℕ) {f : RawStream → RawStream}
    (hf : ∀ st, (f st).localId = st.localId ∧ (f st).noise = st.noise) :
    TablesKept s (s.modifyStream p f) :=
  ⟨rfl, rfl, rfl, rfl, modifyStream_streamsKept s p hf, id⟩

lemma destroyConnection_tablesKept (s : Server) (conn : ServerConnection) :
    TablesKept s (s.destroyConnection conn) := by
  have hstreams := destroyConnection_streamsKept s conn
  rw [destroyConnection_eq] at hstreams ⊢
  exact ⟨rfl, rfl, rfl, rfl, hstreams, id⟩

lemma onSocket_tablesKept (s : Server) (conn : ServerConnection) (peerAddr : Ipv4Address)
    (udxSock : Option ℕ) : TablesKept s (s.onSocket conn peerAddr udxSock) := by
  have hstreams := onSocket_streamsKept s conn peerAddr udxSock
  rw [onSocket_eq] at hstreams ⊢
  exact ⟨rfl, rfl, rfl, rfl, hstreams, id⟩

/-- A session leaves the tables, that of the streams under an id. -/
structure Removes (s s' : Server) (hpId localId : UInt32) : Prop where
  connections : s'.connections = s.connections.erase hpId
  handshakeDedup : s'.handshakeDedup = eraseDedup s.handshakeDedup hpId
  pendingPunchStreams : s'.pendingPunchStreams = s.pendingPunchStreams.erase localId
  sessionTimers : s'.sessionTimers = s.sessionTimers.erase hpId
  streams : StreamsKept s s'
  resting : s'.closed = true ∨ s'.suspended = true → s.closed = true ∨ s.suspended = true

lemma Removes.kept {hpId localId : UInt32} (h₁ : Removes s s' hpId localId) (h₂ : TablesKept s' t) :
    Removes s t hpId localId where
  connections := h₂.connections.trans h₁.connections
  handshakeDedup := h₂.handshakeDedup.trans h₁.handshakeDedup
  pendingPunchStreams := h₂.pendingPunchStreams.trans h₁.pendingPunchStreams
  sessionTimers := h₂.sessionTimers.trans h₁.sessionTimers
  streams := h₁.streams.trans h₂.streams
  resting := fun h => h₁.resting (h₂.resting h)

/-! ## The table of first messages -/

lemma lookup_of_eraseDedup {dedup : AList fun _ : List Char => UInt32} {hpId id : UInt32}
    {key : List Char} (h : (eraseDedup dedup hpId).lookup key = some id) :
    dedup.lookup key = some id := by
  unfold eraseDedup at h
  split at h
  · exact h
  · next e _ =>
    by_cases hkey : key = e.1
    · rw [hkey, AList.lookup_erase] at h
      cases h
    · rwa [AList.lookup_erase_ne hkey] at h

lemma eraseDedup_lookup_ne {dedup : AList fun _ : List Char => UInt32} {hpId : UInt32}
    (hone : ∀ key key', dedup.lookup key = some hpId → dedup.lookup key' = some hpId → key = key')
    (key : List Char) : (eraseDedup dedup hpId).lookup key ≠ some hpId := by
  intro h
  have hold := lookup_of_eraseDedup h
  unfold eraseDedup at h
  split at h
  · next hnone =>
    have hmem := AList.mem_lookup_iff.1 (Option.mem_def.2 hold)
    exact absurd (List.find?_eq_none.1 hnone _ hmem) (by simp)
  · next e hfound =>
    have hvalue : e.2 = hpId := by simpa using List.find?_some hfound
    have hfirst : dedup.lookup e.1 = some hpId := by
      rw [← hvalue]
      exact AList.mem_lookup_iff.2 (List.mem_of_find?_eq_some hfound)
    rw [hone key e.1 hold hfirst, AList.lookup_erase] at h
    cases h

/-! ## What holds of the tables -/

/-- The tables, in every run in which the sessions that are stored have ids of their own: a session
owns a stream and is under the id of the stream and nothing else is; it has a timer, and one message
at most leads to it; while the server rests the tables are empty. -/
structure Tabled (s : Server) : Prop where
  owns : ∀ hpId conn, s.connections.lookup hpId = some conn →
    ∃ p st, conn.rawStream = some p ∧ s.streams[p]? = some st ∧ st.localId = conn.localUdxId
  timers : ∀ hpId, (s.sessionTimers.lookup hpId).isSome = (s.connections.lookup hpId).isSome
  dedup : ∀ key hpId, s.handshakeDedup.lookup key = some hpId →
    (s.connections.lookup hpId).isSome = true
  oneKey : ∀ hpId key key', s.handshakeDedup.lookup key = some hpId →
    s.handshakeDedup.lookup key' = some hpId → key = key'
  punch : ∀ localId hpId, s.pendingPunchStreams.lookup localId = some hpId ↔
    ∃ conn, s.connections.lookup hpId = some conn ∧ conn.localUdxId = localId
  bounded : s.connections.entries.length ≤ maxPendingHandshakes
  resting : s.closed = true ∨ s.suspended = true → s.connections = ∅ ∧ s.handshakeDedup = ∅ ∧
    s.pendingPunchStreams = ∅ ∧ s.sessionTimers = ∅

lemma Tabled.inj (h : Tabled s) {id id' : UInt32} {conn conn' : ServerConnection}
    (hconn : s.connections.lookup id = some conn) (hconn' : s.connections.lookup id' = some conn')
    (heq : conn.localUdxId = conn'.localUdxId) : id = id' := by
  have hfirst := (h.punch conn'.localUdxId id).2 ⟨conn, hconn, heq⟩
  have hsecond := (h.punch conn'.localUdxId id').2 ⟨conn', hconn', rfl⟩
  exact Option.some.inj (hfirst.symm.trans hsecond)

lemma Tabled.kept (h : Tabled s) (hkept : TablesKept s s') : Tabled s' where
  owns := by
    intro hpId conn hconn
    rw [hkept.connections] at hconn
    obtain ⟨p, st, hp, hst, hid⟩ := h.owns hpId conn hconn
    obtain ⟨st', hst', hid', -⟩ := hkept.streams p st hst
    exact ⟨p, st', hp, hst', hid'.trans hid⟩
  timers := by
    rw [hkept.sessionTimers, hkept.connections]
    exact h.timers
  dedup := by
    rw [hkept.handshakeDedup, hkept.connections]
    exact h.dedup
  oneKey := by
    rw [hkept.handshakeDedup]
    exact h.oneKey
  punch := by
    rw [hkept.pendingPunchStreams, hkept.connections]
    exact h.punch
  bounded := by
    rw [hkept.connections]
    exact h.bounded
  resting := by
    rw [hkept.connections, hkept.handshakeDedup, hkept.pendingPunchStreams, hkept.sessionTimers]
    exact fun hrests => h.resting (hkept.resting hrests)

lemma Tabled.forget (h : Tabled s) {dedup : AList fun _ : List Char => UInt32}
    (hsub : ∀ key hpId, dedup.lookup key = some hpId → s.handshakeDedup.lookup key = some hpId)
    (hworks : ¬ (s.closed = true ∨ s.suspended = true)) :
    Tabled { s with handshakeDedup := dedup } where
  owns := h.owns
  timers := h.timers
  dedup := fun key hpId hkey => h.dedup key hpId (hsub key hpId hkey)
  oneKey := fun hpId key key' hkey hkey' => h.oneKey hpId key key' (hsub _ _ hkey) (hsub _ _ hkey')
  punch := h.punch
  bounded := h.bounded
  resting := fun hrests => absurd hrests hworks

/-- **A session leaves the tables.** -/
theorem Tabled.removes (h : Tabled s) {hpId : UInt32} {conn : ServerConnection}
    (hconn : s.connections.lookup hpId = some conn)
    (hremoves : Removes s s' hpId conn.localUdxId) : Tabled s' := by
  have hstill : ∀ id, id ≠ hpId → s'.connections.lookup id = s.connections.lookup id := by
    intro id hne
    rw [hremoves.connections, AList.lookup_erase_ne hne]
  have hgone : s'.connections.lookup hpId = none := by
    rw [hremoves.connections, AList.lookup_erase]
  have hne_of : ∀ {id other}, s'.connections.lookup id = some other → id ≠ hpId := by
    rintro id other hother rfl
    rw [hgone] at hother
    cases hother
  refine ⟨?_, ?_, ?_, ?_, ?_, ?_, ?_⟩
  · intro id other hother
    have hold := hstill id (hne_of hother) ▸ hother
    obtain ⟨p, st, hp, hst, hid⟩ := h.owns id other hold
    obtain ⟨st', hst', hid', -⟩ := hremoves.streams p st hst
    exact ⟨p, st', hp, hst', hid'.trans hid⟩
  · intro id
    by_cases hid : id = hpId
    · rw [hid, hgone, hremoves.sessionTimers, AList.lookup_erase]
      rfl
    · rw [hstill id hid, hremoves.sessionTimers, AList.lookup_erase_ne hid]
      exact h.timers id
  · intro key id hkey
    rw [hremoves.handshakeDedup] at hkey
    have hid : id ≠ hpId := by
      rintro rfl
      exact eraseDedup_lookup_ne (h.oneKey id) key hkey
    rw [hstill id hid]
    exact h.dedup key id (lookup_of_eraseDedup hkey)
  · intro id key key' hkey hkey'
    rw [hremoves.handshakeDedup] at hkey hkey'
    exact h.oneKey id key key' (lookup_of_eraseDedup hkey) (lookup_of_eraseDedup hkey')
  · intro localId id
    rw [hremoves.pendingPunchStreams]
    by_cases hlocal : localId = conn.localUdxId
    · -- the id of the stream was that of the session only
      rw [hlocal, AList.lookup_erase]
      refine ⟨nofun, ?_⟩
      rintro ⟨other, hother, hid⟩
      have hne := hne_of hother
      exact absurd (h.inj (hstill id hne ▸ hother) hconn hid) hne
    · rw [AList.lookup_erase_ne hlocal, h.punch]
      refine ⟨?_, ?_⟩
      · rintro ⟨other, hother, hid⟩
        have hne : id ≠ hpId := by
          rintro rfl
          rw [hconn] at hother
          exact hlocal (hid.symm.trans (congrArg ServerConnection.localUdxId
            (Option.some.inj hother).symm))
        exact ⟨other, by rw [hstill id hne, hother], hid⟩
      · rintro ⟨other, hother, hid⟩
        exact ⟨other, hstill id (hne_of hother) ▸ hother, hid⟩
  · rw [hremoves.connections]
    exact (AssocMap.length_erase_le _ _).trans h.bounded
  · intro hrests
    obtain ⟨hempty, -⟩ := h.resting (hremoves.resting hrests)
    rw [hempty] at hconn
    cases hconn

/-- **A session enters the tables**, under an id and with a stream of its own. -/
theorem Tabled.stores (h : Tabled s) {hpId : UInt32} {conn : ServerConnection} {p : ℕ}
    {st : RawStream} (hp : conn.rawStream = some p) (hst : s.streams[p]? = some st)
    (hid : st.localId = conn.localUdxId) (hfree : s.connections.lookup hpId = none)
    (hapart : ∀ id other, s.connections.lookup id = some other → other.localUdxId ≠ conn.localUdxId)
    (hroom : s.connections.entries.length < maxPendingHandshakes)
    (hworks : ¬ (s.closed = true ∨ s.suspended = true)) (env : Env) :
    Tabled (s.storeSession env hpId conn) := by
  have hstore : s.storeSession env hpId conn = { s with
      connections := s.connections.insert hpId conn
      handshakeDedup := s.handshakeDedup.insert (toHex conn.noise) hpId
      pendingPunchStreams := s.pendingPunchStreams.insert conn.localUdxId hpId
      sessionTimers := s.sessionTimers.insert hpId env.handshakeClearWait } := by
    rw [storeSession, hfree]
  have hunused : ∀ key, s.handshakeDedup.lookup key ≠ some hpId := by
    intro key hkey
    have := h.dedup key hpId hkey
    rw [hfree] at this
    cases this
  rw [hstore]
  refine ⟨?_, ?_, ?_, ?_, ?_, ?_, fun hrests => absurd hrests hworks⟩
  · intro id other hother
    dsimp only at hother ⊢
    by_cases hne : id = hpId
    · rw [hne, AList.lookup_insert] at hother
      obtain rfl := Option.some.inj hother
      exact ⟨p, st, hp, hst, hid⟩
    · rw [AList.lookup_insert_ne hne] at hother
      exact h.owns id other hother
  · intro id
    dsimp only
    by_cases hne : id = hpId
    · rw [hne, AList.lookup_insert, AList.lookup_insert]
      rfl
    · rw [AList.lookup_insert_ne hne, AList.lookup_insert_ne hne]
      exact h.timers id
  · intro key id hkey
    dsimp only at hkey ⊢
    by_cases hne : id = hpId
    · rw [hne, AList.lookup_insert]
      rfl
    · rw [AList.lookup_insert_ne hne]
      by_cases hnew : key = toHex conn.noise
      · rw [hnew, AList.lookup_insert] at hkey
        exact absurd (Option.some.inj hkey).symm hne
      · rw [AList.lookup_insert_ne hnew] at hkey
        exact h.dedup key id hkey
  · intro id key key' hkey hkey'
    dsimp only at hkey hkey'
    by_cases hnew : key = toHex conn.noise <;> by_cases hnew' : key' = toHex conn.noise
    · rw [hnew, hnew']
    · rw [hnew, AList.lookup_insert] at hkey
      rw [AList.lookup_insert_ne hnew', ← Option.some.inj hkey] at hkey'
      exact absurd hkey' (hunused key')
    · rw [hnew', AList.lookup_insert] at hkey'
      rw [AList.lookup_insert_ne hnew, ← Option.some.inj hkey'] at hkey
      exact absurd hkey (hunused key)
    · rw [AList.lookup_insert_ne hnew] at hkey
      rw [AList.lookup_insert_ne hnew'] at hkey'
      exact h.oneKey id key key' hkey hkey'
  · intro localId id
    dsimp only
    by_cases hlocal : localId = conn.localUdxId
    · rw [hlocal, AList.lookup_insert]
      constructor
      · rintro heq
        obtain rfl := Option.some.inj heq
        exact ⟨conn, AList.lookup_insert _, rfl⟩
      · rintro ⟨other, hother, hsame⟩
        by_cases hne : id = hpId
        · rw [hne]
        · rw [AList.lookup_insert_ne hne] at hother
          exact absurd hsame (hapart id other hother)
    · rw [AList.lookup_insert_ne hlocal, h.punch]
      by_cases hne : id = hpId
      · subst hne
        rw [hfree, AList.lookup_insert]
        constructor
        · rintro ⟨_, hnone, -⟩
          cases hnone
        · rintro ⟨other, hother, hsame⟩
          rw [← Option.some.inj hother] at hsame
          exact absurd hsame.symm hlocal
      · rw [AList.lookup_insert_ne hne]
  · exact (AssocMap.length_insert_le _ _ _).trans hroom

/-! ## What the functions do to the tables -/

lemma Tabled.clearSession_removes (h : Tabled s) {hpId : UInt32} {conn : ServerConnection}
    (hconn : s.connections.lookup hpId = some conn) :
    Removes s (s.clearSession hpId) hpId conn.localUdxId := by
  obtain ⟨p, st, hp, hst, hid⟩ := h.owns hpId conn hconn
  have herase : s.erasePunch conn = s.pendingPunchStreams.erase conn.localUdxId := by
    simp [erasePunch, hp, hst, hid]
  rw [clearSession, hconn]
  dsimp only
  rw [herase]
  have htaken : Removes s { s.takeSession hpId with
      pendingPunchStreams := s.pendingPunchStreams.erase conn.localUdxId } hpId conn.localUdxId :=
    ⟨rfl, rfl, rfl, rfl, .of_eq rfl, id⟩
  exact htaken.kept (destroyConnection_tablesKept _ conn)

lemma Tabled.clearSession (h : Tabled s) (hpId : UInt32) : Tabled (s.clearSession hpId) := by
  cases hconn : s.connections.lookup hpId with
  | none => rwa [Server.clearSession, hconn]
  | some conn => exact h.removes hconn (h.clearSession_removes hconn)

lemma Tabled.onSocket (h : Tabled s) {hpId : UInt32} {conn : ServerConnection}
    (hconn : s.connections.lookup hpId = some conn) (peerAddr : Ipv4Address) (udxSock : Option ℕ) :
    Tabled ({ s.takeSession hpId with
      pendingPunchStreams := s.pendingPunchStreams.erase conn.localUdxId }.onSocket conn peerAddr
        udxSock) := by
  refine h.removes hconn (Removes.kept ?_ (onSocket_tablesKept _ conn peerAddr udxSock))
  exact ⟨rfl, rfl, rfl, rfl, .of_eq rfl, id⟩

lemma Tabled.onPeerHolepunch (h : Tabled s) (hpId : UInt32) (shouldPunch allowed : Bool) :
    Tabled (s.onPeerHolepunch hpId shouldPunch allowed) := by
  rcases s.onPeerHolepunch_cases hpId shouldPunch allowed with heq | heq | ⟨conn, hconn, heq⟩
  · rwa [heq]
  · rw [heq]
    exact h.clearSession hpId
  · -- only the mark of the holepunch is new
    have hlookup : ∀ id conn', (s.connections.insert hpId { conn with puncher := true }).lookup
        id = some conn' → ∃ old, s.connections.lookup id = some old ∧
          conn'.rawStream = old.rawStream ∧ conn'.localUdxId = old.localUdxId := by
      intro id conn' hconn'
      rw [Server.lookup_insert_puncher hconn, Option.map_eq_some_iff] at hconn'
      obtain ⟨old, hold, rfl⟩ := hconn'
      exact ⟨old, hold, by split <;> rfl, by split <;> rfl⟩
    have hsome : ∀ id, ((s.connections.insert hpId { conn with puncher := true }).lookup
        id).isSome = (s.connections.lookup id).isSome := by
      intro id
      rw [Server.lookup_insert_puncher hconn, Option.isSome_map]
    rw [heq]
    refine ⟨?_, ?_, ?_, h.oneKey, ?_, ?_, ?_⟩
    · intro id conn' hconn'
      obtain ⟨old, hold, hraw, hudx⟩ := hlookup id conn' hconn'
      rw [hraw, hudx]
      exact h.owns id old hold
    · intro id
      exact (h.timers id).trans (hsome id).symm
    · intro key id hkey
      exact (hsome id).trans (h.dedup key id hkey)
    · intro localId id
      refine (h.punch localId id).trans ⟨?_, ?_⟩
      · rintro ⟨old, hold, hudx⟩
        refine ⟨_, (Server.lookup_insert_puncher hconn id).trans (congrArg _ hold), ?_⟩
        split <;> exact hudx
      · rintro ⟨conn', hconn', hudx⟩
        obtain ⟨old, hold, -, hsame⟩ := hlookup id conn' hconn'
        exact ⟨old, hold, hsame ▸ hudx⟩
    · exact (AssocMap.length_insert_of_lookup hconn _).le.trans h.bounded
    · intro hrests
      obtain ⟨hempty, -⟩ := h.resting hrests
      rw [hempty] at hconn
      cases hconn

lemma Tabled.onPuncherConnect (h : Tabled s) (hpId : UInt32) (address : Ipv4Address) (socket : ℕ) :
    Tabled (s.onPuncherConnect hpId address socket) := by
  unfold Server.onPuncherConnect
  split
  · exact h
  · split
    · exact h
    · next conn hconn =>
      split
      · exact h
      · obtain ⟨p, st, hp, hst, hid⟩ := h.owns hpId conn hconn
        have herase : s.erasePunch conn = s.pendingPunchStreams.erase conn.localUdxId := by
          simp [erasePunch, hp, hst, hid]
        rw [herase]
        exact h.onSocket hconn address (some socket)

lemma Tabled.onRawStreamFirewall (h : Tabled s) (localId : UInt32) (address : Ipv4Address)
    (socket : ℕ) : Tabled (s.onRawStreamFirewall localId address socket) := by
  unfold Server.onRawStreamFirewall
  split
  · exact h
  · split
    · exact h
    · next hpId hpunch =>
      obtain ⟨conn, hconn, rfl⟩ := (h.punch localId hpId).1 hpunch
      dsimp only
      rw [hconn]
      exact h.onSocket hconn address (some socket)

lemma Tabled.onRawStreamClose (h : Tabled s) (localId : UInt32) :
    Tabled (s.onRawStreamClose localId) := by
  cases hpunch : s.pendingPunchStreams.lookup localId with
  | none => rwa [Server.onRawStreamClose, hpunch]
  | some hpId =>
    obtain ⟨conn, hconn, rfl⟩ := (h.punch localId hpId).1 hpunch
    rw [onRawStreamClose_of_lookup hpunch hconn]
    exact h.removes hconn ⟨rfl, rfl, rfl, rfl, .of_eq rfl, id⟩

lemma tabled_of_empty (hconnections : s.connections = ∅) (hdedup : s.handshakeDedup = ∅)
    (hpunch : s.pendingPunchStreams = ∅) (htimers : s.sessionTimers = ∅) : Tabled s where
  owns := by simp [hconnections]
  timers := by simp [hconnections, htimers]
  dedup := by simp [hdedup]
  oneKey := by simp [hdedup]
  punch := by simp [hpunch, hconnections]
  bounded := by simp [hconnections]
  resting := fun _ => ⟨hconnections, hdedup, hpunch, htimers⟩

lemma Tabled.close (h : Tabled s) : Tabled s.close := by
  unfold Server.close
  split
  · exact h
  · exact tabled_of_empty rfl rfl rfl rfl

lemma Tabled.suspend (h : Tabled s) : Tabled s.suspend := by
  unfold Server.suspend
  split
  · exact h
  · exact tabled_of_empty rfl rfl rfl rfl

lemma Tabled.onRelayConnect (h : Tabled s) (k : ℕ) (outcome : RelayOutcome) :
    Tabled (s.onRelayConnect k outcome) := by
  have hless : Tabled { s with relayAttempts := s.relayAttempts.eraseIdx k } :=
    h.kept ⟨rfl, rfl, rfl, rfl, .of_eq rfl, id⟩
  unfold Server.onRelayConnect
  split
  · exact h
  · split
    · exact h
    · dsimp only
      split
      · exact hless
      · cases outcome with
        | failed => exact hless.clearSession _
        | noChannel => exact hless
        | connected => exact h.kept ⟨rfl, rfl, rfl, rfl, .of_eq rfl, id⟩

lemma Tabled.onRelayPair (h : Tabled s) (k : ℕ) (via : Option RelayVia) :
    Tabled (s.onRelayPair k via) := by
  have hless : Tabled { s with relayAttempts := s.relayAttempts.eraseIdx k } :=
    h.kept ⟨rfl, rfl, rfl, rfl, .of_eq rfl, id⟩
  unfold Server.onRelayPair
  split
  · exact h
  · next attempt _ =>
    split
    · exact h
    · cases via with
      | none => exact hless
      | some via =>
        dsimp only
        split
        · exact hless
        · have hcleared := (hless.kept (modifyStream_tablesKept _ attempt.rawStream
            (f := fun st => { st with remote := some via }) fun _ => ⟨rfl, rfl⟩)).clearSession
              attempt.hpId
          split
          · exact hcleared
          · exact hcleared.kept ⟨rfl, rfl, rfl, rfl, .of_eq rfl, id⟩

lemma Tabled.onRelayPairFailed (h : Tabled s) (k : ℕ) : Tabled (s.onRelayPairFailed k) := by
  have hless : Tabled { s with relayAttempts := s.relayAttempts.eraseIdx k } :=
    h.kept ⟨rfl, rfl, rfl, rfl, .of_eq rfl, id⟩
  unfold Server.onRelayPairFailed
  split
  · exact h
  · split
    · exact h
    · dsimp only
      split
      · exact hless
      · exact hless.clearSession _

/-! ## Sessions that are stored -/

/-- The client can be connected to at once. -/
def connectsDirectly (conn : ServerConnection) : Bool :=
  conn.remotePayload.firewall == firewallOpen && !conn.remotePayload.addresses4.isEmpty

/-- The session that an input enters into the tables, and the handshake that led to it. -/
def stores (env : Env) (s : Server) (i : Input) : Option (Deciding × Draw × ServerConnection) :=
  (answers env s i).filter fun a => !a.2.2.hasError && !connectsDirectly a.2.2

/-- A session that is stored is not stored over another one: its id is free, or the session there ends
because the node refuses to connect to the relay of the new one. -/
def IdFree (env : Env) (s : Server) (i : Input) : Prop :=
  ∀ a ∈ stores env s i, (s.connections.lookup a.1.hpId).isNone = true ∨
    a.2.1.relayRefused = true ∧
      (a.1.relayThrough.or a.2.2.remotePayload.relayThrough).isSome = true

/-- The stream of a session that is stored has an id of its own among those of the sessions. -/
def StreamIdFree (env : Env) (s : Server) (i : Input) : Prop :=
  ∀ a ∈ stores env s i, ∀ e ∈ s.connections.entries, e.2.localUdxId ≠ a.2.2.localUdxId

instance (env : Env) (s : Server) (i : Input) : Decidable (IdFree env s i) :=
  inferInstanceAs (Decidable (∀ a ∈ stores env s i, _))

instance (env : Env) (s : Server) (i : Input) : Decidable (StreamIdFree env s i) :=
  inferInstanceAs (Decidable (∀ a ∈ stores env s i, _))

lemma Tabled.looked (h : Tabled s) (hlooked : Looked s s') : Tabled s' := by
  have hdedup := hlooked.dedup
  rw [hlooked.eq]
  rcases hlooked.works with hsame | hworks
  · exact h.kept ⟨rfl, hsame, rfl, rfl, .of_eq rfl, id⟩
  · exact (h.forget hdedup hworks).kept ⟨rfl, rfl, rfl, rfl, .of_eq rfl, id⟩

lemma Tabled.startRelay (h : Tabled s) (hpId : UInt32) (conn : ServerConnection) (raw : ℕ)
    (ours : Option RelayThroughInfo) (refused : Bool) :
    Tabled (s.startRelay hpId conn raw ours refused) := by
  obtain heq | heq | ⟨attempt, -, -, -, heq⟩ := startRelay_eq s hpId conn raw ours refused
  · rwa [heq]
  · rw [heq]
    exact h.clearSession hpId
  · rw [heq]
    exact h.kept ⟨rfl, rfl, rfl, rfl, .of_eq rfl, id⟩

lemma startRelay_streamsKept (s : Server) (hpId : UInt32) (conn : ServerConnection) (raw : ℕ)
    (ours : Option RelayThroughInfo) (refused : Bool) :
    StreamsKept s (s.startRelay hpId conn raw ours refused) := by
  obtain heq | heq | ⟨attempt, -, -, -, heq⟩ := startRelay_eq s hpId conn raw ours refused
  · exact .of_eq (by rw [heq])
  · rw [heq]
    exact clearSession_streamsKept s hpId
  · exact .of_eq (by rw [heq])

lemma startRelay_sublist (s : Server) (hpId : UInt32) (conn : ServerConnection) (raw : ℕ)
    (ours : Option RelayThroughInfo) (refused : Bool) :
    (s.startRelay hpId conn raw ours refused).connections.entries.Sublist s.connections.entries := by
  obtain heq | heq | ⟨attempt, -, -, -, heq⟩ := startRelay_eq s hpId conn raw ours refused
  · rw [heq]
  · rw [heq, clearSession_connections]
    exact List.kerase_sublist hpId _
  · rw [heq]

lemma startRelay_resting (s : Server) (hpId : UInt32) (conn : ServerConnection) (raw : ℕ)
    (ours : Option RelayThroughInfo) (refused : Bool) :
    (s.startRelay hpId conn raw ours refused).closed = s.closed ∧
      (s.startRelay hpId conn raw ours refused).suspended = s.suspended := by
  obtain heq | heq | ⟨attempt, -, -, -, heq⟩ := startRelay_eq s hpId conn raw ours refused
  · rw [heq]
    exact ⟨rfl, rfl⟩
  · rw [heq, clearSession_eq]
    exact ⟨rfl, rfl⟩
  · rw [heq]
    exact ⟨rfl, rfl⟩

lemma startRelay_lookup_of_refused (s : Server) (hpId : UInt32) (conn : ServerConnection) (raw : ℕ)
    {ours : Option RelayThroughInfo} (h : (ours.or conn.remotePayload.relayThrough).isSome = true) :
    (s.startRelay hpId conn raw ours true).connections.lookup hpId = none := by
  obtain ⟨relay, hrelay⟩ := Option.isSome_iff_exists.1 h
  unfold Server.startRelay
  rw [hrelay]
  simp only [if_true]
  rw [clearSession_connections, AList.lookup_erase]

/-- **A session is opened.** -/
theorem Tabled.openSession (h : Tabled s) {d : Deciding} {conn : ServerConnection} {refused : Bool}
    (hid : connectsDirectly conn = false → (s.connections.lookup d.hpId).isNone = true ∨
      refused = true ∧ (d.relayThrough.or conn.remotePayload.relayThrough).isSome = true)
    (hstream : connectsDirectly conn = false →
      ∀ e ∈ s.connections.entries, e.2.localUdxId ≠ conn.localUdxId)
    (hroom : s.connections.entries.length < maxPendingHandshakes)
    (hworks : ¬ (s.closed = true ∨ s.suspended = true)) (env : Env) :
    Tabled (s.openSession env d refused conn) := by
  set stream : RawStream := { noise := conn.noise, localId := conn.localUdxId } with hmade
  set conn' := { conn with rawStream := some s.streams.length } with hconn'
  set s₁ := { s with streams := s.streams ++ [stream] } with hs₁
  set s₂ := s₁.startRelay d.hpId conn' s.streams.length d.relayThrough refused with hs₂
  have hadded : Tabled s₁ :=
    h.kept ⟨rfl, rfl, rfl, rfl, append_streamsKept s stream, id⟩
  have hrelayed : Tabled s₂ := hadded.startRelay _ _ _ _ _
  have hsub := startRelay_sublist s₁ d.hpId conn' s.streams.length d.relayThrough refused
  have hstores : connectsDirectly conn = false → Tabled (s₂.storeSession env d.hpId conn') := by
    intro hwaits
    obtain ⟨st, hst, hlocal, -⟩ := startRelay_streamsKept s₁ d.hpId conn' s.streams.length
      d.relayThrough refused s.streams.length stream (by simp [hs₁])
    have hraw : conn'.rawStream = some s.streams.length := rfl
    refine hrelayed.stores hraw hst hlocal ?_ ?_ ?_ ?_ env
    · rcases hid hwaits with hfree | ⟨rfl, hrelay⟩
      · rw [AList.lookup_eq_none]
        intro hmem
        have hkey : d.hpId ∈ s.connections.keys := (hsub.map Sigma.fst).subset hmem
        rw [← AList.mem_keys, ← AList.lookup_isSome] at hkey
        simp [Option.isNone_iff_eq_none.1 hfree] at hkey
      · exact startRelay_lookup_of_refused s₁ d.hpId conn' _ hrelay
    · intro id other hother
      exact hstream hwaits ⟨id, other⟩ (hsub.subset (AList.mem_lookup_iff.1 hother))
    · exact hsub.length_le.trans_lt hroom
    · obtain ⟨hclosed, hsuspended⟩ :=
        startRelay_resting s₁ d.hpId conn' s.streams.length d.relayThrough refused
      rw [hclosed, hsuspended]
      exact hworks
  unfold Server.openSession
  dsimp only
  cases haddresses : conn.remotePayload.addresses4 with
  | nil => exact hstores (by simp [connectsDirectly, haddresses])
  | cons peerAddr rest =>
    dsimp only
    split
    · exact hrelayed.kept (onSocket_tablesKept _ _ _ _)
    · next hfirewall => exact hstores (by simp [connectsDirectly, hfirewall])

lemma stores_of_answers {i : Input} {a : Deciding × Draw × ServerConnection}
    (h : answers env s i = some a) (herror : a.2.2.hasError = false)
    (hwaits : connectsDirectly a.2.2 = false) : stores env s i = some a := by
  simp [stores, h, herror, hwaits]

/-- **One step**: the tables go on to agree when the session that is stored has ids of its own. -/
theorem Tabled.step (h : Tabled s) {i : Input} (hid : IdFree env s i) (hstream : StreamIdFree env s i) :
    Tabled (s.step env i) := by
  by_cases hi : i.isHandshake = true
  · cases hanswers : answers env s i with
    | none => exact h.looked (step_of_not_answers hi hanswers).1
    | some a =>
      obtain ⟨d, draw, conn⟩ := a
      obtain ⟨hroom, hworks, hlooked⟩ := prepared_of_answers hanswers
      have hreplied : Tabled { prepared s i with
          replies := s.replies ++ [(conn.noise, conn.replyNoise)] } :=
        (h.looked hlooked).kept ⟨rfl, rfl, rfl, rfl, .of_eq rfl, id⟩
      rw [step_of_answers hanswers]
      split
      · exact hreplied
      · next herror =>
        have hstored := fun hwaits =>
          stores_of_answers hanswers (Bool.eq_false_of_not_eq_true herror) hwaits
        have hconnections : (prepared s i).connections = s.connections := by rw [hlooked.eq]
        refine hreplied.openSession ?_ ?_ ?_ ?_ env
        · rw [hconnections]
          exact fun hwaits => hid _ (hstored hwaits)
        · rw [hconnections]
          exact fun hwaits => hstream _ (hstored hwaits)
        · rw [hconnections]
          exact hroom
        · rw [hlooked.eq]
          exact hworks
  · cases i with
    | listen onConnection =>
      simp only [Server.step, listen]
      split
      · exact h
      · exact h.kept ⟨rfl, rfl, rfl, rfl, .of_eq rfl, id⟩
    | setFirewall firewall => exact h.kept ⟨rfl, rfl, rfl, rfl, .of_eq rfl, id⟩
    | suspend => exact h.suspend
    | resume =>
      refine h.kept ⟨rfl, rfl, rfl, rfl, .of_eq rfl, ?_⟩
      rintro (hclosed | hsuspended)
      · exact .inl hclosed
      · cases hsuspended
    | close => exact h.close
    | handshake | decision => exact absurd rfl hi
    | holepunch hpId shouldPunch allowed => exact h.onPeerHolepunch hpId shouldPunch allowed
    | puncherConnect hpId address socket => exact h.onPuncherConnect hpId address socket
    | packet p address socket =>
      simp only [Server.step]
      split
      · exact h
      · split
        · exact h
        · exact h.onRawStreamFirewall _ address socket
    | streamClose p =>
      have hmodified : Tabled (s.modifyStream p fun st => { st with ctx := false, closed := true }) :=
        h.kept (modifyStream_tablesKept s p fun _ => ⟨rfl, rfl⟩)
      simp only [Server.step]
      split
      · exact h
      · split
        · exact hmodified
        · exact hmodified.onRawStreamClose _
    | sessionTimeout hpId =>
      simp only [Server.step]
      split
      · exact h
      · exact h.clearSession hpId
    | relayConnect k outcome => exact h.onRelayConnect k outcome
    | relayPair k via => exact h.onRelayPair k via
    | relayPairFailed k => exact h.onRelayPairFailed k

/-! ## The tables agree -/

/-- The tables agree: every session has its timer, what the tables of the messages and of the streams
lead to is a session, and a session is found under its stream; there are not too many sessions, and
there are none while the server rests. -/
structure Coherent (s : Server) : Prop where
  timers : ∀ hpId, hpId ∈ s.sessionTimers ↔ hpId ∈ s.connections
  dedup : ∀ key hpId, s.handshakeDedup.lookup key = some hpId → hpId ∈ s.connections
  punch : ∀ localId hpId, s.pendingPunchStreams.lookup localId = some hpId → hpId ∈ s.connections
  streams : ∀ hpId conn p, s.connections.lookup hpId = some conn → conn.rawStream = some p →
    ∃ st : RawStream, s.streams[p]? = some st ∧
      s.pendingPunchStreams.lookup st.localId = some hpId
  bounded : s.connections.entries.length ≤ 256
  resting : s.closed = true ∨ s.suspended = true → s.connections = ∅ ∧ s.handshakeDedup = ∅ ∧
    s.pendingPunchStreams = ∅ ∧ s.sessionTimers = ∅

lemma Tabled.coherent (h : Tabled s) : Coherent s where
  timers := fun hpId => by rw [← AList.lookup_isSome, h.timers, AList.lookup_isSome]
  dedup := fun key hpId hkey => AList.lookup_isSome.1 (h.dedup key hpId hkey)
  punch := by
    intro localId hpId hlocal
    obtain ⟨conn, hconn, -⟩ := (h.punch localId hpId).1 hlocal
    exact AList.lookup_isSome.1 (by rw [hconn]; rfl)
  streams := by
    intro hpId conn p hconn hp
    obtain ⟨p', st, hp', hst, hid⟩ := h.owns hpId conn hconn
    obtain rfl := Option.some.inj (hp.symm.trans hp')
    exact ⟨st, hst, (h.punch st.localId hpId).2 ⟨conn, hconn, hid.symm⟩⟩
  bounded := h.bounded
  resting := h.resting

/-- **The tables agree** in every state of a run in which no session is stored under the id of another
one, the streams of the sessions having ids of their own.

**Proof sketch.** Every step also keeps that one message at most leads to a session and that the
table of the streams holds those of the sessions and no others. -/
theorem coherent_of_idFree (env : Env) {is : List Input}
    (hstreams : Runs.EveryStep (step env) (StreamIdFree env) {} is)
    (hids : Runs.EveryStep (step env) (IdFree env) {} is) :
    Runs.EveryState (step env) Coherent {} is := by
  have hboth := hstreams.and hids
  have hfirst : Tabled {} := tabled_of_empty rfl rfl rfl rfl
  exact (Runs.everyState_of_everyStep (fun s i h hi => h.step hi.2 hi.1) hfirst hboth).mono
    fun _ h => h.coherent

/-! ## The id of another session -/

lemma run_replicate_unreadable {payload : NoisePayload} (n : UInt8) (count : ℕ) {s : Server}
    (hdedup : s.handshakeDedup = ∅) (hworks : (s.closed || s.suspended) = false) :
    Runs.run (step (plainEnv payload)) s (List.replicate count (message [] n)) =
      { s with nextHpId := s.nextHpId + UInt32.ofNat count } := by
  induction count generalizing s with
  | zero => simp
  | succ count ih =>
    have hcapped : s.capDedup = s := by
      rw [capDedup, if_neg]
      simp [hdedup]
    have hcached : s.cached [] = none := by
      rw [cached, hcapped, hdedup]
      rfl
    have hstep : step (plainEnv payload) s (message [] n) =
        { s with nextHpId := s.nextHpId + 1 } := by
      have hdecode : decodeHandshake (plainEnv payload) [] = none := rfl
      simp only [message, step, onPeerHandshake, hworks, hcached, hcapped, hdecode,
        Bool.false_eq_true, if_false]
      rw [hdedup]
      rfl
    rw [List.replicate_succ, Runs.run_cons, hstep]
    refine (ih ?_ ?_).trans ?_
    · exact hdedup
    · exact hworks
    · have hadd : s.nextHpId + 1 + UInt32.ofNat count = s.nextHpId + UInt32.ofNat (count + 1) := by
        rw [UInt32.add_assoc, UInt32.add_comm 1, UInt32.ofNat_add]
        rfl
      rw [← hadd]

def waitingPayload : NoisePayload := { udx := some { id := 9 } }

def undecidedRun : List Input := [.listen true, .setFirewall .async, message [1] 1]

/-- Ids go by until the one of that message is drawn again, for the session of another message; then
the firewall decides, and the first session is stored over the second. It times out. -/
def collidingRun : List Input :=
  [.setFirewall .none, message [2] 2, .decision 0 (drawOf 1) false, .sessionTimeout 0]

/-- The run of `coherent_of_idFree` with two sessions. -/
theorem coherent_two :
    Runs.EveryState (step (plainEnv waitingPayload)) Coherent {}
      (undecidedRun ++ collidingRun) :=
  coherent_of_idFree _ (by decide +kernel) (by decide +kernel)

/-- **The tables do not agree after every run**: ids are drawn again after `2 ^ 32` messages, and the
session that a message leads to is gone while the message is still known. -/
theorem not_coherent_collidingRun :
    ¬ Runs.EveryState (step (plainEnv waitingPayload)) Coherent {}
      (undecidedRun ++ (List.replicate (2 ^ 32 - 1) (message [] 0) ++ collidingRun)) := by
  intro hall
  have hlast := hall.run
  rw [Runs.run_append, Runs.run_append, run_replicate_unreadable 0 (2 ^ 32 - 1) rfl rfl] at hlast
  have hkey := hlast.dedup (toHex [2]) 0 (by decide +kernel)
  exact absurd hkey (by decide +kernel)

end HyperDHT.Server
