import HyperDHT.Server.Basic

/-!
# What a step of the server does

A first message is answered from its session, or looked at, or completes its handshake: it is answered,
and a session is opened for a client that is not refused. The decision of the firewall completes a
handshake that was looked at before.

## Main definitions

* `Server.completes`, `Server.answers` — the handshake that an input completes, and the session of
  the one that it answers.
* `Server.Looked` — all that a server does with a first message that it does not answer.

## Main results

* `Server.step_of_answers`, `Server.step_of_not_answers` — what a first message and a decision do.
-/

set_option autoImplicit false

namespace HyperDHT.Server

open Compact Handlers

variable {env : Env} {s s' t : Server}

lemma erase_insert (m : AList fun _ : UInt32 => ServerConnection) (hpId : UInt32)
    (conn : ServerConnection) : (m.insert hpId conn).erase hpId = m.erase hpId := by
  apply AList.ext
  change List.kerase hpId (m.insert hpId conn).entries = List.kerase hpId m.entries
  simp

lemma lookup_of_erase {m : AList fun _ : UInt32 => ServerConnection} {hpId id : UInt32}
    {conn : ServerConnection} (h : (m.erase hpId).lookup id = some conn) :
    m.lookup id = some conn := by
  by_cases hid : id = hpId
  · rw [hid, AList.lookup_erase] at h
    cases h
  · rwa [AList.lookup_erase_ne hid] at h

/-! ## Streams -/

/-- The streams are still there, with their ids, each for the message it was made for. -/
def StreamsKept (s s' : Server) : Prop :=
  ∀ (p : ℕ) (st : RawStream), s.streams[p]? = some st →
    ∃ st' : RawStream, s'.streams[p]? = some st' ∧ st'.localId = st.localId ∧ st'.noise = st.noise

lemma StreamsKept.refl (s : Server) : StreamsKept s s := fun _ st h => ⟨st, h, rfl, rfl⟩

lemma StreamsKept.of_eq (h : s'.streams = s.streams) : StreamsKept s s' := by
  intro p st hst
  exact ⟨st, by rw [h, hst], rfl, rfl⟩

lemma StreamsKept.trans (h₁ : StreamsKept s s') (h₂ : StreamsKept s' t) : StreamsKept s t := by
  intro p st hst
  obtain ⟨st₁, hst₁, hid₁, hnoise₁⟩ := h₁ p st hst
  obtain ⟨st₂, hst₂, hid₂, hnoise₂⟩ := h₂ p st₁ hst₁
  exact ⟨st₂, hst₂, hid₂.trans hid₁, hnoise₂.trans hnoise₁⟩

lemma modifyStream_streamsKept (s : Server) (p : ℕ) {f : RawStream → RawStream}
    (hf : ∀ st, (f st).localId = st.localId ∧ (f st).noise = st.noise) :
    StreamsKept s (s.modifyStream p f) := by
  intro q st hst
  by_cases hq : p = q
  · subst hq
    exact ⟨f st, by simp [modifyStream, hst], hf st⟩
  · exact ⟨st, by simp [modifyStream, hq, hst], rfl, rfl⟩

lemma append_streamsKept (s : Server) (stream : RawStream) :
    StreamsKept s { s with streams := s.streams ++ [stream] } := by
  intro p st hst
  exact ⟨st, List.getElem?_append_left (List.getElem?_eq_some_iff.1 hst).1 ▸ hst, rfl, rfl⟩

lemma destroyConnection_eq (s : Server) (conn : ServerConnection) :
    s.destroyConnection conn = { s with streams := (s.destroyConnection conn).streams } := by
  unfold destroyConnection
  split <;> rfl

@[simp] lemma destroyConnection_connections (s : Server) (conn : ServerConnection) :
    (s.destroyConnection conn).connections = s.connections := by rw [destroyConnection_eq]

@[simp] lemma destroyConnection_accepted (s : Server) (conn : ServerConnection) :
    (s.destroyConnection conn).accepted = s.accepted := by rw [destroyConnection_eq]

@[simp] lemma destroyConnection_replies (s : Server) (conn : ServerConnection) :
    (s.destroyConnection conn).replies = s.replies := by rw [destroyConnection_eq]

@[simp] lemma destroyConnection_relayAttempts (s : Server) (conn : ServerConnection) :
    (s.destroyConnection conn).relayAttempts = s.relayAttempts := by rw [destroyConnection_eq]

@[simp] lemma destroyConnection_length (s : Server) (conn : ServerConnection) :
    (s.destroyConnection conn).streams.length = s.streams.length := by
  unfold destroyConnection
  split <;> simp [modifyStream]

lemma destroyConnection_streams_congr (h : s.streams = s'.streams) (conn : ServerConnection) :
    (s.destroyConnection conn).streams = (s'.destroyConnection conn).streams := by
  unfold destroyConnection
  split <;> simp [modifyStream, h]

lemma destroyConnection_streamsKept (s : Server) (conn : ServerConnection) :
    StreamsKept s (s.destroyConnection conn) := by
  unfold destroyConnection
  split
  · exact .refl s
  · exact modifyStream_streamsKept s _ fun _ => ⟨rfl, rfl⟩

lemma onSocket_eq (s : Server) (conn : ServerConnection) (peerAddr : Ipv4Address)
    (udxSock : Option ℕ) :
    s.onSocket conn peerAddr udxSock =
      { s with
        streams := (s.onSocket conn peerAddr udxSock).streams
        accepted := (s.onSocket conn peerAddr udxSock).accepted } := by
  unfold onSocket
  split
  · rw [destroyConnection_eq]
  · split <;> rfl

lemma onSocket_accepts {conn : ServerConnection} {p : ℕ} (h : s.onConnection = true)
    (hp : conn.rawStream = some p) (peerAddr : Ipv4Address) (udxSock : Option ℕ) :
    ∃ info : ConnectionInfo, info.rawStream = some p ∧
      s.onSocket conn peerAddr udxSock =
        { s.modifyStream p fun st => { st with ctx := false } with
          accepted := s.accepted ++ [(conn.noise, info)] } := by
  unfold onSocket
  simp only [h, hp, Bool.not_true, Bool.false_eq_true, if_false]
  exact ⟨_, rfl, rfl⟩

lemma onSocket_length (s : Server) (conn : ServerConnection) (peerAddr : Ipv4Address)
    (udxSock : Option ℕ) : (s.onSocket conn peerAddr udxSock).streams.length = s.streams.length := by
  unfold onSocket
  split
  · exact destroyConnection_length s conn
  · split <;> simp [modifyStream]

lemma onSocket_destroys (h : s.onConnection = false) (conn : ServerConnection)
    (peerAddr : Ipv4Address) (udxSock : Option ℕ) :
    s.onSocket conn peerAddr udxSock = s.destroyConnection conn := by
  rw [onSocket.eq_def, h]
  rfl

lemma onSocket_streamsKept (s : Server) (conn : ServerConnection) (peerAddr : Ipv4Address)
    (udxSock : Option ℕ) : StreamsKept s (s.onSocket conn peerAddr udxSock) := by
  unfold onSocket
  split
  · exact destroyConnection_streamsKept s conn
  · split
    · exact .of_eq rfl
    · next p _ =>
      intro q st hst
      exact modifyStream_streamsKept s p (f := fun st => { st with ctx := false })
        (fun _ => ⟨rfl, rfl⟩) q st hst

lemma clearSession_eq (s : Server) (hpId : UInt32) :
    s.clearSession hpId = { s with
      connections := s.connections.erase hpId
      handshakeDedup := (s.clearSession hpId).handshakeDedup
      pendingPunchStreams := (s.clearSession hpId).pendingPunchStreams
      sessionTimers := (s.clearSession hpId).sessionTimers
      streams := (s.clearSession hpId).streams } := by
  unfold clearSession
  split
  · next hnone =>
    have herase : s.connections.erase hpId = s.connections := by
      apply AList.ext
      exact List.kerase_of_notMem_keys (AList.lookup_eq_none.1 hnone)
    rw [herase]
  · rw [destroyConnection_eq, takeSession]

lemma clearSession_connections (s : Server) (hpId : UInt32) :
    (s.clearSession hpId).connections = s.connections.erase hpId := by
  rw [clearSession_eq]

lemma clearSession_length (s : Server) (hpId : UInt32) :
    (s.clearSession hpId).streams.length = s.streams.length := by
  unfold clearSession
  split
  · rfl
  · rw [destroyConnection_length]
    rfl

lemma clearSession_streamsKept (s : Server) (hpId : UInt32) :
    StreamsKept s (s.clearSession hpId) := by
  unfold clearSession
  split
  · exact .refl s
  · next conn _ =>
    intro p st hst
    exact destroyConnection_streamsKept _ conn p st hst

lemma onRawStreamClose_of_lookup {localId hpId : UInt32} {conn : ServerConnection}
    (hpunch : s.pendingPunchStreams.lookup localId = some hpId)
    (hconn : s.connections.lookup hpId = some conn) :
    s.onRawStreamClose localId = { s with
      connections := s.connections.erase hpId
      handshakeDedup := eraseDedup s.handshakeDedup hpId
      pendingPunchStreams := s.pendingPunchStreams.erase localId
      sessionTimers := s.sessionTimers.erase hpId } := by
  unfold onRawStreamClose
  rw [hpunch]
  dsimp only
  rw [hconn]
  dsimp only
  rw [clearSession, AList.lookup_insert, ← erase_insert s.connections hpId
    { conn with rawStream := none }]
  rfl

lemma onRawStreamClose_of_none {localId hpId : UInt32}
    (hpunch : s.pendingPunchStreams.lookup localId = some hpId)
    (hconn : s.connections.lookup hpId = none) :
    s.onRawStreamClose localId =
      { s with pendingPunchStreams := s.pendingPunchStreams.erase localId } := by
  unfold onRawStreamClose
  rw [hpunch]
  dsimp only
  rw [hconn]
  dsimp only
  rw [clearSession, hconn]

lemma foldl_destroyConnection_eq (entries : List (Sigma fun _ : UInt32 => ServerConnection))
    (s : Server) : entries.foldl (fun s e => s.destroyConnection e.2) s =
      { s with streams := (entries.foldl (fun s e => s.destroyConnection e.2) s).streams } := by
  induction entries generalizing s with
  | nil => rfl
  | cons e entries ih => rw [List.foldl_cons, ih, destroyConnection_eq s e.2]

lemma foldl_destroyConnection_rest (entries : List (Sigma fun _ : UInt32 => ServerConnection))
    (s : Server) :
    (entries.foldl (fun s e => s.destroyConnection e.2) s).accepted = s.accepted ∧
      (entries.foldl (fun s e => s.destroyConnection e.2) s).replies = s.replies ∧
      (entries.foldl (fun s e => s.destroyConnection e.2) s).relayAttempts = s.relayAttempts := by
  rw [foldl_destroyConnection_eq]
  exact ⟨rfl, rfl, rfl⟩

lemma foldl_destroyConnection_congr (entries : List (Sigma fun _ : UInt32 => ServerConnection))
    (h : s.streams = s'.streams) :
    (entries.foldl (fun s e => s.destroyConnection e.2) s).streams =
      (entries.foldl (fun s e => s.destroyConnection e.2) s').streams := by
  induction entries generalizing s s' with
  | nil => exact h
  | cons e entries ih => exact ih (destroyConnection_streams_congr h e.2)

lemma startRelay_eq (s : Server) (hpId : UInt32) (conn : ServerConnection) (raw : ℕ)
    (ours : Option RelayThroughInfo) (refused : Bool) :
    s.startRelay hpId conn raw ours refused = s ∨
      s.startRelay hpId conn raw ours refused = s.clearSession hpId ∨
      ∃ attempt : RelayAttempt, attempt.noise = conn.noise ∧ attempt.hpId = hpId ∧
        attempt.rawStream = raw ∧
        s.startRelay hpId conn raw ours refused =
          { s with relayAttempts := s.relayAttempts ++ [attempt] } := by
  unfold startRelay
  split
  · exact .inl rfl
  · split
    · exact .inr (.inl rfl)
    · exact .inr (.inr ⟨_, rfl, rfl, rfl, rfl⟩)

/-! ## Handshakes -/

/-- The input is a first message, or decides on one. -/
def Input.isHandshake : Input → Bool
  | .handshake .. | .decision .. => true
  | _ => false

/-- The handshake that an input completes, what it draws and what the firewall says. -/
def completes (env : Env) (s : Server) : Input → Option (Deciding × Draw × Bool)
  | .handshake here draw noise peerAddress =>
    if s.closed || s.suspended || (s.cached noise).isSome then none
    else
      (decodeHandshake env noise).bind fun pending =>
        let d := here.deciding env pending s.nextHpId
        match s.firewall with
        | .none => some (d, draw, false)
        | .sync =>
          some (d, draw, here.rejects pending.remotePublicKey pending.remotePayload peerAddress)
        | .async => none
  | .decision k draw reject =>
    if s.closed || s.suspended then none else s.deciding[k]?.map fun d => (d, draw, reject)
  | _ => none

/-- The server when the handshake is completed. -/
def prepared (s : Server) : Input → Server
  | .handshake _ _ noise _ =>
    { s.capDedup with
      handshakeDedup := s.capDedup.handshakeDedup.erase (toHex noise)
      nextHpId := s.nextHpId + 1 }
  | .decision k _ _ => { s with deciding := s.deciding.eraseIdx k }
  | _ => s

/-- The handshake that an input answers, what it draws and its session: there is room for it. -/
def answers (env : Env) (s : Server) (i : Input) : Option (Deciding × Draw × ServerConnection) :=
  if s.connections.entries.length ≥ maxPendingHandshakes then none
  else
    (completes env s i).bind fun c =>
      (finalizeHandshake env c.1 c.2.1 c.2.2).map fun conn => (c.1, c.2.1, conn)

/-- The server may have forgotten first messages, noted decisions to wait for and sent replies; the
rest of it is as it was. -/
structure Looked (s s' : Server) : Prop where
  eq : s' = { s with
    handshakeDedup := s'.handshakeDedup
    nextHpId := s'.nextHpId
    deciding := s'.deciding
    replies := s'.replies }
  dedup : ∀ key hpId, s'.handshakeDedup.lookup key = some hpId →
    s.handshakeDedup.lookup key = some hpId
  works : s'.handshakeDedup = s.handshakeDedup ∨ ¬ (s.closed = true ∨ s.suspended = true)

lemma Looked.refl (s : Server) : Looked s s := ⟨rfl, fun _ _ h => h, .inl rfl⟩

lemma capDedup_eq (s : Server) :
    s.capDedup = { s with handshakeDedup := s.capDedup.handshakeDedup } := by
  unfold capDedup
  split <;> rfl

lemma lookup_of_capDedup {key : List Char} {hpId : UInt32}
    (h : s.capDedup.handshakeDedup.lookup key = some hpId) :
    s.handshakeDedup.lookup key = some hpId := by
  unfold capDedup at h
  split at h
  · cases h
  · exact h

lemma lookup_of_cached {noise : List UInt8} {conn : ServerConnection}
    (h : s.cached noise = some conn) :
    ∃ hpId, s.handshakeDedup.lookup (toHex noise) = some hpId ∧
      s.connections.lookup hpId = some conn := by
  obtain ⟨hpId, hdedup, hconn⟩ := Option.bind_eq_some_iff.1 h
  exact ⟨hpId, lookup_of_capDedup hdedup, hconn⟩

lemma looked_erase (hworks : ¬ (s.closed = true ∨ s.suspended = true)) (key : List Char)
    (nextHpId : UInt32) (deciding : List Deciding) :
    Looked s { s.capDedup with
      handshakeDedup := s.capDedup.handshakeDedup.erase key
      nextHpId := nextHpId
      deciding := deciding } := by
  refine ⟨by rw [capDedup_eq], ?_, .inr hworks⟩
  intro other hpId hother
  by_cases hkey : other = key
  · rw [hkey, AList.lookup_erase] at hother
    cases hother
  · rw [AList.lookup_erase_ne hkey] at hother
    exact lookup_of_capDedup hother

lemma prepared_looked {i : Input} (h : completes env s i ≠ none) : Looked s (prepared s i) := by
  cases i with
  | handshake here draw noise peerAddress =>
    have hworks : ¬ (s.closed = true ∨ s.suspended = true) := by
      rintro (hclosed | hsuspended)
      · simp [completes, hclosed] at h
      · simp [completes, hsuspended] at h
    have hlooked := looked_erase hworks (toHex noise) (s.nextHpId + 1) s.deciding
    have hdeciding : s.capDedup.deciding = s.deciding := by rw [capDedup_eq]
    rw [← hdeciding] at hlooked
    exact hlooked
  | decision k draw reject => exact ⟨rfl, fun _ _ hkey => hkey, .inl rfl⟩
  | _ => exact .refl s

lemma prepared_replies (s : Server) (i : Input) : (prepared s i).replies = s.replies := by
  cases i with
  | handshake here draw noise peerAddress => rw [prepared, capDedup_eq]
  | _ => rfl

lemma step_of_completes {i : Input} {d : Deciding} {draw : Draw} {rejected : Bool}
    (h : completes env s i = some (d, draw, rejected)) :
    (s.closed || s.suspended) = false ∧
      step env s i = (prepared s i).complete env d draw rejected := by
  cases i with
  | handshake here draw' noise peerAddress =>
    by_cases hrests : (s.closed || s.suspended) = true
    · simp [completes, hrests] at h
    · by_cases hcached : (s.cached noise).isSome = true
      · simp [completes, hcached] at h
      · refine ⟨Bool.eq_false_of_not_eq_true hrests, ?_⟩
        have hnone : s.cached noise = none := by simpa using hcached
        simp only [completes, hrests, hnone, Option.isSome_none, Bool.or_false, Bool.false_eq_true,
          if_false] at h
        obtain ⟨pending, hpending, hdecides⟩ := Option.bind_eq_some_iff.1 h
        have hfirewall : s.capDedup.firewall = s.firewall := by rw [capDedup_eq]
        simp only [step, onPeerHandshake, prepared, hrests, hnone, hpending, hfirewall,
          Bool.false_eq_true, if_false]
        cases hwall : s.firewall <;> rw [hwall] at hdecides <;> cases hdecides <;> rfl
  | decision k draw' reject =>
    by_cases hrests : (s.closed || s.suspended) = true
    · simp [completes, hrests] at h
    · refine ⟨Bool.eq_false_of_not_eq_true hrests, ?_⟩
      simp only [completes, hrests, Bool.false_eq_true, if_false] at h
      obtain ⟨d', hd, heq⟩ := Option.map_eq_some_iff.1 h
      cases heq
      simp only [step, onDecision, hd, hrests, Bool.false_eq_true, if_false]
      rfl
  | _ => cases h

lemma prepared_of_completes {i : Input} {c : Deciding × Draw × Bool} (h : completes env s i = some c) :
    Looked s (prepared s i) ∧ ¬ ((prepared s i).closed || (prepared s i).suspended) = true ∧
      (prepared s i).connections = s.connections := by
  have hlooked := prepared_looked (s := s) (i := i) (by rw [h]; nofun)
  refine ⟨hlooked, ?_, by rw [hlooked.eq]⟩
  rw [hlooked.eq]
  exact ne_true_of_eq_false (step_of_completes h).1

lemma prepared_of_answers {i : Input} {a : Deciding × Draw × ServerConnection}
    (h : answers env s i = some a) :
    s.connections.entries.length < maxPendingHandshakes ∧
      ¬ (s.closed = true ∨ s.suspended = true) ∧ Looked s (prepared s i) := by
  unfold answers at h
  split at h
  · cases h
  · next hroom =>
    obtain ⟨c, hcompletes, -⟩ := Option.bind_eq_some_iff.1 h
    have hworks := (step_of_completes hcompletes).1
    exact ⟨not_le.1 hroom, by simpa using hworks, prepared_looked (by rw [hcompletes]; nofun)⟩

/-- **A handshake is answered**: the reply is sent, and the session is opened unless the client is
refused. -/
theorem step_of_answers {i : Input} {d : Deciding} {draw : Draw} {conn : ServerConnection}
    (h : answers env s i = some (d, draw, conn)) :
    step env s i =
      if conn.hasError then
        { prepared s i with replies := s.replies ++ [(conn.noise, conn.replyNoise)] }
      else
        { prepared s i with
          replies := s.replies ++ [(conn.noise, conn.replyNoise)] }.openSession env d
            draw.relayRefused conn := by
  unfold answers at h
  split at h
  · cases h
  · next hroom =>
    obtain ⟨⟨d', draw', rejected⟩, hcompletes, hmap⟩ := Option.bind_eq_some_iff.1 h
    obtain ⟨conn', hconn, heq⟩ := Option.map_eq_some_iff.1 hmap
    simp only [Prod.mk.injEq] at heq
    obtain ⟨rfl, rfl, rfl⟩ := heq
    obtain ⟨-, hstep⟩ := step_of_completes hcompletes
    obtain ⟨hlooked, hrests, hconnections⟩ := prepared_of_completes hcompletes
    rw [hstep, complete, onHandshakeResult.eq_def, if_neg hrests, if_neg (by rwa [hconnections]),
      hconn, ← prepared_replies s i]

/-- **A first message or a decision that answers no handshake** leaves the sessions as they are; the
message may be answered from its session. -/
theorem step_of_not_answers {i : Input} (hi : i.isHandshake = true) (h : answers env s i = none) :
    Looked s (step env s i) ∧ ((step env s i).replies = s.replies ∨
      ∃ here draw noise peerAddress conn, i = .handshake here draw noise peerAddress ∧
        s.cached noise = some conn ∧
        (step env s i).replies = s.replies ++ [(noise, conn.replyNoise)]) := by
  cases hcompletes : completes env s i with
  | some c =>
    -- the handshake is completed, but fails, or there is no room for it
    obtain ⟨d, draw, rejected⟩ := c
    obtain ⟨-, hstep⟩ := step_of_completes hcompletes
    obtain ⟨hlooked, hrests, hconnections⟩ := prepared_of_completes hcompletes
    have hprepared : step env s i = prepared s i := by
      rw [hstep, complete, onHandshakeResult.eq_def, if_neg hrests, hconnections]
      by_cases hroom : s.connections.entries.length ≥ maxPendingHandshakes
      · rw [if_pos hroom]
      · rw [answers, if_neg hroom, hcompletes] at h
        have hfailed : finalizeHandshake env d draw rejected = none := by simpa using h
        rw [if_neg hroom, hfailed]
    rw [hprepared]
    exact ⟨hlooked, .inl (prepared_replies s i)⟩
  | none =>
    cases i with
    | handshake here draw noise peerAddress =>
      by_cases hrests : (s.closed || s.suspended) = true
      · rw [step, onPeerHandshake, if_pos hrests]
        exact ⟨.refl s, .inl rfl⟩
      · have hworks : ¬ (s.closed = true ∨ s.suspended = true) := by simpa using hrests
        cases hcached : s.cached noise with
        | some conn =>
          have hstep : step env s (.handshake here draw noise peerAddress) =
              { s.capDedup with replies := s.replies ++ [(noise, conn.replyNoise)] } := by
            rw [step, onPeerHandshake, if_neg hrests, hcached]
          rw [hstep]
          refine ⟨⟨by rw [capDedup_eq], fun _ _ => lookup_of_capDedup, .inr hworks⟩, .inr ?_⟩
          exact ⟨here, draw, noise, peerAddress, conn, rfl, hcached, rfl⟩
        | none =>
          -- the message cannot be read, or the firewall decides on it later
          have hdeciding : ∃ deciding, step env s (.handshake here draw noise peerAddress) =
              { s.capDedup with
                handshakeDedup := s.capDedup.handshakeDedup.erase (toHex noise)
                nextHpId := s.nextHpId + 1
                deciding := deciding } := by
            have hfirewall : s.capDedup.firewall = s.firewall := by rw [capDedup_eq]
            simp only [completes, hrests, hcached, Option.isSome_none, Bool.or_false,
              Bool.false_eq_true, if_false] at hcompletes
            simp only [step, onPeerHandshake, hrests, hcached, hfirewall, Bool.false_eq_true, if_false]
            cases hpending : decodeHandshake env noise with
            | none => exact ⟨_, rfl⟩
            | some pending =>
              rw [hpending] at hcompletes
              cases hwall : s.firewall with
              | none => simp [hwall] at hcompletes
              | sync => simp [hwall] at hcompletes
              | async => exact ⟨_, rfl⟩
          obtain ⟨deciding, hstep⟩ := hdeciding
          rw [hstep]
          exact ⟨looked_erase hworks _ _ _, .inl (by rw [capDedup_eq])⟩
    | decision k draw reject =>
      simp only [step, onDecision]
      split
      · exact ⟨.refl s, .inl rfl⟩
      · next d hd =>
        split
        · exact ⟨⟨rfl, fun _ _ hkey => hkey, .inl rfl⟩, .inl rfl⟩
        · next hrests =>
          simp only [completes, hrests, hd, Bool.false_eq_true, if_false] at hcompletes
          cases hcompletes
    | _ => cases hi

/-! ## Holepunches -/

lemma onPeerHolepunch_cases (s : Server) (hpId : UInt32) (shouldPunch allowed : Bool) :
    s.onPeerHolepunch hpId shouldPunch allowed = s ∨
      s.onPeerHolepunch hpId shouldPunch allowed = s.clearSession hpId ∨
      ∃ conn, s.connections.lookup hpId = some conn ∧
        s.onPeerHolepunch hpId shouldPunch allowed =
          { s with connections := s.connections.insert hpId { conn with puncher := true } } := by
  unfold onPeerHolepunch
  split
  · exact .inl rfl
  split
  · exact .inl rfl
  next conn hconn =>
    split
    · exact .inl rfl
    split
    · exact .inr (.inl rfl)
    · exact .inr (.inr ⟨conn, hconn, rfl⟩)

lemma lookup_insert_puncher {hpId : UInt32} {conn : ServerConnection}
    (h : s.connections.lookup hpId = some conn) (id : UInt32) :
    (s.connections.insert hpId { conn with puncher := true }).lookup id =
      (s.connections.lookup id).map fun old =>
        if id = hpId then { old with puncher := true } else old := by
  by_cases hid : id = hpId
  · rw [hid, AList.lookup_insert, h, Option.map_some, if_pos rfl]
  · simp [AList.lookup_insert_ne hid, hid]

/-! ## Messages in the clear -/

/-- A server whose clients send their messages in the clear: every message but the empty one can be
read. -/
def plainEnv (payload : NoisePayload) : Env where
  recv noise := if noise = [] then none else some (List.Vector.replicate 32 0, payload)
  send _ _ _ := some ([], ⟨List.Vector.replicate 32 0, List.Vector.replicate 32 0,
    List.Vector.replicate 64 0⟩)

def drawOf (n : UInt8) : Draw where
  ephemeral := List.Vector.replicate 32 n
  udxId := n.toUInt32

/-- A first message that comes from anywhere. -/
def message (noise : List UInt8) (n : UInt8) : Input :=
  .handshake {} (drawOf n) noise { host := List.Vector.replicate 4 0, port := 0 }

end HyperDHT.Server
