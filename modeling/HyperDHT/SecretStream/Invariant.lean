import Mathlib.Data.List.Infix
import HyperDHT.SecretStream.Duplex

/-!
# What holds of a duplex at any time

## Main definitions

* `SecretStream.Duplex.Wf` — the flags of a duplex agree with each other, and `sent` is made of whole frames.
* `SecretStream.Duplex.Sound` — what was delivered so far is what the peer has pushed.
* `SecretStream.Duplex.Tracks` — the frames handled so far were those of the peer.

## Main results

* `SecretStream.Duplex.Wf.step`, `SecretStream.Duplex.Sound.step` — every input keeps them, whatever the bytes are.
* `SecretStream.Duplex.Tracks.drain` — the frames of the peer do not destroy the stream.
-/

set_option autoImplicit false

namespace HyperDHT.SecretStream

open LittleEndian

variable {L : Sodium} {peer : PushState}

/-! ## The secretstream -/

lemma PullState.pull_eq_some {p p' : PullState} {body data : List UInt8} :
    p.pull L peer body = some (p', data) ↔
      p.key = peer.key ∧ p.header = peer.header ∧ peer.pushed[p.pulled]? = some data ∧
        L.push peer.key peer.header (peer.pushed.take p.pulled) data = body ∧
          p' = { p with pulled := p.pulled + 1 } := by
  unfold pull
  constructor
  · intro h
    split_ifs at h with hsame
    split at h
    · rename_i next hnext
      split_ifs at h with hbody
      obtain ⟨rfl, rfl⟩ : { p with pulled := p.pulled + 1 } = p' ∧ next = data := by simpa using h
      exact ⟨hsame.1, hsame.2, hnext, hbody, rfl⟩
    · cases h
  · rintro ⟨hkey, hheader, hnext, hbody, rfl⟩
    rw [if_pos ⟨hkey, hheader⟩, hnext]
    simp only [hbody, if_true]

namespace Crypto

lemma receiveHeader_eq_some {c c' : Crypto} {data : List UInt8} :
    c.receiveHeader data = some c' ↔
      ∃ header : Header, data = c.remoteId.toList ++ header.toList ∧
        c' = { c with pull := some { key := c.rxKey, header := header } } := by
  unfold receiveHeader
  constructor
  · intro h
    split_ifs at h with hlength htake
    refine ⟨_, ?_, (Option.some.inj h).symm⟩
    rw [← htake]
    exact (List.take_append_drop streamIdLen data).symm
  · rintro ⟨header, rfl, rfl⟩
    have hid : c.remoteId.toList.length = streamIdLen := c.remoteId.toList_length
    have hlength : (c.remoteId.toList ++ header.toList).length = idHeaderBytes := by
      rw [List.length_append, hid, header.toList_length]
      rfl
    have htake : (c.remoteId.toList ++ header.toList).take streamIdLen = c.remoteId.toList := by
      rw [← hid, List.take_left]
    have hdrop : (c.remoteId.toList ++ header.toList).drop streamIdLen = header.toList := by
      rw [← hid, List.drop_left]
    rw [dif_pos hlength, if_pos htake]
    refine congrArg some ?_
    congr 3
    exact Subtype.ext hdrop

/-- What `decrypt` can do. -/
theorem decrypt_cases {c : Crypto} {data : List UInt8} {c' : Crypto} {plain : Option (List UInt8)}
    (h : c.decrypt L peer data = (c', plain)) :
    (c' = c ∧ plain = none) ∨
      ∃ p p' pt, c.pull = some p ∧ p.pull L peer data = some (p', pt) ∧
        c' = { c with pull := some p' } ∧
          plain = if pt = [] ∧ c.keepAliveMs > 0 then none else some pt := by
  unfold decrypt at h
  split_ifs at h with hready hshort
  · exact .inl (by simpa [eq_comm] using h)
  · exact .inl (by simpa [eq_comm] using h)
  · split at h
    · exact .inl (by simpa [eq_comm] using h)
    · rename_i p' pt hpull
      obtain ⟨p, hp, hpull⟩ := Option.bind_eq_some_iff.1 hpull
      exact .inr ⟨p, p', pt, hp, hpull, by simpa [eq_comm] using h⟩

lemma decrypt_eq {c : Crypto} (hready : c.isReady = true) {p p' : PullState} {data pt : List UInt8}
    (hp : c.pull = some p) (hpull : p.pull L peer data = some (p', pt)) :
    c.decrypt L peer data =
      ({ c with pull := some p' }, if pt = [] ∧ c.keepAliveMs > 0 then none else some pt) := by
  have hlength : ¬ data.length < abytes := by
    obtain ⟨-, -, -, rfl, -⟩ := PullState.pull_eq_some.1 hpull
    rw [L.length_push]
    omega
  simp [decrypt, hready, hlength, hp, hpull]

lemma length_idHeader (c : Crypto) : c.idHeader.length = idHeaderBytes := by
  rw [Crypto.idHeader, List.length_append, c.localId.toList_length, c.push.header.toList_length]
  rfl

/-- How many messages were pulled. -/
def pulled (c : Crypto) : ℕ := (c.pull.map (·.pulled)).getD 0

end Crypto

namespace PushState

lemma ciphertexts_append (p : PushState) (data : List UInt8) :
    ({ p with pushed := p.pushed ++ [data] } : PushState).ciphertexts L =
      p.ciphertexts L ++ [p.ciphertext L data] := by
  unfold ciphertexts ciphertext
  simp only [List.mapIdx_append, List.mapIdx_cons, List.mapIdx_nil, Nat.zero_add,
    List.take_left', List.append_cancel_right_eq]
  refine List.ext_getElem (by simp) fun i hi hi' => ?_
  have hlt : i < p.pushed.length := by simpa using hi
  simp only [List.getElem_mapIdx, List.take_append_of_le_length hlt.le]

@[simp] lemma length_ciphertexts (p : PushState) : (p.ciphertexts L).length = p.pushed.length := by
  simp [ciphertexts]

lemma getElem?_ciphertexts (p : PushState) (i : ℕ) :
    (p.ciphertexts L)[i]? =
      (p.pushed[i]?).map fun data => L.push p.key p.header (p.pushed.take i) data := by
  rw [ciphertexts, List.getElem?_mapIdx]

end PushState

/-! ## What is delivered -/

/-- What `on_message` sees of some messages: with keepalives, the empty ones are suppressed. -/
def visible (keepAliveMs : UInt64) (messages : List (List UInt8)) : List (List UInt8) :=
  if keepAliveMs > 0 then messages.filter (· ≠ []) else messages

lemma visible_append (keepAliveMs : UInt64) (xs ys : List (List UInt8)) :
    visible keepAliveMs (xs ++ ys) = visible keepAliveMs xs ++ visible keepAliveMs ys := by
  unfold visible
  split_ifs
  · exact List.filter_append xs ys
  · rfl

lemma visible_isPrefix {keepAliveMs : UInt64} {xs ys : List (List UInt8)} (h : xs <+: ys) :
    visible keepAliveMs xs <+: visible keepAliveMs ys := by
  obtain ⟨rest, rfl⟩ := h
  exact ⟨visible keepAliveMs rest, (visible_append keepAliveMs xs rest).symm⟩

/-! ## A duplex by itself -/

namespace Duplex

/-- The bodies of the frames that were sent. -/
def bodies (L : Sodium) (d : Duplex) : List (List UInt8) :=
  if d.started then d.crypto.idHeader :: d.crypto.push.ciphertexts L else []

/-- What holds of a duplex at any time, but for the moment before `maybe_fire_connect` is called. -/
structure Base (L : Sodium) (d : Duplex) : Prop where
  pull : d.crypto.pull.isSome = d.headerReceived
  cryptoSent : d.crypto.headerSent = d.started
  received : d.headerReceived = true → d.started = true
  acked : d.headerSent = true → d.started = true
  connected : d.connected = true → d.headerSent = true ∧ d.headerReceived = true
  /-- Nothing waits any more once the stream is connected. -/
  pending : d.connected = true → d.pendingMessages = []
  /-- Nothing is delivered before the stream is connected. -/
  messages : d.connected = false → d.messages = []
  keepAlive : d.started = true → d.crypto.keepAliveMs = d.keepAliveMs
  unstarted : d.started = false → d.crypto.push.pushed = [] ∧ d.crypto.keepAliveMs = 0
  writable : ∀ data ∈ d.crypto.push.pushed, data.length ≤ maxAtomicWrite
  sent : d.sent = ((d.bodies L).map frame).flatten

/-- The flags of a duplex agree with each other, and what was sent is made of whole frames. -/
structure Wf (L : Sodium) (d : Duplex) : Prop extends Base L d where
  prompt : d.headerSent = true → d.headerReceived = true → d.connected = true

namespace Wf

lemma isReady {d : Duplex} (h : d.Wf L) (hconnected : d.connected = true) :
    d.crypto.isReady = true := by
  obtain ⟨-, hreceived⟩ := h.connected hconnected
  rw [Crypto.isReady, h.pull, h.cryptoSent, hreceived, h.received hreceived]
  rfl

lemma validBody {d : Duplex} (h : d.Wf L) : ∀ body ∈ d.bodies L, ValidBody body := by
  intro body hbody
  unfold bodies at hbody
  split_ifs at hbody with hstarted
  · rcases List.mem_cons.1 hbody with rfl | hbody
    · rw [ValidBody, Crypto.length_idHeader]
      decide
    · obtain ⟨i, hi, rfl⟩ := List.mem_mapIdx.1 hbody
      have hmax := h.writable _ (List.getElem_mem hi)
      rw [ValidBody, L.length_push]
      simp only [frameLenMax, abytes] at hmax ⊢
      omega
  · cases hbody

end Wf

lemma wf_new (hs : DuplexHandshake) (header : Header) (keepAliveMs : UInt64) :
    (Duplex.new L hs header keepAliveMs).Wf L := by
  refine ⟨?_, ?_⟩
  · constructor <;> simp [Duplex.new, Crypto.new, bodies]
  · simp [Duplex.new]

lemma Wf.destroy {d : Duplex} (h : d.Wf L) (error : Int) : (d.destroy error).Wf L := by
  unfold Duplex.destroy
  split_ifs
  · exact h
  · exact { h with }

lemma maybeFireConnect_cases (d : Duplex) :
    (d.maybeFireConnect = d ∧ (d.headerSent = true → d.headerReceived = true → d.connected = true)) ∨
      (d.connected = false ∧ (d.headerSent = true ∧ d.headerReceived = true) ∧ d.maybeFireConnect =
        { d with
          connected := true
          pendingMessages := []
          messages := d.messages ++ if d.destroyed then [] else d.pendingMessages }) := by
  unfold maybeFireConnect
  by_cases hconnected : d.connected = true
  · rw [if_pos hconnected]
    exact .inl ⟨rfl, fun _ _ => hconnected⟩
  · rw [if_neg hconnected]
    by_cases hflags : d.headerSent = false ∨ d.headerReceived = false
    · rw [if_pos hflags]
      refine .inl ⟨rfl, fun hsent hreceived => ?_⟩
      simp [hsent, hreceived] at hflags
    · rw [if_neg hflags]
      exact .inr ⟨by simpa using hconnected, by simpa using hflags, rfl⟩

lemma Base.maybeFireConnect {d : Duplex} (h : d.Base L) : d.maybeFireConnect.Wf L := by
  rcases maybeFireConnect_cases d with ⟨heq, hprompt⟩ | ⟨-, hflags, heq⟩
  · rw [heq]
    exact { h with prompt := hprompt }
  · rw [heq]
    exact { h with
      connected := fun _ => hflags
      pending := fun _ => rfl
      messages := fun hnot => absurd hnot (by simp)
      prompt := fun _ _ => rfl }

/-! ### The calls of the user -/

lemma Wf.start_cases {d : Duplex} (h : d.Wf L) :
    d.start = d ∨
      (d.started = false ∧ d.destroyed = false ∧ d.start =
        { d with
          started := true
          headerSent := false
          crypto := { d.crypto with headerSent := true, keepAliveMs := d.keepAliveMs }
          sent := d.sent ++ frame d.crypto.idHeader }) := by
  unfold Duplex.start
  by_cases hidle : d.started = true ∨ d.destroyed = true
  · exact .inl (if_pos hidle)
  · rw [if_neg hidle]
    obtain ⟨hstarted, hdestroyed⟩ : d.started = false ∧ d.destroyed = false := by simpa using hidle
    refine .inr ⟨hstarted, hdestroyed, ?_⟩
    have hframe : frame d.crypto.idHeader = toLe 3 idHeaderBytes ++ d.crypto.idHeader := by
      rw [frame, Crypto.length_idHeader]
    have hkeepAlive := (h.unstarted hstarted).2
    rw [hframe]
    by_cases hpos : d.keepAliveMs > 0
    · simp only [Crypto.createHeaderMessage, if_pos hpos]
    · have hzero : d.keepAliveMs = 0 := by simpa using hpos
      simp only [Crypto.createHeaderMessage, if_neg hpos]
      rw [hzero, ← hkeepAlive]

lemma Wf.start {d : Duplex} (h : d.Wf L) : d.start.Wf L := by
  rcases h.start_cases with heq | ⟨hstarted, -, heq⟩
  · rwa [heq]
  · rw [heq]
    have hreceived : d.headerReceived = false := by
      by_contra hnot
      simp [h.received (by simpa using hnot)] at hstarted
    have hconnected : d.connected = false := by
      by_contra hnot
      simp [(h.connected (by simpa using hnot)).2] at hreceived
    have hsent : d.sent = [] := by
      have := h.sent
      rwa [bodies, hstarted] at this
    exact { h with
      cryptoSent := rfl
      received := fun _ => rfl
      acked := fun _ => rfl
      connected := fun htrue => absurd htrue (by simp [hconnected])
      keepAlive := fun _ => rfl
      unstarted := fun hfalse => absurd hfalse (by simp)
      sent := by
        simp [hsent, bodies, PushState.ciphertexts, (h.unstarted hstarted).1, Crypto.idHeader]
      prompt := fun hfalse => absurd hfalse (by simp) }

lemma Wf.headerAck {d : Duplex} (h : d.Wf L) (hstarted : d.started = true) (status : Int) :
    (d.headerAck status).Wf L := by
  unfold Duplex.headerAck
  split_ifs with hok
  · refine Base.maybeFireConnect ?_
    exact { h with
      acked := fun _ => hstarted
      connected := fun hconnected => ⟨rfl, (h.connected hconnected).2⟩ }
  · exact h.destroy status

/-- `write` accepts a message that fits, once the stream is connected and until it is closed. -/
theorem Wf.write_eq {d : Duplex} (h : d.Wf L) (hdestroyed : d.destroyed = false)
    (hended : d.ended = false) (hconnected : d.connected = true) {data : List UInt8}
    (hlength : data.length ≤ maxAtomicWrite) :
    d.write L data =
      ({ d with
          crypto := { d.crypto with
            push := { d.crypto.push with pushed := d.crypto.push.pushed ++ [data] } }
          sent := d.sent ++ frame (d.crypto.push.ciphertext L data) }, 0) := by
  have hready := h.isReady hconnected
  have hlong : ¬ maxAtomicWrite < data.length := by omega
  have hne : frame (d.crypto.push.ciphertext L data) ≠ [] := by
    intro hnil
    simpa [frame] using congrArg List.length hnil
  simp [Duplex.write, hdestroyed, hended, hconnected, hlong, Crypto.encrypt, hready,
    show ¬ 0xFFFFFF - abytes < data.length from hlong, hne]

/-- What `write` can do. -/
theorem Wf.write_cases {d : Duplex} (h : d.Wf L) (data : List UInt8) :
    (∃ rc, rc ≠ 0 ∧ d.write L data = (d, rc)) ∨
      (d.destroyed = false ∧ d.ended = false ∧ d.connected = true ∧ data.length ≤ maxAtomicWrite ∧
        d.write L data =
          ({ d with
              crypto := { d.crypto with
                push := { d.crypto.push with pushed := d.crypto.push.pushed ++ [data] } }
              sent := d.sent ++ frame (d.crypto.push.ciphertext L data) }, 0)) := by
  by_cases hclosed : d.destroyed = true ∨ d.ended = true
  · exact .inl ⟨-1, by decide, by rw [Duplex.write, if_pos hclosed]⟩
  · obtain ⟨hdestroyed, hended⟩ : d.destroyed = false ∧ d.ended = false := by simpa using hclosed
    by_cases hconnected : d.connected = true
    · by_cases hlong : data.length > maxAtomicWrite
      · exact .inl ⟨-3, by decide, by simp [Duplex.write, hdestroyed, hended, hconnected, hlong]⟩
      · have hlength : data.length ≤ maxAtomicWrite := by omega
        exact .inr ⟨hdestroyed, hended, hconnected, hlength,
          h.write_eq hdestroyed hended hconnected hlength⟩
    · exact .inl ⟨-2, by decide, by simp [Duplex.write, hdestroyed, hended, hconnected]⟩

lemma Wf.write {d : Duplex} (h : d.Wf L) (data : List UInt8) : (d.write L data).1.Wf L := by
  rcases h.write_cases data with ⟨rc, -, heq⟩ | ⟨-, -, hconnected, hlength, heq⟩
  · rwa [heq]
  · rw [heq]
    have hstarted : d.started = true := h.received (h.connected hconnected).2
    exact { h with
      unstarted := fun hfalse => absurd (hstarted.symm.trans hfalse) (by simp)
      writable := by
        intro data' hdata'
        rcases List.mem_append.1 hdata' with hold | hnew
        · exact h.writable data' hold
        · rw [List.mem_singleton.1 hnew]
          exact hlength
      sent := by
        have hsent := h.sent
        simp only [bodies, hstarted, if_true, Crypto.idHeader] at hsent ⊢
        rw [hsent, PushState.ciphertexts_append]
        simp }

/-! ### Receiving -/

/-- What receiving leaves unchanged. -/
structure Kept (d d' : Duplex) : Prop where
  push : d'.crypto.push = d.crypto.push
  localId : d'.crypto.localId = d.crypto.localId
  remoteId : d'.crypto.remoteId = d.crypto.remoteId
  rxKey : d'.crypto.rxKey = d.crypto.rxKey
  cryptoSent : d'.crypto.headerSent = d.crypto.headerSent
  cryptoKeepAlive : d'.crypto.keepAliveMs = d.crypto.keepAliveMs
  keepAlive : d'.keepAliveMs = d.keepAliveMs
  started : d'.started = d.started
  headerSent : d'.headerSent = d.headerSent
  ended : d'.ended = d.ended
  sent : d'.sent = d.sent

lemma Kept.refl (d : Duplex) : Kept d d := by constructor <;> rfl

lemma Kept.trans {d d' d'' : Duplex} (h : Kept d d') (h' : Kept d' d'') : Kept d d'' where
  push := h'.push.trans h.push
  localId := h'.localId.trans h.localId
  remoteId := h'.remoteId.trans h.remoteId
  rxKey := h'.rxKey.trans h.rxKey
  cryptoSent := h'.cryptoSent.trans h.cryptoSent
  cryptoKeepAlive := h'.cryptoKeepAlive.trans h.cryptoKeepAlive
  keepAlive := h'.keepAlive.trans h.keepAlive
  started := h'.started.trans h.started
  headerSent := h'.headerSent.trans h.headerSent
  ended := h'.ended.trans h.ended
  sent := h'.sent.trans h.sent

lemma kept_destroy (d : Duplex) (error : Int) : Kept d (d.destroy error) := by
  unfold Duplex.destroy
  split_ifs <;> constructor <;> rfl

lemma kept_maybeFireConnect (d : Duplex) : Kept d d.maybeFireConnect := by
  rcases maybeFireConnect_cases d with ⟨heq, -⟩ | ⟨-, -, heq⟩
  · rw [heq]
    exact Kept.refl d
  · rw [heq]
    constructor <;> rfl

lemma kept_handleFrame (d : Duplex) (msg : List UInt8) : Kept d (d.handleFrame L peer msg) := by
  have hcrypto : ∀ {crypto plain}, d.crypto.decrypt L peer msg = (crypto, plain) →
      ∃ pull, crypto = { d.crypto with pull := pull } := by
    intro crypto plain hdecrypt
    rcases Crypto.decrypt_cases hdecrypt with ⟨rfl, -⟩ | ⟨p, p', pt, -, -, rfl, -⟩
    · exact ⟨d.crypto.pull, rfl⟩
    · exact ⟨some p', rfl⟩
  rcases @handleFrame_cases L peer d msg with
    ⟨-, -, error, heq⟩ | ⟨-, crypto, hheader, heq⟩ | ⟨-, crypto, plain, hdecrypt, hrest⟩
  · rw [heq]
    exact Kept.trans (by constructor <;> rfl) (kept_destroy _ _)
  · rw [heq]
    obtain ⟨header, -, rfl⟩ := Crypto.receiveHeader_eq_some.1 hheader
    exact Kept.trans (by constructor <;> rfl) (kept_maybeFireConnect _)
  · obtain ⟨pull, rfl⟩ := hcrypto hdecrypt
    rcases hrest with ⟨-, heq⟩ | ⟨pt, -, ⟨-, heq⟩ | ⟨-, heq⟩⟩
    · rw [heq]
      constructor <;> rfl
    · rw [heq]
      constructor <;> rfl
    · rw [heq]
      split_ifs
      · exact Kept.trans (by constructor <;> rfl) (kept_destroy _ _)
      · constructor <;> rfl

lemma kept_drain (d : Duplex) : Kept d (d.drain L peer) := by
  refine drain_induction (P := Kept d) ?_ ?_ ?_ (Kept.refl d)
  · intro d' bytes h
    exact h.trans (by constructor <;> rfl)
  · intro d' msg _ h
    exact h.trans (kept_handleFrame d' msg)
  · intro d' error h
    exact h.trans (kept_destroy d' error)

lemma kept_processIncomingBytes (d : Duplex) (data : List UInt8) :
    Kept d (d.processIncomingBytes L peer data) := by
  unfold processIncomingBytes
  split_ifs
  · exact Kept.refl d
  · exact Kept.trans (by constructor <;> rfl) (kept_drain (d.buffer data))

lemma Wf.handleFrame {d : Duplex} (h : d.Wf L) (hstarted : d.started = true) (msg : List UInt8) :
    (d.handleFrame L peer msg).Wf L := by
  have hmsg : ({ d with handled := d.handled ++ [msg] } : Duplex).Wf L := { h with }
  rcases @handleFrame_cases L peer d msg with
    ⟨-, -, error, heq⟩ | ⟨-, crypto, hheader, heq⟩ | ⟨hreceived, crypto, plain, hdecrypt, hrest⟩
  · rw [heq]
    exact hmsg.destroy error
  · rw [heq]
    obtain ⟨header, -, rfl⟩ := Crypto.receiveHeader_eq_some.1 hheader
    refine Base.maybeFireConnect ?_
    exact { h with
      pull := rfl
      received := fun _ => hstarted
      connected := fun hconnected => ⟨(h.connected hconnected).1, rfl⟩ }
  · -- only the pull state of the secretstream moves
    obtain ⟨pull, hpull, rfl⟩ : ∃ pull, pull.isSome = true ∧
        crypto = { d.crypto with pull := pull } := by
      rcases Crypto.decrypt_cases hdecrypt with ⟨rfl, -⟩ | ⟨p, p', pt, -, -, rfl, -⟩
      · exact ⟨d.crypto.pull, h.pull.trans hreceived, rfl⟩
      · exact ⟨some p', rfl, rfl⟩
    have hcrypto : ({ d with
        handled := d.handled ++ [msg]
        crypto := { d.crypto with pull := pull } } : Duplex).Wf L :=
      { h with pull := hpull.trans hreceived.symm }
    rcases hrest with ⟨-, heq⟩ | ⟨pt, -, ⟨hconnected, heq⟩ | ⟨hconnected, heq⟩⟩
    · rw [heq]
      exact hcrypto
    · rw [heq]
      exact { hcrypto with messages := fun hnot => absurd (hconnected.symm.trans hnot) (by simp) }
    · have hqueued : ({ d with
          handled := d.handled ++ [msg]
          crypto := { d.crypto with pull := pull }
          pendingMessages := d.pendingMessages ++ [pt] } : Duplex).Wf L :=
        { hcrypto with pending := fun htrue => absurd (htrue.symm.trans hconnected) (by simp) }
      rw [heq]
      split_ifs
      · exact hqueued.destroy _
      · exact hqueued

lemma Wf.processIncomingBytes {d : Duplex} (h : d.Wf L) (hstarted : d.started = true)
    (data : List UInt8) : (d.processIncomingBytes L peer data).Wf L := by
  unfold Duplex.processIncomingBytes
  split_ifs
  · exact h
  · have hbuffer : (d.buffer data).Wf L := { h with }
    refine (drain_induction (P := fun d => d.Wf L ∧ d.started = true) ?_ ?_ ?_
      ⟨hbuffer, hstarted⟩).1
    · rintro d' bytes ⟨hwf, hs⟩
      exact ⟨{ hwf with }, hs⟩
    · rintro d' msg - ⟨hwf, hs⟩
      exact ⟨hwf.handleFrame hs msg, (kept_handleFrame d' msg).started.trans hs⟩
    · rintro d' error ⟨hwf, hs⟩
      exact ⟨hwf.destroy error, (kept_destroy d' error).started.trans hs⟩

/-- **Every input keeps the flags in agreement.** -/
theorem Wf.step {d : Duplex} (h : d.Wf L) (i : Input) : (d.step L peer i).Wf L := by
  cases i with
  | start => exact h.start
  | headerAck status =>
    simp only [Duplex.step]
    split_ifs with hstarted
    · exact h.headerAck hstarted status
    · exact h
  | read data =>
    simp only [Duplex.step, reads]
    split_ifs with hstarted
    · exact h.processIncomingBytes hstarted data
    · simpa [Duplex.processIncomingBytes] using h
  | write data => exact h.write data
  | keepAlive =>
    simp only [Duplex.step, writes]
    split_ifs
    · exact h.write []
    · exact h
  | «end» =>
    simp only [Duplex.step]
    split_ifs
    · exact h
    · exact { h with }
  | destroy error => exact h.destroy error

/-! ## A duplex and its peer -/

/-- The messages that were delivered, and those that wait, are what the peer has pushed first. -/
structure Sound (peer : PushState) (d : Duplex) : Prop where
  pulled : d.crypto.pulled ≤ peer.pushed.length
  messages : d.messages <+: visible d.keepAliveMs (peer.pushed.take d.crypto.pulled)
  /-- Nothing is missing, unless the stream was destroyed. -/
  complete : d.destroyed = false →
    d.messages ++ d.pendingMessages = visible d.keepAliveMs (peer.pushed.take d.crypto.pulled)

namespace Sound

lemma mono {peer' : PushState} {d : Duplex} (h : Sound peer d) (hpush : peer.pushed <+: peer'.pushed) :
    Sound peer' d := by
  have htake : peer'.pushed.take d.crypto.pulled = peer.pushed.take d.crypto.pulled := by
    obtain ⟨more, hmore⟩ := hpush
    rw [← hmore, List.take_append_of_le_length h.pulled]
  exact
    { pulled := h.pulled.trans hpush.length_le
      messages := htake ▸ h.messages
      complete := htake ▸ h.complete }

lemma congr {d d' : Duplex} (h : Sound peer d) (hkeepAlive : d'.keepAliveMs = d.keepAliveMs)
    (hpulled : d'.crypto.pulled = d.crypto.pulled) (hmessages : d'.messages = d.messages)
    (hpending : d'.pendingMessages = d.pendingMessages)
    (hdestroyed : d'.destroyed = false → d.destroyed = false) : Sound peer d' where
  pulled := hpulled ▸ h.pulled
  messages := by
    rw [hmessages, hkeepAlive, hpulled]
    exact h.messages
  complete := by
    intro hlive
    rw [hmessages, hkeepAlive, hpulled, hpending]
    exact h.complete (hdestroyed hlive)

lemma destroy {d : Duplex} (h : Sound peer d) (error : Int) : Sound peer (d.destroy error) := by
  unfold Duplex.destroy
  split_ifs
  · exact h
  · exact h.congr rfl rfl rfl rfl fun hfalse => absurd hfalse (by simp)

lemma maybeFireConnect {d : Duplex} (h : Sound peer d) : Sound peer d.maybeFireConnect := by
  rcases maybeFireConnect_cases d with ⟨heq, -⟩ | ⟨-, -, heq⟩
  · rwa [heq]
  · rw [heq]
    cases hdestroyed : d.destroyed with
    | true =>
      exact
        { pulled := h.pulled
          messages := by simpa using h.messages
          complete := fun hfalse => absurd hfalse (by simp) }
    | false =>
      have hall := h.complete hdestroyed
      exact
        { pulled := h.pulled
          messages := by simp [hall]
          complete := fun _ => by simp [hall] }

lemma next {d d' : Duplex} (h : Sound peer d) (hlive : d.destroyed = false) {pt : List UInt8}
    (hnext : peer.pushed[d.crypto.pulled]? = some pt) (hkeepAlive : d'.keepAliveMs = d.keepAliveMs)
    (hpulled : d'.crypto.pulled = d.crypto.pulled + 1)
    (hall : d'.messages ++ d'.pendingMessages =
      d.messages ++ d.pendingMessages ++ visible d.keepAliveMs [pt]) : Sound peer d' := by
  have hlt : d.crypto.pulled < peer.pushed.length := (List.getElem?_eq_some_iff.1 hnext).1
  have htake : peer.pushed.take (d.crypto.pulled + 1) = peer.pushed.take d.crypto.pulled ++ [pt] := by
    rw [List.take_add_one, hnext]
    rfl
  have hcomplete : d'.messages ++ d'.pendingMessages =
      visible d'.keepAliveMs (peer.pushed.take d'.crypto.pulled) := by
    rw [hall, h.complete hlive, hkeepAlive, hpulled, htake, visible_append]
  exact
    { pulled := by omega
      messages := ⟨_, hcomplete⟩
      complete := fun _ => hcomplete }

/-- **A frame**: the ideal secretstream gives nothing but the next message. -/
lemma handleFrame {d : Duplex} (h : Sound peer d) (hwf : d.Wf L) (hstarted : d.started = true)
    (hlive : d.destroyed = false) (msg : List UInt8) : Sound peer (d.handleFrame L peer msg) := by
  rcases @handleFrame_cases L peer d msg with
    ⟨-, -, error, heq⟩ | ⟨hreceived, crypto, hheader, heq⟩ | ⟨-, crypto, plain, hdecrypt, hrest⟩
  · rw [heq]
    have hmsg : Sound peer { d with handled := d.handled ++ [msg] } := h.congr rfl rfl rfl rfl id
    exact hmsg.destroy error
  · rw [heq]
    obtain ⟨header, -, rfl⟩ := Crypto.receiveHeader_eq_some.1 hheader
    have hpull : d.crypto.pull = none := by
      have := hwf.pull
      rwa [hreceived, Option.isSome_eq_false_iff, Option.isNone_iff_eq_none] at this
    refine Sound.maybeFireConnect (h.congr rfl ?_ rfl rfl id)
    simp [Crypto.pulled, hpull]
  · rcases Crypto.decrypt_cases hdecrypt with ⟨rfl, rfl⟩ | ⟨p, p', pt, hp, hpull, rfl, rfl⟩
    · rcases hrest with ⟨-, heq⟩ | ⟨pt, hnone, -⟩
      · rw [heq]
        exact h.congr rfl rfl rfl rfl id
      · cases hnone
    · obtain ⟨-, -, hnext, -, rfl⟩ := PullState.pull_eq_some.1 hpull
      have hpulled : d.crypto.pulled = p.pulled := by simp [Crypto.pulled, hp]
      rw [← hpulled] at hnext
      have hkeepAlive := hwf.keepAlive hstarted
      rcases hrest with ⟨hnone, heq⟩ | ⟨pt', hsome, hdeliver⟩
      · -- a keepalive
        obtain ⟨rfl, hpos⟩ : pt = [] ∧ d.crypto.keepAliveMs > 0 := by
          by_contra hnot
          simp [if_neg hnot] at hnone
        rw [heq]
        rw [hkeepAlive] at hpos
        refine h.next hlive hnext rfl (congrArg (· + 1) hpulled.symm) ?_
        simp [visible, hpos]
      · obtain ⟨hshown, rfl⟩ : ¬ (pt = [] ∧ d.crypto.keepAliveMs > 0) ∧ pt = pt' := by
          split_ifs at hsome with hempty
          exact ⟨hempty, Option.some.inj hsome⟩
        have hvisible : visible d.keepAliveMs [pt] = [pt] := by
          rw [hkeepAlive] at hshown
          unfold visible
          split_ifs with hpos
          · simpa using fun hnil => hshown ⟨hnil, hpos⟩
          · rfl
        rcases hdeliver with ⟨hconnected, heq⟩ | ⟨-, heq⟩
        · rw [heq]
          refine h.next hlive hnext rfl (congrArg (· + 1) hpulled.symm) ?_
          simp [hwf.pending hconnected, hvisible]
        · have hqueued : Sound peer
              { d with
                handled := d.handled ++ [msg]
                crypto := { d.crypto with pull := some { p with pulled := p.pulled + 1 } }
                pendingMessages := d.pendingMessages ++ [pt] } := by
            refine h.next hlive hnext rfl (congrArg (· + 1) hpulled.symm) ?_
            simp [hvisible]
          rw [heq]
          split_ifs
          · exact hqueued.destroy _
          · exact hqueued

lemma processIncomingBytes {d : Duplex} (h : Sound peer d) (hwf : d.Wf L)
    (hstarted : d.started = true) (data : List UInt8) :
    Sound peer (d.processIncomingBytes L peer data) := by
  unfold Duplex.processIncomingBytes
  split_ifs
  · exact h
  · have hbuffer : (d.buffer data).Wf L ∧ (d.buffer data).started = true ∧ Sound peer (d.buffer data) :=
      ⟨{ hwf with }, hstarted, h.congr rfl rfl rfl rfl id⟩
    refine (drain_induction (P := fun d => d.Wf L ∧ d.started = true ∧ Sound peer d) ?_ ?_ ?_
      hbuffer).2.2
    · rintro d' bytes ⟨hwf', hs, h'⟩
      exact ⟨{ hwf' with }, hs, h'.congr rfl rfl rfl rfl id⟩
    · rintro d' msg hlive ⟨hwf', hs, h'⟩
      exact ⟨hwf'.handleFrame hs msg, (kept_handleFrame d' msg).started.trans hs,
        h'.handleFrame hwf' hs hlive msg⟩
    · rintro d' error ⟨hwf', hs, h'⟩
      exact ⟨hwf'.destroy error, (kept_destroy d' error).started.trans hs, h'.destroy error⟩

lemma write {d : Duplex} (h : Sound peer d) (hwf : d.Wf L) (data : List UInt8) :
    Sound peer (d.write L data).1 := by
  rcases hwf.write_cases data with ⟨rc, -, heq⟩ | ⟨-, -, -, -, heq⟩
  · rwa [heq]
  · rw [heq]
    exact h.congr rfl rfl rfl rfl id

/-- **Every input**, whatever the bytes are. -/
theorem step {d : Duplex} (h : Sound peer d) (hwf : d.Wf L) (i : Input) :
    Sound peer (d.step L peer i) := by
  cases i with
  | start =>
    rcases hwf.start_cases with heq | ⟨-, -, heq⟩
    · simpa only [Duplex.step, heq] using h
    · simp only [Duplex.step, heq]
      exact h.congr rfl rfl rfl rfl id
  | headerAck status =>
    simp only [Duplex.step, Duplex.headerAck]
    split_ifs
    · exact Sound.maybeFireConnect (h.congr rfl rfl rfl rfl id)
    · exact h.destroy status
    · exact h
  | read data =>
    simp only [Duplex.step, reads]
    split_ifs with hstarted
    · exact h.processIncomingBytes hwf hstarted data
    · simpa [Duplex.processIncomingBytes] using h
  | write data => exact h.write hwf data
  | keepAlive =>
    simp only [Duplex.step, writes]
    split_ifs
    · exact h.write hwf []
    · exact h
  | «end» =>
    simp only [Duplex.step]
    split_ifs
    · exact h
    · exact h.congr rfl rfl rfl rfl id
  | destroy error => exact h.destroy error

end Sound

/-! ## Frames of the peer -/

/-- The frames handled so far were the first ones of the peer, whose other end this is. -/
structure Tracks (e d : Duplex) : Prop where
  rxKey : d.crypto.rxKey = e.crypto.push.key
  remoteId : d.crypto.remoteId = e.crypto.localId
  first : d.handled = [] → d.headerReceived = false
  /-- The first frame was the header, and each later one a message. -/
  later : d.handled ≠ [] → ∃ p, d.crypto.pull = some p ∧ p.key = e.crypto.push.key ∧
    p.header = e.crypto.push.header ∧ p.pulled + 1 = d.handled.length

/-- There is room for the first `n` messages of the peer: they may be delivered, or few of them wait. -/
def Room (e d : Duplex) (n : ℕ) : Prop :=
  d.headerSent = true ∨ (visible d.keepAliveMs (e.crypto.push.pushed.take n)).length ≤ maxPending

@[simp] lemma maybeFireConnect_destroyed (d : Duplex) :
    d.maybeFireConnect.destroyed = d.destroyed := by
  rcases maybeFireConnect_cases d with ⟨heq, -⟩ | ⟨-, -, heq⟩ <;> rw [heq]

@[simp] lemma maybeFireConnect_headerReceived (d : Duplex) :
    d.maybeFireConnect.headerReceived = d.headerReceived := by
  rcases maybeFireConnect_cases d with ⟨heq, -⟩ | ⟨-, -, heq⟩ <;> rw [heq]

@[simp] lemma maybeFireConnect_crypto (d : Duplex) : d.maybeFireConnect.crypto = d.crypto := by
  rcases maybeFireConnect_cases d with ⟨heq, -⟩ | ⟨-, -, heq⟩ <;> rw [heq]

@[simp] lemma destroy_crypto (d : Duplex) (error : Int) : (d.destroy error).crypto = d.crypto := by
  unfold destroy; split <;> rfl

@[simp] lemma destroy_headerReceived (d : Duplex) (error : Int) :
    (d.destroy error).headerReceived = d.headerReceived := by
  unfold destroy; split <;> rfl

lemma Tracks.congr {e d d' : Duplex} (h : Tracks e d) (hcrypto : d'.crypto.pull = d.crypto.pull)
    (hrxKey : d'.crypto.rxKey = d.crypto.rxKey) (hremoteId : d'.crypto.remoteId = d.crypto.remoteId)
    (hhandled : d'.handled = d.handled) (hreceived : d'.headerReceived = d.headerReceived) :
    Tracks e d' where
  rxKey := hrxKey.trans h.rxKey
  remoteId := hremoteId.trans h.remoteId
  first := by
    rw [hhandled, hreceived]
    exact h.first
  later := by
    rw [hhandled, hcrypto]
    exact h.later

lemma Tracks.destroy {e d : Duplex} (h : Tracks e d) (error : Int) : Tracks e (d.destroy error) :=
  h.congr (by simp) (by simp) (by simp) (by simp) (by simp)

lemma Wf.length_pending {e d : Duplex} (hwf : d.Wf L) (hlive : d.destroyed = false)
    (hstarted : d.started = true) (hsound : Sound e.crypto.push d) (hconnected : d.connected = false)
    {data : List UInt8} (hdata : e.crypto.push.pushed[d.crypto.pulled]? = some data)
    (hshown : ¬ (data = [] ∧ d.crypto.keepAliveMs > 0)) :
    (visible d.keepAliveMs (e.crypto.push.pushed.take (d.crypto.pulled + 1))).length =
      d.pendingMessages.length + 1 := by
  have htake : e.crypto.push.pushed.take (d.crypto.pulled + 1) =
      e.crypto.push.pushed.take d.crypto.pulled ++ [data] := by
    rw [List.take_add_one, hdata]
    rfl
  have hvisible : visible d.keepAliveMs [data] = [data] := by
    rw [← hwf.keepAlive hstarted]
    unfold visible
    split_ifs with hpos
    · simpa using fun hnil => hshown ⟨hnil, hpos⟩
    · rfl
  have hall := hsound.complete hlive
  rw [hwf.messages hconnected, List.nil_append] at hall
  rw [htake, visible_append, hvisible, ← hall, List.length_append, List.length_singleton]

/-- **The next frame of the peer** does not destroy the stream, if there is room for its message. -/
theorem Tracks.handleFrame {e d : Duplex} (h : Tracks e d) (hlive : d.destroyed = false)
    (hwf : d.Wf L) (hstarted : d.started = true) (hsound : Sound e.crypto.push d) {msg : List UInt8}
    (hmsg : (e.bodies L)[d.handled.length]? = some msg) :
    Tracks e (d.handleFrame L e.crypto.push msg) ∧
      (Room e d d.handled.length → (d.handleFrame L e.crypto.push msg).destroyed = false) := by
  have hstartedPeer : e.started = true := by
    by_contra hnot
    simp [bodies, hnot] at hmsg
  simp only [bodies, hstartedPeer, if_true] at hmsg
  rcases Nat.eq_zero_or_pos d.handled.length with hzero | hpos
  · -- the header
    rw [hzero] at hmsg
    obtain rfl : e.crypto.idHeader = msg := by simpa using hmsg
    have hnil : d.handled = [] := List.length_eq_zero_iff.1 hzero
    have hheader : d.crypto.receiveHeader e.crypto.idHeader =
        some { d.crypto with
          pull := some { key := d.crypto.rxKey, header := e.crypto.push.header } } :=
      Crypto.receiveHeader_eq_some.2
        ⟨e.crypto.push.header, by rw [Crypto.idHeader, h.remoteId], rfl⟩
    have heq : d.handleFrame L e.crypto.push e.crypto.idHeader =
        { d with
          handled := d.handled ++ [e.crypto.idHeader]
          crypto := { d.crypto with
            pull := some { key := d.crypto.rxKey, header := e.crypto.push.header } }
          headerReceived := true }.maybeFireConnect := by
      simp [Duplex.handleFrame, h.first hnil, Crypto.length_idHeader, hheader]
    rw [heq]
    refine ⟨?_, fun _ => by simpa using hlive⟩
    exact
      { rxKey := by simpa using h.rxKey
        remoteId := by simpa using h.remoteId
        first := by simp
        later := fun _ => ⟨_, by simp; rfl, h.rxKey, rfl, by simp [hnil]⟩ }
  · -- a message
    obtain ⟨p, hp, hkey, hheader, hpulled⟩ := h.later (List.length_pos_iff.1 hpos)
    have hreceived : d.headerReceived = true := by rw [← hwf.pull, hp]; rfl
    rw [← hpulled, List.getElem?_cons_succ, PushState.getElem?_ciphertexts] at hmsg
    obtain ⟨data, hdata, hmsg⟩ := Option.map_eq_some_iff.1 hmsg
    have hready : d.crypto.isReady = true := by
      rw [Crypto.isReady, hwf.cryptoSent, hstarted, hp]
      rfl
    have hdecrypt := Crypto.decrypt_eq (L := L) hready hp
      (PullState.pull_eq_some.2 ⟨hkey, hheader, hdata, hmsg, rfl⟩)
    have hlater : ∀ {d' : Duplex}, d'.handled = d.handled ++ [msg] →
        d'.crypto = { d.crypto with pull := some { p with pulled := p.pulled + 1 } } →
        Tracks e d' := by
      intro d' hhandled hcrypto
      exact
        { rxKey := by rw [hcrypto]; exact h.rxKey
          remoteId := by rw [hcrypto]; exact h.remoteId
          first := by simp [hhandled]
          later := fun _ => ⟨{ p with pulled := p.pulled + 1 }, by rw [hcrypto], hkey, hheader,
            by simp [hhandled, hpulled]⟩ }
    rcases @handleFrame_cases L e.crypto.push d msg with
      ⟨hnot, -⟩ | ⟨hnot, -⟩ | ⟨-, crypto, plain, hsame, hrest⟩
    · exact absurd (hreceived.symm.trans hnot) (by simp)
    · exact absurd (hreceived.symm.trans hnot) (by simp)
    · rw [hdecrypt, Prod.mk.injEq] at hsame
      obtain ⟨rfl, rfl⟩ := hsame
      rcases hrest with ⟨-, heq⟩ | ⟨pt, hplain, ⟨-, heq⟩ | ⟨hconnected, heq⟩⟩
      · rw [heq]
        exact ⟨hlater rfl rfl, fun _ => hlive⟩
      · rw [heq]
        exact ⟨hlater rfl rfl, fun _ => hlive⟩
      · rw [heq]
        refine ⟨?_, fun hroom => ?_⟩
        · split_ifs
          · exact Tracks.destroy (hlater rfl rfl) _
          · exact hlater rfl rfl
        · -- the header was not acknowledged yet, and what waits is what has arrived
          have hunacked : ¬ d.headerSent = true := fun hsent =>
            absurd ((hwf.prompt hsent hreceived).symm.trans hconnected) (by simp)
          have hroom := hroom.resolve_left hunacked
          have hshown : ¬ (data = [] ∧ d.crypto.keepAliveMs > 0) := by
            intro hempty
            simp [if_pos hempty] at hplain
          have hindex : p.pulled = d.crypto.pulled := by simp [Crypto.pulled, hp]
          rw [hindex] at hdata
          rw [← hpulled, hindex,
            hwf.length_pending hlive hstarted hsound hconnected hdata hshown] at hroom
          rw [if_neg (by omega)]
          exact hlive

/-- **Frames of the peer** do not destroy the stream, if there is room for their messages. -/
theorem Tracks.drain {e d : Duplex} (h : Tracks e d) (hlive : d.destroyed = false) (he : e.Wf L)
    (hwf : d.Wf L) (hstarted : d.started = true) (hsound : Sound e.crypto.push d)
    {more : List UInt8}
    (hbytes : d.recvBuf ++ more = (((e.bodies L).drop d.handled.length).map frame).flatten) :
    Tracks e (d.drain L e.crypto.push) ∧
      (Room e d (d.handled.length + (Framing.split nextFrame d.recvBuf).1.length - 1) →
        (d.drain L e.crypto.push).destroyed = false) := by
  have hvalid : ∀ body ∈ (e.bodies L).drop d.handled.length, ValidBody body :=
    fun body hbody => he.validBody body (List.mem_of_mem_drop hbody)
  induction hn : d.recvBuf.length using Nat.strong_induction_on generalizing d with
  | _ n ih =>
    cases hnext : nextFrame d.recvBuf with
    | none =>
      rw [drain_more (parseFrame_eq_more hvalid hnext hbytes)]
      exact ⟨h, fun _ => hlive⟩
    | some r =>
      obtain ⟨body, rest⟩ := r
      have hlt := nextFrame_codec.length_lt hnext
      have hwhole := nextFrame_codec.next_append hnext more
      rw [hbytes] at hwhole
      cases hdrop : (e.bodies L).drop d.handled.length with
      | nil =>
        rw [hdrop, List.map_nil, List.flatten_nil, nextFrame_codec.next_nil] at hwhole
        cases hwhole
      | cons first later =>
        rw [hdrop] at hvalid hwhole
        rw [List.map_cons, List.flatten_cons,
          nextFrame_codec.accept (hvalid first (by simp)) _] at hwhole
        obtain ⟨rfl, hrest⟩ : first = body ∧ (later.map frame).flatten = rest ++ more := by
          simpa using hwhole
        have hbody : (e.bodies L)[d.handled.length]? = some first := by
          have := congrArg List.head? hdrop
          rwa [List.head?_drop, List.head?_cons] at this
        have hlater : (e.bodies L).drop (d.handled.length + 1) = later := by
          rw [← List.drop_drop, hdrop]
          rfl
        let d1 : Duplex := { d with recvBuf := rest }
        have hwf1 : d1.Wf L := { hwf with }
        have hsound1 : Sound e.crypto.push d1 := hsound.congr rfl rfl rfl rfl id
        have hkept : Kept d1 (d1.handleFrame L e.crypto.push first) := kept_handleFrame d1 first
        have hcount : (Framing.split nextFrame d.recvBuf).1.length =
            (Framing.split nextFrame rest).1.length + 1 := by
          rw [nextFrame_codec.split_some hnext, List.length_cons]
        have hhandled : (d1.handleFrame L e.crypto.push first).handled.length =
            d.handled.length + 1 := by
          rw [handleFrame_handled, List.length_append, List.length_singleton]
        obtain ⟨htracks, hlive1⟩ := Tracks.handleFrame (d := d1) (h.congr rfl rfl rfl rfl rfl) hlive
          hwf1 hstarted hsound1 hbody
        rw [drain_frame hlive (nextFrame_eq_some.1 hnext), hcount]
        have hroom1 : Room e d (d.handled.length + ((Framing.split nextFrame rest).1.length + 1) - 1) →
            Room e d1 d1.handled.length := by
          intro hroom
          have hle : d.handled.length ≤
              d.handled.length + ((Framing.split nextFrame rest).1.length + 1) - 1 := by omega
          exact hroom.imp id fun hroom =>
            (visible_isPrefix (List.take_prefix_take_left hle)).length_le.trans hroom
        cases hdestroyed : (d1.handleFrame L e.crypto.push first).destroyed with
        | true =>
          rw [drain_destroyed hdestroyed]
          exact ⟨htracks, fun hroom => hlive1 (hroom1 hroom)⟩
        | false =>
          obtain ⟨htracks', hlive'⟩ := ih rest.length (hn ▸ hlt) htracks hdestroyed
            (hwf1.handleFrame hstarted first) (hkept.started.trans hstarted)
            (hsound1.handleFrame hwf1 hstarted hlive first)
            (by rw [handleFrame_recvBuf, hhandled, hlater]; exact hrest.symm)
            (by rw [hhandled, hlater]; exact fun later hmem => hvalid later (by simp [hmem]))
            (by rw [handleFrame_recvBuf])
          refine ⟨htracks', fun hroom => hlive' ?_⟩
          unfold Room at hroom ⊢
          rw [handleFrame_recvBuf, hhandled, hkept.headerSent, hkept.keepAlive]
          rwa [Nat.add_right_comm, Nat.add_assoc]

end Duplex

end HyperDHT.SecretStream
