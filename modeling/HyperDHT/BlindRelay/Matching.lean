import HyperDHT.BlindRelay.Pairings

/-!
# Matching requests

Which requests are matched, and what the peers are told. Each wiring of two streams is recorded with the requests
the streams were made for.

## Main definitions

* `BlindRelay.Wire`, `BlindRelay.wiresOf` — the wirings among some calls.
* `BlindRelay.sendsOf` — the confirmations among them.
* `BlindRelay.Matched` — what is wired belongs together, and what is sent says so.
* `BlindRelay.Wired` — the invariant.
* `BlindRelay.Quiet` — a change that accepts, wires and confirms nothing.

## Main results

* `BlindRelay.wired_step` — every step keeps the invariant, and confirms what it wires.
* `BlindRelay.matched_run` — what is wired after a run belongs together.
-/

set_option autoImplicit false

namespace HyperDHT.BlindRelay

open RelayServer

/-! ## Wirings and confirmations -/

/-- Two streams that were told to relay to each other; whether they do. -/
structure Wire where
  token : Token
  a : RelayEnd
  b : RelayEnd
  ok : Bool

/-- The wiring a call stands for. -/
def RelayCall.wire? : RelayCall → Option Wire
  | .relayTo token a b ok => some ⟨token, a, b, ok⟩
  | _ => none

/-- The wirings among some calls, in order. -/
def wiresOf (calls : List RelayCall) : List Wire := calls.filterMap RelayCall.wire?

/-- A confirmation: the session it is sent on, the message, and the stream it is about. -/
structure Confirmation where
  session : SessionId
  message : PairMessage
  stream : RelayStream

/-- The confirmation a call stands for. -/
def RelayCall.confirmation? : RelayCall → Option Confirmation
  | .send session message stream => some ⟨session, message, stream⟩
  | _ => none

/-- The confirmations among some calls, in order. -/
def sendsOf (calls : List RelayCall) : List Confirmation := calls.filterMap RelayCall.confirmation?

/-- The confirmation for one end of a wiring: it goes to the requester, with the token, the role of the requester
and the id of the stream that was made for it. -/
def RelayEnd.confirmed (e : RelayEnd) (token : Token) : Confirmation where
  session := e.link.session
  message := { isInitiator := e.link.isInitiator, token := token, id := e.stream.localId }
  stream := e.stream

/-- The two confirmations of a wiring, and none if it failed. -/
def Wire.confirmations (w : Wire) : List Confirmation :=
  if w.ok then [w.a.confirmed w.token, w.b.confirmed w.token] else []

/-- The requests that were wired. -/
def requestsOf (calls : List RelayCall) : List ℕ :=
  (wiresOf calls).flatMap fun w => [w.a.link.request, w.b.link.request]

/-- The streams that were wired. -/
def streamsOf (calls : List RelayCall) : List ℕ :=
  (wiresOf calls).flatMap fun w => [w.a.stream.ptr, w.b.stream.ptr]

/-- **What is wired belongs together**: the two ends of a wiring are accepted requests with its token, the second
one that of the initiator; no accepted request and no stream is wired twice; and exactly the two confirmations of
each wiring that succeeded are sent. -/
structure Matched (s : RelayServer) : Prop where
  /-- The number of an accepted request is its place. -/
  numbered : s.accepted.map (·.2.request) = List.range s.accepted.length
  ends : ∀ w ∈ wiresOf s.calls, (w.token, w.a.link) ∈ s.accepted ∧ (w.token, w.b.link) ∈ s.accepted ∧
    w.a.link.isInitiator = false ∧ w.b.link.isInitiator = true
  requests : (requestsOf s.calls).Nodup
  streams : (streamsOf s.calls).Nodup
  sends : sendsOf s.calls = (wiresOf s.calls).flatMap Wire.confirmations

/-- What a session or a stream that ends is called with. -/
def RelayCall.IsEnd : RelayCall → Prop
  | .close _ | .remoteClose _ | .destroyStream _ => True
  | .relayTo .. | .send .. => False

section Calls

variable {calls ends : List RelayCall}

lemma wiresOf_append_ends (h : ∀ call ∈ ends, call.IsEnd) : wiresOf (calls ++ ends) = wiresOf calls := by
  rw [wiresOf, List.filterMap_append, ← wiresOf, List.append_right_eq_self,
    List.filterMap_eq_nil_iff]
  intro call hcall
  have hend := h call hcall
  cases call <;> first | rfl | exact absurd hend id

lemma sendsOf_append_ends (h : ∀ call ∈ ends, call.IsEnd) : sendsOf (calls ++ ends) = sendsOf calls := by
  rw [sendsOf, List.filterMap_append, ← sendsOf, List.append_right_eq_self,
    List.filterMap_eq_nil_iff]
  intro call hcall
  have hend := h call hcall
  cases call <;> first | rfl | exact absurd hend id

end Calls

/-! ## Changes that match nothing -/

/-- The change accepts, wires and confirms nothing, and makes no pairing. -/
structure Quiet (s s' : RelayServer) : Prop where
  accepted : s'.accepted = s.accepted
  nextStream : s.nextStream ≤ s'.nextStream
  calls : ∃ ends : List RelayCall, s'.calls = s.calls ++ ends ∧ ∀ call ∈ ends, call.IsEnd
  lookup : ∀ k pair, s'.pairings.lookup k = some pair → s.pairings.lookup k = some pair

section Quiet

variable {s s' s'' : RelayServer}

lemma Quiet.refl (s : RelayServer) : Quiet s s :=
  ⟨rfl, Nat.le_refl _, ⟨[], by simp, by simp⟩, fun _ _ h => h⟩

lemma Quiet.trans (h : Quiet s s') (h' : Quiet s' s'') : Quiet s s'' := by
  obtain ⟨ends, hcalls, hends⟩ := h.calls
  obtain ⟨ends', hcalls', hends'⟩ := h'.calls
  refine ⟨h'.accepted.trans h.accepted, Nat.le_trans h.nextStream h'.nextStream,
    ⟨ends ++ ends', by rw [hcalls', hcalls, List.append_assoc], fun call hcall => ?_⟩,
    fun k pair hk => h.lookup k pair (h'.lookup k pair hk)⟩
  rcases List.mem_append.1 hcall with hcall | hcall
  · exact hends call hcall
  · exact hends' call hcall

lemma quiet_modifySession (s : RelayServer) (σ : SessionId) (f : RelaySession → RelaySession) :
    Quiet s (s.modifySession σ f) :=
  ⟨rfl, Nat.le_refl _, ⟨[], by simp, by simp⟩, fun _ _ h => h⟩

lemma quiet_log (s : RelayServer) {call : RelayCall} (h : call.IsEnd) : Quiet s (s.log call) :=
  ⟨rfl, Nat.le_refl _, ⟨[call], rfl, by simpa using h⟩, fun _ _ h => h⟩

lemma quiet_makeStreams (s : RelayServer) (n : ℕ) : Quiet s (s.makeStreams n) :=
  ⟨rfl, Nat.le_add_right _ _, ⟨[], by simp, by simp⟩, fun _ _ h => h⟩

lemma quiet_evict (s : RelayServer) : Quiet s s.evict :=
  ⟨rfl, Nat.le_refl _, ⟨[], by simp, by simp⟩, fun k _ h => ((s.lookup_evict k).1 h).1⟩

lemma quiet_removePair (s : RelayServer) (token : Token) : Quiet s (s.removePair token) := by
  refine ⟨rfl, Nat.le_refl _, ⟨[], by simp, by simp⟩, fun k pair hk => ?_⟩
  rw [pairings_removePair] at hk
  rcases eq_or_ne k token with rfl | hne
  · rw [AList.lookup_erase] at hk
    cases hk
  · rwa [AList.lookup_erase_ne hne] at hk

lemma quiet_destroyStream (s : RelayServer) (stream : RelayStream) :
    Quiet s (s.log (.destroyStream stream)) := by
  have hend : (RelayCall.destroyStream stream).IsEnd := trivial
  exact quiet_log s hend

lemma quiet_onClose (s : RelayServer) (σ : SessionId) : Quiet s (s.onClose σ) := by
  refine ⟨rfl, Nat.le_refl _, ⟨_, rfl, fun call hcall => ?_⟩,
    fun k _ hk => ((s.lookup_onClose σ k).1 hk).1⟩
  obtain ⟨entry, -, rfl⟩ := List.mem_map.1 hcall
  trivial

lemma quiet_closeChannel (s : RelayServer) (σ : SessionId) : Quiet s (s.closeChannel σ) := by
  have hclose : (RelayCall.close σ).IsEnd := trivial
  rw [closeChannel]
  split_ifs
  · exact quiet_log s hclose
  · exact (quiet_log s hclose).trans (quiet_onClose _ σ)

lemma quiet_endMaybe (s : RelayServer) (σ : SessionId) : Quiet s (s.endMaybe σ) := by
  rw [endMaybe]
  split_ifs
  · exact quiet_closeChannel s σ
  · exact .refl s

lemma quiet_track (s : RelayServer) (token : Token) (e : RelayEnd) : Quiet s (s.track token e) :=
  (quiet_modifySession s e.link.session _).trans (quiet_endMaybe _ _)

lemma quiet_step (s : RelayServer) (i : ServerInput) (hi : ∀ σ data draw, i ≠ .pair σ data draw) :
    Quiet s (serverStep s i) := by
  cases i with
  | pair σ data draw => exact absurd rfl (hi σ data draw)
  | unpair σ data =>
    rw [serverStep, onUnpair]
    split_ifs
    · exact .refl s
    · have hpending : Quiet s (s.unpairPending σ (decodeUnpair data).token) := by
        rw [unpairPending]
        split_ifs
        · exact ((quiet_modifySession s σ _).trans (quiet_removePair _ _)).trans (quiet_endMaybe _ σ)
        · exact .refl s
      rw [dropStream]
      split
      · exact hpending
      · exact (hpending.trans (quiet_destroyStream _ _)).trans (quiet_modifySession _ σ _)
  | close σ =>
    rw [serverStep, RelayServer.close]
    split_ifs
    · exact .refl s
    · exact quiet_closeChannel s σ
    · exact quiet_modifySession s σ _
  | destroy σ =>
    rw [serverStep, RelayServer.destroy]
    split_ifs
    · exact .refl s
    · exact (quiet_modifySession s σ _).trans (quiet_closeChannel _ σ)
  | remoteClose σ =>
    rw [serverStep, RelayServer.remoteClose]
    split_ifs
    · exact .refl s
    · have hclose : (RelayCall.remoteClose σ).IsEnd := trivial
      exact (quiet_log s hclose).trans (quiet_onClose _ σ)
  | tick elapsed => exact ⟨rfl, Nat.le_refl _, ⟨[], by simp [serverStep], by simp⟩, fun _ _ h => h⟩

end Quiet

/-! ## The invariant -/

/-- What is wired belongs together, and what waits was not wired yet. -/
structure Wired (s : RelayServer) : Prop where
  numbered : s.accepted.map (·.2.request) = List.range s.accepted.length
  ends : ∀ w ∈ wiresOf s.calls, (w.token, w.a.link) ∈ s.accepted ∧ (w.token, w.b.link) ∈ s.accepted ∧
    w.a.link.isInitiator = false ∧ w.b.link.isInitiator = true
  requests : (requestsOf s.calls).Nodup
  streams : (streamsOf s.calls).Nodup
  fresh : ∀ ptr ∈ streamsOf s.calls, ptr < s.nextStream
  waiting : ∀ k pair link, s.pairings.lookup k = some pair → pair.Waits link →
    (k, link) ∈ s.accepted ∧ link.request ∉ requestsOf s.calls

section Wired

variable {s s' : RelayServer} {token : Token}

lemma Wired.eq_of_request (h : Wired s) {x y : Token × Link} (hx : x ∈ s.accepted)
    (hy : y ∈ s.accepted) (hxy : x.2.request = y.2.request) : x = y := by
  have hnodup : (s.accepted.map (·.2.request)).Nodup := h.numbered ▸ List.nodup_range
  exact List.inj_on_of_nodup_map hnodup hx hy hxy

lemma Wired.request_lt (h : Wired s) {x : Token × Link} (hx : x ∈ s.accepted) :
    x.2.request < s.accepted.length := by
  have hin : x.2.request ∈ s.accepted.map (·.2.request) := List.mem_map_of_mem hx
  rwa [h.numbered, List.mem_range] at hin

lemma Wired.lt_of_mem_requestsOf (h : Wired s) {request : ℕ} (hin : request ∈ requestsOf s.calls) :
    request < s.accepted.length := by
  obtain ⟨w, hw, hrequest⟩ := List.mem_flatMap.1 hin
  obtain ⟨ha, hb, -⟩ := h.ends w hw
  rcases List.mem_pair.1 hrequest with rfl | rfl
  · exact h.request_lt ha
  · exact h.request_lt hb

lemma Wired.quiet (h : Wired s) (hquiet : Quiet s s') : Wired s' := by
  obtain ⟨ends, hcalls, hends⟩ := hquiet.calls
  have hwires : wiresOf s'.calls = wiresOf s.calls := hcalls ▸ wiresOf_append_ends hends
  have hrequests : requestsOf s'.calls = requestsOf s.calls := by rw [requestsOf, hwires, requestsOf]
  have hstreams : streamsOf s'.calls = streamsOf s.calls := by rw [streamsOf, hwires, streamsOf]
  refine ⟨?_, ?_, hrequests ▸ h.requests, hstreams ▸ h.streams, fun ptr hptr => ?_,
    fun k pair link hpair hwaits => ?_⟩
  · rw [hquiet.accepted]
    exact h.numbered
  · rw [hquiet.accepted, hwires]
    exact h.ends
  · exact Nat.lt_of_lt_of_le (h.fresh ptr (hstreams ▸ hptr)) hquiet.nextStream
  · rw [hquiet.accepted, hrequests]
    exact h.waiting k pair link (hquiet.lookup k pair hpair) hwaits

lemma Wired.confirm (h : Wired s) (token : Token) (e : RelayEnd) : Wired (s.confirm token e) := by
  have hwires : wiresOf (s.confirm token e).calls = wiresOf s.calls := by
    simp [RelayServer.confirm, wiresOf, RelayCall.wire?]
  have hrequests : requestsOf (s.confirm token e).calls = requestsOf s.calls := by
    rw [requestsOf, hwires, requestsOf]
  have hstreams : streamsOf (s.confirm token e).calls = streamsOf s.calls := by
    rw [streamsOf, hwires, streamsOf]
  exact ⟨h.numbered, hwires ▸ h.ends, hrequests ▸ h.requests, hstreams ▸ h.streams,
    hstreams ▸ h.fresh, hrequests ▸ h.waiting⟩

lemma Wired.enter (h : Wired s) {pair : RelayPair} {link : Link}
    (hrequest : link.request = s.accepted.length)
    (hwaits : ∀ other, (pair.fill link).Waits other → other = link) : Wired (s.enter pair link) := by
  refine ⟨?_, fun w hw => ?_, h.requests, h.streams, h.fresh, fun k pair' link' hpair hlink => ?_⟩
  · simp [RelayServer.enter, h.numbered, List.range_succ, hrequest]
  · obtain ⟨ha, hb, hroles⟩ := h.ends w hw
    exact ⟨List.mem_append_left _ ha, List.mem_append_left _ hb, hroles⟩
  · rcases eq_or_ne k pair.token with rfl | hne
    · rw [RelayServer.enter, AList.lookup_insert] at hpair
      obtain rfl := hwaits link' (Option.some.inj hpair ▸ hlink)
      refine ⟨List.mem_append_right _ (List.mem_singleton_self _), fun hin => ?_⟩
      exact Nat.lt_irrefl _ (hrequest ▸ h.lt_of_mem_requestsOf hin)
    · rw [RelayServer.enter, AList.lookup_insert_ne hne] at hpair
      obtain ⟨hin, hnot⟩ := h.waiting k pair' link' hpair hlink
      exact ⟨List.mem_append_left _ hin, hnot⟩

lemma Wired.relayTo (h : Wired s) {a b : RelayEnd} (ok : Bool) (ha : (token, a.link) ∈ s.accepted)
    (hb : (token, b.link) ∈ s.accepted) (hroleA : a.link.isInitiator = false)
    (hroleB : b.link.isInitiator = true) (hnewA : a.link.request ∉ requestsOf s.calls)
    (hnewB : b.link.request ∉ requestsOf s.calls) (hnone : s.pairings.lookup token = none)
    (hptrA : a.stream.ptr = s.nextStream) (hptrB : b.stream.ptr = s.nextStream + 1) :
    Wired ((s.makeStreams 2).log (.relayTo token a b ok)) := by
  have hwires : wiresOf (s.calls ++ [.relayTo token a b ok]) =
      wiresOf s.calls ++ [⟨token, a, b, ok⟩] := List.filterMap_append
  have hrequests : requestsOf (s.calls ++ [.relayTo token a b ok]) =
      requestsOf s.calls ++ [a.link.request, b.link.request] := by
    simp [requestsOf, hwires]
  have hstreams : streamsOf (s.calls ++ [.relayTo token a b ok]) =
      streamsOf s.calls ++ [a.stream.ptr, b.stream.ptr] := by
    simp [streamsOf, hwires]
  have hne : a.link.request ≠ b.link.request := by
    intro heq
    have hlink := congrArg (·.2.isInitiator) (h.eq_of_request ha hb heq)
    simp [hroleA, hroleB] at hlink
  refine ⟨h.numbered, ?_, ?_, ?_, ?_, ?_⟩ <;>
    simp only [calls_log, calls_makeStreams, accepted_log, accepted_makeStreams, nextStream_log,
      nextStream_makeStreams, pairings_log, pairings_makeStreams]
  · intro w hw
    rw [hwires] at hw
    rcases List.mem_append.1 hw with hw | hw
    · exact h.ends w hw
    · obtain rfl := List.mem_singleton.1 hw
      exact ⟨ha, hb, hroleA, hroleB⟩
  · rw [hrequests]
    refine h.requests.append (by simpa using hne) ?_
    simp [hnewA, hnewB]
  · rw [hstreams]
    refine h.streams.append (by simp [hptrA, hptrB]) ?_
    simp only [List.disjoint_cons_right, List.disjoint_nil_right, and_true, hptrA, hptrB]
    exact ⟨fun hin => Nat.lt_irrefl _ (h.fresh _ hin),
      fun hin => Nat.not_succ_lt_self (h.fresh _ hin)⟩
  · intro ptr hptr
    rw [hstreams] at hptr
    rcases List.mem_append.1 hptr with hptr | hptr
    · exact Nat.lt_add_right 2 (h.fresh ptr hptr)
    · rcases List.mem_pair.1 hptr with rfl | rfl <;> omega
  · intro k pair link hpair hwaits
    obtain ⟨hin, hnot⟩ := h.waiting k pair link hpair hwaits
    have hk : k ≠ token := by
      rintro rfl
      rw [hnone] at hpair
      cases hpair
    have hother : ∀ e : RelayEnd, (token, e.link) ∈ s.accepted → link.request ≠ e.link.request :=
      fun e he heq => hk (congrArg Prod.fst (h.eq_of_request hin he heq))
    rw [hrequests]
    simp [hin, hnot, hother a ha, hother b hb]

end Wired

/-- Exactly the confirmations of the wirings that succeeded were sent. -/
def Confirmed (calls : List RelayCall) : Prop :=
  sendsOf calls = (wiresOf calls).flatMap Wire.confirmations

section Confirmed

variable {s s' : RelayServer} {calls : List RelayCall} {token : Token} {a b : RelayEnd}

lemma Confirmed.quiet (h : Confirmed s.calls) (hquiet : Quiet s s') : Confirmed s'.calls := by
  obtain ⟨ends, hcalls, hends⟩ := hquiet.calls
  rw [Confirmed, hcalls, sendsOf_append_ends hends, wiresOf_append_ends hends]
  exact h

lemma Confirmed.fail (h : Confirmed calls) : Confirmed (calls ++ [.relayTo token a b false]) := by
  have hsends : sendsOf (calls ++ [.relayTo token a b false]) = sendsOf calls := by
    simp [sendsOf, RelayCall.confirmation?]
  have hwires : wiresOf (calls ++ [.relayTo token a b false]) =
      wiresOf calls ++ [⟨token, a, b, false⟩] := List.filterMap_append
  rw [Confirmed, hsends, hwires, List.flatMap_append, ← h]
  simp [Wire.confirmations]

lemma Confirmed.wire (h : Confirmed calls) {ends : List RelayCall}
    (hends : ∀ call ∈ ends, call.IsEnd) :
    Confirmed (calls ++ [.relayTo token a b true] ++ ends ++
      [.send a.link.session (a.confirmation token) a.stream] ++
      [.send b.link.session (b.confirmation token) b.stream]) := by
  have hsends : sendsOf (calls ++ [.relayTo token a b true] ++ ends ++
      [.send a.link.session (a.confirmation token) a.stream] ++
      [.send b.link.session (b.confirmation token) b.stream]) =
      sendsOf calls ++ [a.confirmed token, b.confirmed token] := by
    have hrelay : sendsOf (calls ++ [.relayTo token a b true]) = sendsOf calls := by
      simp [sendsOf, RelayCall.confirmation?]
    rw [sendsOf, List.filterMap_append, List.filterMap_append, ← sendsOf, sendsOf_append_ends hends,
      hrelay, List.append_assoc]
    rfl
  have hwires : wiresOf (calls ++ [.relayTo token a b true] ++ ends ++
      [.send a.link.session (a.confirmation token) a.stream] ++
      [.send b.link.session (b.confirmation token) b.stream]) =
      wiresOf calls ++ [⟨token, a, b, true⟩] := by
    have hrelay : wiresOf (calls ++ [.relayTo token a b true]) =
        wiresOf calls ++ [⟨token, a, b, true⟩] := List.filterMap_append
    rw [wiresOf, List.filterMap_append, List.filterMap_append, ← wiresOf, wiresOf_append_ends hends,
      hrelay]
    simp [RelayCall.wire?]
  rw [Confirmed, hsends, hwires, List.flatMap_append, ← h]
  simp [Wire.confirmations]

end Confirmed

/-! ## The steps -/

section Steps

variable {s : RelayServer}

lemma RelayPair.Waits.not_waits_fill {pair : RelayPair} {link other : Link} (h : pair.Waits other)
    (hrole : link.isInitiator = !other.isInitiator) (link' : Link) : ¬ (pair.fill link).Waits link' := by
  intro hwaits
  obtain ⟨hself, hnot⟩ := h.fill hrole
  have hnone := hwaits.links_not
  cases hother : other.isInitiator <;> cases hlink : link'.isInitiator <;> simp_all

lemma Wired.complete {pair : RelayPair} {responder initiator : Link}
    (h : Wired (s.removePair pair.token)) (hconfirmed : Confirmed s.calls)
    (hresponder : pair.links false = some responder) (hinitiator : pair.links true = some initiator)
    (hroleR : responder.isInitiator = false) (hroleI : initiator.isInitiator = true)
    (hinR : (pair.token, responder) ∈ s.accepted) (hinI : (pair.token, initiator) ∈ s.accepted)
    (hnewR : responder.request ∉ requestsOf s.calls) (hnewI : initiator.request ∉ requestsOf s.calls)
    (draw : Draw) : Wired (s.complete pair draw) ∧ Confirmed (s.complete pair draw).calls := by
  have hnone : (s.removePair pair.token).pairings.lookup pair.token = none := by simp
  rcases s.complete_cases hresponder hinitiator draw with
    ⟨-, n, heq⟩ | ⟨firstId, secondId, a, b, ha, hb, ⟨-, heq⟩ | ⟨-, heq⟩⟩ <;> rw [heq]
  · exact ⟨h.quiet (quiet_makeStreams _ n), hconfirmed⟩
  · have hwired := h.relayTo (a := a) (b := b) false (ha ▸ hinR) (hb ▸ hinI) (ha ▸ hroleR)
      (hb ▸ hroleI) (ha ▸ hnewR) (hb ▸ hnewI) hnone (ha ▸ rfl) (hb ▸ rfl)
    have hquiet := (quiet_destroyStream (((s.removePair pair.token).makeStreams 2).log
      (.relayTo pair.token a b false)) a.stream).trans (quiet_destroyStream _ b.stream)
    exact ⟨hwired.quiet hquiet, Confirmed.quiet (s := ((s.removePair pair.token).makeStreams 2).log
      (.relayTo pair.token a b false)) hconfirmed.fail hquiet⟩
  · have hwired := h.relayTo (a := a) (b := b) true (ha ▸ hinR) (hb ▸ hinI) (ha ▸ hroleR)
      (hb ▸ hroleI) (ha ▸ hnewR) (hb ▸ hnewI) hnone (ha ▸ rfl) (hb ▸ rfl)
    have hquiet := (quiet_track (((s.removePair pair.token).makeStreams 2).log
      (.relayTo pair.token a b true)) pair.token a).trans (quiet_track _ pair.token b)
    obtain ⟨ends, hcalls, hends⟩ := hquiet.calls
    refine ⟨((hwired.quiet hquiet).confirm _ a).confirm _ b, ?_⟩
    rw [wire, RelayServer.confirm, RelayServer.confirm, calls_log, calls_log, hcalls]
    exact hconfirmed.wire hends

/-- Every step keeps the invariant, and confirms what it wires. -/
theorem wired_step (s : RelayServer) (i : ServerInput) (hlinked : Linked s) (h : Wired s)
    (hconfirmed : Confirmed s.calls) :
    Wired (serverStep s i) ∧ Confirmed (serverStep s i).calls := by
  by_cases hpair : ∃ σ data draw, i = .pair σ data draw
  · obtain ⟨σ, data, draw, rfl⟩ := hpair
    have hevict := h.quiet (quiet_evict s)
    rw [serverStep]
    rcases hlinked.onPair_cases σ data draw with ⟨-, heq⟩ | ⟨-, ⟨_, _, -, -, -, heq⟩ | ⟨-, heq⟩ |
      ⟨pair, other, hlookup, hwaits, hrole, heq⟩⟩ <;> rw [heq]
    · exact ⟨h, hconfirmed⟩
    · exact ⟨hevict, hconfirmed⟩
    · refine ⟨hevict.enter rfl fun other hother => ?_, hconfirmed⟩
      exact hother.eq (RelayPair.waits_fill _ _ _)
    · have htoken := hlinked.evict.token _ pair hlookup
      obtain ⟨responder, initiator, hresponder, hinitiator, hroleR, hroleI, hends⟩ :=
        @RelayPair.Waits.ends pair (s.newLink σ (decodePair data)) other hwaits hrole
      have henter : Wired (s.evict.enter pair (s.newLink σ (decodePair data))) :=
        hevict.enter rfl fun link' hlink' => absurd hlink' (hwaits.not_waits_fill hrole link')
      -- the request that waited, and the one that is new
      obtain ⟨hinOther, hnewOther⟩ := hevict.waiting _ pair other hlookup hwaits
      have hinOther' : (pair.token, other) ∈
          (s.evict.enter pair (s.newLink σ (decodePair data))).accepted :=
        List.mem_append_left _ (htoken ▸ hinOther)
      have hinLink : (pair.token, s.newLink σ (decodePair data)) ∈
          (s.evict.enter pair (s.newLink σ (decodePair data))).accepted :=
        List.mem_append_right _ (List.mem_singleton_self _)
      have hnewLink : (s.newLink σ (decodePair data)).request ∉ requestsOf s.calls :=
        fun hin => Nat.lt_irrefl _ (h.lt_of_mem_requestsOf hin)
      have hremoved : Wired ((s.evict.enter pair (s.newLink σ (decodePair data))).removePair
          (pair.fill (s.newLink σ (decodePair data))).token) :=
        henter.quiet (quiet_removePair _ pair.token)
      rcases hends with ⟨rfl, rfl⟩ | ⟨rfl, rfl⟩
      · exact Wired.complete hremoved hconfirmed hresponder hinitiator hroleR hroleI hinOther'
          hinLink hnewOther hnewLink draw
      · exact Wired.complete hremoved hconfirmed hresponder hinitiator hroleR hroleI hinLink
          hinOther' hnewLink hnewOther draw
  · have hquiet := quiet_step s i fun σ data draw hi => hpair ⟨σ, data, draw, hi⟩
    exact ⟨h.quiet hquiet, hconfirmed.quiet hquiet⟩

end Steps

lemma wired_init : Wired {} where
  numbered := rfl
  ends _ h := by simp [wiresOf] at h
  requests := List.nodup_nil
  streams := List.nodup_nil
  fresh _ h := by simp [streamsOf, wiresOf] at h
  waiting _ _ _ h := by simp at h

/-- **Matching is correct**: after every run of the relay, with any number of sessions, two streams that were wired
belong to two accepted requests with the same token, of which exactly the second is that of an initiator; every
accepted request and every stream was wired at most once; and of each wiring that succeeded two confirmations were
sent, one to each requester, with the token, the role of the requester and the id of the stream that was made for
it. -/
theorem matched_run (is : List ServerInput) : Matched (Runs.run serverStep {} is) := by
  have hall := Runs.run_invariant
    (P := fun s => Linked s ∧ Wired s ∧ Confirmed s.calls)
    (fun s i h => ⟨linked_step s i h.1, wired_step s i h.1 h.2.1 h.2.2⟩)
    ⟨linked_init, wired_init, rfl⟩ is
  exact ⟨hall.2.1.numbered, hall.2.1.ends, hall.2.1.requests, hall.2.1.streams, hall.2.2⟩

end HyperDHT.BlindRelay
