import HyperDHT.BlindRelay.Client
import HyperDHT.Lib.Runs

/-!
# The callbacks of a blind-relay client

A client of a relay calls back its user for every request: `on_paired` or `on_error`. When the client is closed or
destroyed, it loops over the requests that are left and calls `on_error` for each, with the map still in place. A
callback may call the client again.

## Main definitions

* `BlindRelay.Sweep`, `BlindRelay.Frame` — a loop over the requests, and what continues when a callback returns.
* `BlindRelay.ClientState`, `BlindRelay.clientStep` — the client as a machine over the calls of its user, the
  returns of the callbacks, and the messages of the relay.
* `BlindRelay.OneOutcome` — every accepted request gets one outcome.
* `BlindRelay.LeavesSweepAlone` — the condition on the steps.

## Main results

* `BlindRelay.sound_step` — what every step that meets the condition keeps.
* `BlindRelay.oneOutcome_of_leavesSweepAlone` — runs of such steps give every accepted request one outcome.
* `BlindRelay.not_oneOutcome_pairAgainRun` — a request that is made while the client closes.

## Design

Between two callbacks the code runs without a break. `stack` holds the functions that wait for a callback to return,
the innermost first; the relay's messages come when there is none. The map is iterated in the order of the list
`requests`, and a new entry comes at a place that the hash table chooses, as it chooses when to rehash. An
iteration is invalidated when its element is erased, and when the table is rehashed or cleared; what happens then is
undefined, and the machine stops. Every request has both callbacks. What is sent is left out.
-/

set_option autoImplicit false

namespace HyperDHT.BlindRelay

/-! ## The machine -/

/-- The error codes. -/
inductive RelayError where
  | channelClosed
  | channelDestroyed
  | alreadyPairing
  | pairingCancelled
  | destroyed
  deriving DecidableEq

/-- A call of `on_paired` or of `on_error`. -/
inductive Outcome where
  | paired (remoteId : UInt32)
  | error (err : RelayError)
  deriving DecidableEq

/-- A loop over the requests. -/
inductive Sweep where
  /-- In `on_close`, called by `Channel::close`. -/
  | localClose
  /-- In `on_close`, called by `Channel::remote_close`. -/
  | remoteClose
  /-- In `destroy`. -/
  | destroy
  deriving DecidableEq

/-- The error the requests get. -/
def Sweep.error : Sweep → RelayError
  | .localClose => .channelClosed
  | .remoteClose => .channelClosed
  | .destroy => .destroyed

/-- What continues when a callback returns. -/
inductive Frame where
  /-- The function that called it has nothing left to do with the requests. -/
  | done
  /-- A loop is at the request with a token. -/
  | sweep (kind : Sweep) (token : Token)
  deriving DecidableEq

/-- A loop that waits for its callback. -/
def Frame.sweep? : Frame → Option (Sweep × Token)
  | .done => none
  | .sweep kind token => some (kind, token)

/-- The client, the functions that wait for a callback to return, and the callbacks for accepted requests. -/
structure ClientState where
  client : RelayClient := {}
  stack : List Frame := []
  /-- The number of a request with each callback. -/
  outcomes : List (ℕ × Outcome) := []
  /-- No iteration was invalidated. -/
  valid : Bool := true

/-- The requests behind the one with a token, in the order of the iteration. -/
def behind (token : Token) : List PairRequest → List PairRequest
  | [] => []
  | request :: rest => if request.token = token then rest else behind token rest

/-- The requests up to the one with a token. -/
def upTo (token : Token) : List PairRequest → List PairRequest
  | [] => []
  | request :: rest => if request.token = token then [request] else request :: upTo token rest

namespace ClientState

/-- The loops that wait for their callbacks, the innermost first. -/
def sweeps (s : ClientState) : List (Sweep × Token) := s.stack.filterMap Frame.sweep?

/-- A callback is called by a function that does nothing more with the requests. -/
def callback (s : ClientState) : ClientState := { s with stack := .done :: s.stack }

/-- The end of a loop: the map is cleared. `Channel::close` then calls `on_destroy`; `destroy` then closes the
channel, whose `on_close` finds no request. -/
def finish (s : ClientState) (kind : Sweep) : ClientState :=
  { s with
    valid := s.valid && s.sweeps.isEmpty
    client :=
      match kind with
      | .localClose => { s.client with requests := [], destroyed := true }
      | .remoteClose => { s.client with requests := [] }
      | .destroy => { s.client with requests := [], closed := true, destroyed := true } }

/-- A loop goes on to the first of the requests that are left to it. -/
def visit (s : ClientState) (kind : Sweep) : List PairRequest → ClientState
  | [] => s.finish kind
  | request :: _ =>
    { s with
      outcomes := s.outcomes ++ [(request.call, .error kind.error)]
      stack := .sweep kind request.token :: s.stack }

/-- A loop over all requests. -/
def startSweep (s : ClientState) (kind : Sweep) : ClientState := s.visit kind s.client.requests

/-- The innermost callback returns. -/
def ret (s : ClientState) : ClientState :=
  match s.stack with
  | [] => s
  | .done :: rest => { s with stack := rest }
  | .sweep kind token :: rest =>
    { s with stack := rest }.visit kind (behind token s.client.requests)

/-- `BlindRelayClient::pair`; a call that is refused calls `on_error` at once. -/
def pair (s : ClientState) (isInitiator : Bool) (token : Token) (localStreamId : UInt32) (place : ℕ)
    (rehash : Bool) : ClientState :=
  if s.client.accepts token then
    { s with
      client := s.client.register isInitiator token localStreamId place
      valid := s.valid && !(rehash && !s.sweeps.isEmpty) }
  else s.callback

/-- A request is taken out of the map, and its callback is called. -/
def complete (s : ClientState) (request : PairRequest) (outcome : Outcome) : ClientState :=
  { s with
    client := s.client.unregister request.token
    outcomes := s.outcomes ++ [(request.call, outcome)]
    stack := .done :: s.stack
    valid := s.valid && s.sweeps.all fun sweep => sweep.2 ≠ request.token }

/-- `BlindRelayClient::unpair`. -/
def unpair (s : ClientState) (token : Token) : ClientState :=
  match s.client.request? token with
  | none => s
  | some request => s.complete request (.error .pairingCancelled)

/-- `BlindRelayClient::close`. -/
def close (s : ClientState) : ClientState :=
  if s.client.closed then s
  else { s with client := { s.client with closed := true } }.startSweep .localClose

/-- `BlindRelayClient::destroy`. -/
def destroy (s : ClientState) : ClientState :=
  if s.client.destroyed then s
  else { s with client := { s.client with destroyed := true } }.startSweep .destroy

/-- The channel lives, and no function waits. -/
def idle (s : ClientState) : Bool := s.stack.isEmpty && !s.client.closed && !s.client.destroyed

/-- The relay closes the channel: `on_destroy` comes first. -/
def remoteClose (s : ClientState) : ClientState :=
  if s.idle then
    { s with client := { s.client with closed := true, destroyed := true } }.startSweep .remoteClose
  else s

/-- `BlindRelayClient::on_pair_response`. -/
def onPairResponse (s : ClientState) (data : List UInt8) : ClientState :=
  if s.idle then
    match s.client.onPairResponse data with
    | none => s
    | some request => s.complete request (.paired (decodePair data).id)
  else s

/-- `BlindRelayClient::on_unpair_response`. -/
def onUnpairResponse (s : ClientState) (data : List UInt8) : ClientState :=
  if s.idle then
    match s.client.onUnpairResponse data with
    | none => s
    | some request => s.complete request (.error .pairingCancelled)
  else s

end ClientState

/-- The calls of the user, the returns of the callbacks, and what comes from the relay. -/
inductive ClientInput where
  | pair (isInitiator : Bool) (token : Token) (localStreamId : UInt32) (place : ℕ) (rehash : Bool)
  | unpair (token : Token)
  | close
  | destroy
  | ret
  | pairResponse (data : List UInt8)
  | unpairResponse (data : List UInt8)
  | remoteClose

/-- The client takes a step, as long as what it does is defined. -/
def clientStep (s : ClientState) (i : ClientInput) : ClientState :=
  if s.valid then
    match i with
    | .pair isInitiator token localStreamId place rehash =>
      s.pair isInitiator token localStreamId place rehash
    | .unpair token => s.unpair token
    | .close => s.close
    | .destroy => s.destroy
    | .ret => s.ret
    | .pairResponse data => s.onPairResponse data
    | .unpairResponse data => s.onUnpairResponse data
    | .remoteClose => s.remoteClose
  else s

/-! ## The claim -/

/-- **One outcome for each request**: no iteration was invalidated; no request has two outcomes, and none has one
that was not accepted; and when the client is closed or destroyed, and all functions have returned, every
accepted request has one. -/
structure OneOutcome (s : ClientState) : Prop where
  valid : s.valid = true
  nodup : (s.outcomes.map (·.1)).Nodup
  accepted : ∀ call ∈ s.outcomes.map (·.1), ∃ request ∈ s.client.accepted, request.call = call
  settled : s.stack = [] → s.client.closed = true ∨ s.client.destroyed = true →
    ∀ request ∈ s.client.accepted, request.call ∈ s.outcomes.map (·.1)

/-- While a loop over the requests waits for a callback, no `pair` is accepted, no request that the loop has
reached is taken back, and the client is not closed or destroyed unless it is so already. -/
def LeavesSweepAlone (s : ClientState) : ClientInput → Prop
  | .pair _ token _ _ _ => s.sweeps ≠ [] → s.client.accepts token = false
  | .unpair token => ∀ sweep ∈ s.sweeps, ∀ request ∈ upTo sweep.2 s.client.requests,
      request.token ≠ token
  | .close => s.sweeps ≠ [] → s.client.closed = true
  | .destroy => s.sweeps ≠ [] → s.client.destroyed = true
  | _ => True

instance (s : ClientState) : (i : ClientInput) → Decidable (LeavesSweepAlone s i)
  | .pair _ token _ _ _ => inferInstanceAs (Decidable (s.sweeps ≠ [] → s.client.accepts token = false))
  | .unpair token => inferInstanceAs (Decidable (∀ sweep ∈ s.sweeps,
      ∀ request ∈ upTo sweep.2 s.client.requests, request.token ≠ token))
  | .close => inferInstanceAs (Decidable (s.sweeps ≠ [] → s.client.closed = true))
  | .destroy => inferInstanceAs (Decidable (s.sweeps ≠ [] → s.client.destroyed = true))
  | .ret => .isTrue trivial
  | .pairResponse _ => .isTrue trivial
  | .unpairResponse _ => .isTrue trivial
  | .remoteClose => .isTrue trivial

/-! ## The requests a loop has still to reach -/

section Lists

variable {token : Token} {request : PairRequest} {l done rest : List PairRequest}

lemma upTo_append_behind (token : Token) (l : List PairRequest) : upTo token l ++ behind token l = l := by
  induction l with
  | nil => rfl
  | cons request rest ih =>
    rw [upTo, behind]
    split_ifs
    · rfl
    · rw [List.cons_append, ih]

lemma behind_append (h : ∀ other ∈ done, other.token ≠ request.token) :
    behind request.token (done ++ request :: rest) = rest := by
  induction done with
  | nil => rw [List.nil_append, behind, if_pos rfl]
  | cons other done ih =>
    rw [List.cons_append, behind, if_neg (h other (List.mem_cons_self ..))]
    exact ih fun x hx => h x (List.mem_cons_of_mem _ hx)

lemma behind_filter {p : PairRequest → Bool} (h : ∀ other ∈ l, other.token = token → p other = true) :
    behind token (l.filter p) = (behind token l).filter p := by
  induction l with
  | nil => rfl
  | cons other rest ih =>
    have hrest := ih fun x hx => h x (List.mem_cons_of_mem _ hx)
    by_cases htoken : other.token = token
    · rw [List.filter_cons_of_pos (h other (List.mem_cons_self ..) htoken), behind, behind,
        if_pos htoken, if_pos htoken]
    · by_cases hp : p other = true
      · rw [List.filter_cons_of_pos hp, behind, behind, if_neg htoken, if_neg htoken, hrest]
      · rw [List.filter_cons_of_neg hp, behind, if_neg htoken, hrest]

lemma mem_upTo_self (h : request ∈ l) : ∃ other ∈ upTo request.token l, other.token = request.token := by
  induction l with
  | nil => cases h
  | cons other rest ih =>
    rw [upTo]
    split_ifs with htoken
    · exact ⟨other, List.mem_singleton_self _, htoken⟩
    · rcases List.mem_cons.1 h with rfl | hrest
      · exact absurd rfl htoken
      · obtain ⟨x, hx, hxt⟩ := ih hrest
        exact ⟨x, List.mem_cons_of_mem _ hx, hxt⟩

end Lists

namespace ClientState

/-- The requests that have had no callback yet. -/
def pending (s : ClientState) : List PairRequest :=
  match s.sweeps with
  | [] => s.client.requests
  | (_, token) :: _ => behind token s.client.requests

lemma pending_eq_requests {s : ClientState} (h : s.sweeps = []) : s.pending = s.client.requests := by
  rw [pending, h]

lemma pending_eq_behind {s : ClientState} {kind : Sweep} {token : Token}
    {rest : List (Sweep × Token)} (h : s.sweeps = (kind, token) :: rest) :
    s.pending = behind token s.client.requests := by
  rw [pending, h]

lemma mem_requests_of_mem_pending {s : ClientState} {request : PairRequest} (h : request ∈ s.pending) :
    request ∈ s.client.requests := by
  rw [pending] at h
  split at h
  · exact h
  · rename_i token _ _
    rw [← upTo_append_behind token s.client.requests]
    exact List.mem_append_right _ h

end ClientState

/-! ## The invariant -/

/-- The accepted requests that have had a callback are those that no loop has still to reach. Only one loop waits at
a time, at a request of the map; and without one, the client that is closed or destroyed is both, and has no request
left. -/
structure Sound (s : ClientState) : Prop where
  wf : s.client.Wf
  valid : s.valid = true
  nodup : (s.outcomes.map (·.1)).Nodup
  numbers : ∀ call ∈ s.outcomes.map (·.1), call < s.client.accepted.length
  called : ∀ request ∈ s.client.accepted, request.call ∈ s.outcomes.map (·.1) ↔ request ∉ s.pending
  one : s.sweeps = [] ∨
    ∃ kind, ∃ request ∈ s.client.requests, s.sweeps = [(kind, request.token)]
  closed : ∀ sweep ∈ s.sweeps, sweep.1 ≠ .destroy → s.client.closed = true
  destroyed : ∀ sweep ∈ s.sweeps, sweep.1 ≠ .localClose → s.client.destroyed = true
  settled : s.sweeps = [] → s.client.closed = s.client.destroyed ∧
    (s.client.closed = true → s.client.requests = [])

section Sound

variable {s s' : ClientState} {kind : Sweep} {request other : PairRequest}

lemma RelayClient.Wf.eq_of_call {c : RelayClient} (h : c.Wf) (hr : request ∈ c.accepted)
    (ho : other ∈ c.accepted) (hcall : request.call = other.call) : request = other := by
  have hnodup : (c.accepted.map (·.call)).Nodup := h.calls ▸ List.nodup_range
  exact List.inj_on_of_nodup_map hnodup hr ho hcall

lemma RelayClient.Wf.call_lt {c : RelayClient} (h : c.Wf) (hr : request ∈ c.accepted) :
    request.call < c.accepted.length := by
  have hin : request.call ∈ c.accepted.map (·.call) := List.mem_map_of_mem hr
  rwa [h.calls, List.mem_range] at hin

lemma Sound.congr (h : Sound s) {stack : List Frame}
    (hsweeps : stack.filterMap Frame.sweep? = s.sweeps) : Sound { s with stack := stack } := by
  have hs : ({ s with stack := stack } : ClientState).sweeps = s.sweeps := hsweeps
  have hp : ({ s with stack := stack } : ClientState).pending = s.pending := by
    rw [ClientState.pending, hs, ClientState.pending]
  exact ⟨h.wf, h.valid, h.nodup, h.numbers, hp ▸ h.called, hs ▸ h.one, hs ▸ h.closed,
    hs ▸ h.destroyed, hs ▸ h.settled⟩

lemma Sound.at_request (h : Sound s) {sweep : Sweep × Token} (hsweep : sweep ∈ s.sweeps) :
    ∃ request ∈ s.client.requests, sweep.2 = request.token := by
  rcases h.one with hnone | ⟨kind, request, hrequest, hone⟩
  · rw [hnone] at hsweep
    cases hsweep
  · rw [hone] at hsweep
    obtain rfl := List.mem_singleton.1 hsweep
    exact ⟨request, hrequest, rfl⟩

lemma Sound.callback (h : Sound s) : Sound s.callback := h.congr rfl

lemma Sound.of_sweeps_eq_nil (hs : s.sweeps = []) (hwf : s.client.Wf) (hvalid : s.valid = true)
    (hnodup : (s.outcomes.map (·.1)).Nodup)
    (hnumbers : ∀ call ∈ s.outcomes.map (·.1), call < s.client.accepted.length)
    (hcalled : ∀ request ∈ s.client.accepted,
      request.call ∈ s.outcomes.map (·.1) ↔ request ∉ s.client.requests)
    (hsettled : s.client.closed = s.client.destroyed ∧
      (s.client.closed = true → s.client.requests = [])) : Sound s where
  wf := hwf
  valid := hvalid
  nodup := hnodup
  numbers := hnumbers
  called := by rwa [ClientState.pending_eq_requests hs]
  one := Or.inl hs
  closed sweep hsweep := by simp [hs] at hsweep
  destroyed sweep hsweep := by simp [hs] at hsweep
  settled _ := hsettled

lemma sound_visit {done left : List PairRequest} (hrequests : s.client.requests = done ++ left)
    (hwf : s.client.Wf) (hvalid : s.valid = true) (hnodup : (s.outcomes.map (·.1)).Nodup)
    (hnumbers : ∀ call ∈ s.outcomes.map (·.1), call < s.client.accepted.length)
    (hcalled : ∀ request ∈ s.client.accepted, request.call ∈ s.outcomes.map (·.1) ↔ request ∉ left)
    (hsweeps : s.sweeps = []) (hclosed : kind ≠ .destroy → s.client.closed = true)
    (hdestroyed : kind ≠ .localClose → s.client.destroyed = true) : Sound (s.visit kind left) := by
  cases left with
  | nil =>
    -- the loop is at its end
    have hs : (s.finish kind).sweeps = [] := hsweeps
    have hclient : (s.finish kind).client.accepted = s.client.accepted ∧
        (s.finish kind).client.requests = [] ∧ (s.finish kind).client.closed = true ∧
        (s.finish kind).client.destroyed = true := by
      cases kind with
      | localClose => exact ⟨rfl, rfl, hclosed (by simp), rfl⟩
      | remoteClose => exact ⟨rfl, rfl, hclosed (by simp), hdestroyed (by simp)⟩
      | destroy => exact ⟨rfl, rfl, rfl, rfl⟩
    obtain ⟨haccepted, hempty, hc, hd⟩ := hclient
    rw [ClientState.visit]
    refine Sound.of_sweeps_eq_nil hs ⟨by simp [hempty], ?_, by simp [hempty]⟩
      (by simp [ClientState.finish, hvalid, hsweeps]) hnodup ?_ ?_ ⟨hc.trans hd.symm, fun _ => hempty⟩
    · rw [haccepted]
      exact hwf.calls
    · rw [haccepted]
      exact hnumbers
    · rw [haccepted, hempty]
      exact hcalled
  | cons request rest =>
    have hin : request ∈ s.client.accepted :=
      hwf.accepted request (hrequests ▸ List.mem_append_right _ (List.mem_cons_self ..))
    have hnew : request.call ∉ s.outcomes.map (·.1) := fun hcall =>
      (hcalled request hin).1 hcall (List.mem_cons_self ..)
    have htokens := hwf.tokens
    rw [hrequests, List.map_append, List.map_cons] at htokens
    obtain ⟨-, hcons, hdisjoint⟩ := List.nodup_append.1 htokens
    have hbehind : behind request.token s.client.requests = rest := by
      rw [hrequests]
      refine behind_append fun other hother heq => ?_
      exact hdisjoint other.token (List.mem_map_of_mem hother) request.token
        (List.mem_cons_self ..) heq
    have hnot : request ∉ rest := fun hrest =>
      (List.nodup_cons.1 hcons).1 (List.mem_map_of_mem hrest)
    have hs : (s.visit kind (request :: rest)).sweeps = [(kind, request.token)] := by
      have hcons : (s.visit kind (request :: rest)).sweeps = (kind, request.token) :: s.sweeps := rfl
      rw [hcons, hsweeps]
    have hp : (s.visit kind (request :: rest)).pending = rest :=
      (ClientState.pending_eq_behind hs).trans hbehind
    have houtcomes : (s.visit kind (request :: rest)).outcomes.map (·.1) =
        s.outcomes.map (·.1) ++ [request.call] := by simp [ClientState.visit]
    refine ⟨hwf, hvalid, ?_, ?_, fun other hother => ?_, Or.inr ⟨kind, request, ?_, hs⟩, ?_, ?_, ?_⟩
    · rw [houtcomes]
      exact hnodup.append (List.nodup_singleton _) (by simpa using hnew)
    · rw [houtcomes]
      intro call hcall
      rcases List.mem_append.1 hcall with hcall | hcall
      · exact hnumbers call hcall
      · obtain rfl := List.mem_singleton.1 hcall
        exact hwf.call_lt hin
    · rw [hp, houtcomes, List.mem_append, hcalled other hother, List.mem_singleton, List.mem_cons,
        not_or]
      constructor
      · rintro (⟨-, hrest⟩ | hcall)
        · exact hrest
        · rwa [hwf.eq_of_call hother hin hcall]
      · intro hrest
        by_cases heq : other = request
        · exact Or.inr (by rw [heq])
        · exact Or.inl ⟨heq, hrest⟩
    · exact hrequests ▸ List.mem_append_right _ (List.mem_cons_self ..)
    · rw [hs]
      intro sweep hsweep
      obtain rfl := List.mem_singleton.1 hsweep
      exact hclosed
    · rw [hs]
      intro sweep hsweep
      obtain rfl := List.mem_singleton.1 hsweep
      exact hdestroyed
    · intro hnone
      rw [hs] at hnone
      cases hnone

lemma Sound.ret (h : Sound s) : Sound s.ret := by
  rw [ClientState.ret]
  split
  · exact h
  · rename_i rest hstack
    exact h.congr (by rw [ClientState.sweeps, hstack]; rfl)
  · rename_i kind token rest hstack
    have hs : s.sweeps = (kind, token) :: rest.filterMap Frame.sweep? := by
      rw [ClientState.sweeps, hstack]
      rfl
    have hin : (kind, token) ∈ s.sweeps := hs ▸ List.mem_cons_self ..
    have hrest : rest.filterMap Frame.sweep? = [] := by
      rcases h.one with hnone | ⟨_, _, _, hone⟩
      · rw [hnone] at hs
        cases hs
      · exact (List.cons.inj (hs.symm.trans hone)).2
    have hcalled := h.called
    rw [ClientState.pending_eq_behind hs] at hcalled
    exact sound_visit (upTo_append_behind token _).symm h.wf h.valid h.nodup h.numbers hcalled hrest
      (h.closed _ hin) (h.destroyed _ hin)

lemma Sound.startSweep (h : Sound s) (hs : s.sweeps = []) {closed destroyed : Bool}
    (hclosed : kind ≠ .destroy → closed = true) (hdestroyed : kind ≠ .localClose → destroyed = true) :
    Sound ({ s with client := { s.client with closed := closed, destroyed := destroyed } }.startSweep
      kind) := by
  have hcalled := h.called
  rw [ClientState.pending_eq_requests hs] at hcalled
  exact sound_visit (List.nil_append _).symm ⟨h.wf.tokens, h.wf.calls, h.wf.accepted⟩ h.valid h.nodup
    h.numbers hcalled hs hclosed hdestroyed

lemma Sound.pair (h : Sound s) {token : Token} (hs : s.sweeps ≠ [] → s.client.accepts token = false)
    (isInitiator : Bool) (localStreamId : UInt32) (place : ℕ) (rehash : Bool) :
    Sound (s.pair isInitiator token localStreamId place rehash) := by
  rw [ClientState.pair]
  split_ifs with haccepts
  · have hnone : s.sweeps = [] := by
      by_contra hsome
      rw [hs hsome] at haccepts
      cases haccepts
    have halive : s.client.closed = false :=
      (h.settled hnone).1.trans (RelayClient.accepts_iff.1 haccepts).1
    have hcalled := h.called
    rw [ClientState.pending_eq_requests hnone] at hcalled
    refine Sound.of_sweeps_eq_nil hnone (h.wf.register haccepts isInitiator localStreamId place) ?_
      h.nodup (fun call hcall => ?_) (fun request hrequest => ?_)
      ⟨(h.settled hnone).1, fun hc => ?_⟩
    · simp [h.valid, hnone]
    · have hlt := h.numbers call hcall
      simp only [RelayClient.register, List.length_append, List.length_singleton]
      omega
    · rw [RelayClient.mem_register, not_or]
      rcases List.mem_append.1 hrequest with hold | hnew
      · rw [hcalled request hold]
        have hlt := h.wf.call_lt hold
        refine ⟨fun hnot => ⟨?_, hnot⟩, And.right⟩
        rintro rfl
        exact lt_irrefl _ hlt
      · obtain rfl := List.mem_singleton.1 hnew
        exact ⟨fun hcall => absurd (h.numbers _ hcall) (lt_irrefl _), fun hnot => absurd rfl hnot.1⟩
    · exact absurd (halive.symm.trans hc) Bool.false_ne_true
  · exact h.callback

lemma Sound.complete (h : Sound s) (hin : request ∈ s.client.requests)
    (hnot : ∀ sweep ∈ s.sweeps, ∀ other ∈ upTo sweep.2 s.client.requests, other.token ≠ request.token)
    (outcome : Outcome) : Sound (s.complete request outcome) := by
  have haway : ∀ sweep ∈ s.sweeps, sweep.2 ≠ request.token := by
    intro sweep hsweep
    obtain ⟨at', hat, hsweep'⟩ := h.at_request hsweep
    obtain ⟨other, hother, htoken⟩ := mem_upTo_self hat
    rw [hsweep', ← htoken]
    exact hnot sweep hsweep other (by rwa [hsweep'])
  have hwaits : request ∈ s.pending := by
    rcases hsweeps : s.sweeps with _ | ⟨⟨kind, token⟩, rest⟩
    · rwa [ClientState.pending_eq_requests hsweeps]
    · rw [ClientState.pending_eq_behind hsweeps]
      rw [← upTo_append_behind token s.client.requests] at hin
      refine (List.mem_append.1 hin).resolve_left fun hup => ?_
      exact hnot (kind, token) (hsweeps ▸ List.mem_cons_self ..) request hup rfl
  have hpending : (s.complete request outcome).pending =
      s.pending.filter fun other => other.token ≠ request.token := by
    have hsame : (s.complete request outcome).sweeps = s.sweeps := rfl
    rcases hsweeps : s.sweeps with _ | ⟨⟨kind, token⟩, rest⟩
    · rw [ClientState.pending_eq_requests hsweeps, ClientState.pending_eq_requests (hsame.trans hsweeps)]
      rfl
    · rw [ClientState.pending_eq_behind hsweeps, ClientState.pending_eq_behind (hsame.trans hsweeps)]
      refine behind_filter fun other _ htoken => decide_eq_true ?_
      rw [htoken]
      exact haway (kind, token) (hsweeps ▸ List.mem_cons_self ..)
  have haccepted := h.wf.accepted request hin
  have houtcomes : (s.complete request outcome).outcomes.map (·.1) =
      s.outcomes.map (·.1) ++ [request.call] := by simp [ClientState.complete]
  refine ⟨h.wf.unregister request.token, ?_, ?_, ?_, fun other hother => ?_, ?_, h.closed,
    h.destroyed, fun hnone => ?_⟩
  · simpa [ClientState.complete, h.valid] using fun kind token hsweep => haway (kind, token) hsweep
  · rw [houtcomes]
    refine h.nodup.append (List.nodup_singleton _) ?_
    rw [List.disjoint_singleton]
    exact fun hcall => (h.called request haccepted).1 hcall hwaits
  · rw [houtcomes]
    intro call hcall
    rcases List.mem_append.1 hcall with hcall | hcall
    · exact h.numbers call hcall
    · obtain rfl := List.mem_singleton.1 hcall
      exact h.wf.call_lt haccepted
  · rw [houtcomes, hpending, List.mem_append, List.mem_singleton, h.called other hother,
      List.mem_filter, decide_eq_true_iff, not_and_or, not_not]
    refine or_congr_right' fun hpend => ⟨fun hcall => ?_, fun htoken => ?_⟩
    · rw [h.wf.eq_of_call hother haccepted hcall]
    · have hboth := ClientState.mem_requests_of_mem_pending (not_not.1 hpend)
      rw [List.inj_on_of_nodup_map h.wf.tokens hboth hin htoken]
  · rcases h.one with hnone | ⟨kind, at', hat, hone⟩
    · exact Or.inl hnone
    · refine Or.inr ⟨kind, at', RelayClient.mem_unregister.2 ⟨hat, ?_⟩, hone⟩
      exact haway (kind, at'.token) (hone ▸ List.mem_cons_self ..)
  · have hsettled := h.settled hnone
    refine ⟨hsettled.1, fun hclosed => ?_⟩
    rw [hsettled.2 hclosed] at hin
    cases hin

lemma sweeps_eq_nil_of_idle (h : s.idle = true) : s.sweeps = [] := by
  rw [ClientState.idle, Bool.and_eq_true, Bool.and_eq_true, List.isEmpty_iff] at h
  rw [ClientState.sweeps, h.1.1]
  rfl

lemma Sound.complete_of_idle (h : Sound s) (hidle : s.idle = true) (hin : request ∈ s.client.requests)
    (outcome : Outcome) : Sound (s.complete request outcome) := by
  refine h.complete hin (fun sweep hsweep => ?_) outcome
  rw [sweeps_eq_nil_of_idle hidle] at hsweep
  cases hsweep

lemma Sound.unpair (h : Sound s) {token : Token}
    (hnot : ∀ sweep ∈ s.sweeps, ∀ other ∈ upTo sweep.2 s.client.requests, other.token ≠ token) :
    Sound (s.unpair token) := by
  rw [ClientState.unpair]
  split
  · exact h
  · rename_i request hrequest
    obtain ⟨hin, rfl⟩ := RelayClient.mem_of_request? hrequest
    exact h.complete hin hnot _

lemma Sound.onPairResponse (h : Sound s) (data : List UInt8) : Sound (s.onPairResponse data) := by
  rw [ClientState.onPairResponse]
  split_ifs with hidle
  · split
    · exact h
    · rename_i request hrequest
      exact h.complete_of_idle hidle (RelayClient.mem_of_onPairResponse hrequest) _
  · exact h

lemma Sound.onUnpairResponse (h : Sound s) (data : List UInt8) : Sound (s.onUnpairResponse data) := by
  rw [ClientState.onUnpairResponse]
  split_ifs with hidle
  · split
    · exact h
    · rename_i request hrequest
      exact h.complete_of_idle hidle (RelayClient.mem_of_onUnpairResponse hrequest) _
  · exact h

lemma Sound.close (h : Sound s) (hs : s.sweeps ≠ [] → s.client.closed = true) : Sound s.close := by
  rw [ClientState.close]
  split_ifs with hclosed
  · exact h
  · have hnone : s.sweeps = [] := by_contra fun hsome => hclosed (hs hsome)
    exact h.startSweep hnone (fun _ => rfl) fun hne => absurd rfl hne

lemma Sound.destroy (h : Sound s) (hs : s.sweeps ≠ [] → s.client.destroyed = true) :
    Sound s.destroy := by
  rw [ClientState.destroy]
  split_ifs with hdestroyed
  · exact h
  · have hnone : s.sweeps = [] := by_contra fun hsome => hdestroyed (hs hsome)
    exact h.startSweep hnone (fun hne => absurd rfl hne) fun _ => rfl

lemma Sound.remoteClose (h : Sound s) : Sound s.remoteClose := by
  rw [ClientState.remoteClose]
  split_ifs with hidle
  · exact h.startSweep (sweeps_eq_nil_of_idle hidle) (fun _ => rfl) fun _ => rfl
  · exact h

/-- **A step that leaves the loops alone** keeps the invariant. -/
theorem sound_step (s : ClientState) (i : ClientInput) (h : Sound s) (hi : LeavesSweepAlone s i) :
    Sound (clientStep s i) := by
  unfold clientStep
  rw [if_pos h.valid]
  cases i with
  | pair isInitiator token localStreamId place rehash =>
    exact h.pair hi isInitiator localStreamId place rehash
  | unpair token => exact h.unpair hi
  | close => exact h.close hi
  | destroy => exact h.destroy hi
  | ret => exact h.ret
  | pairResponse data => exact h.onPairResponse data
  | unpairResponse data => exact h.onUnpairResponse data
  | remoteClose => exact h.remoteClose

lemma sound_init : Sound {} :=
  Sound.of_sweeps_eq_nil rfl RelayClient.wf_init rfl List.nodup_nil (by simp) (by simp) ⟨rfl, by simp⟩

lemma Sound.oneOutcome (h : Sound s) : OneOutcome s where
  valid := h.valid
  nodup := h.nodup
  accepted call hcall := by
    have hrange := List.mem_range.2 (h.numbers call hcall)
    rw [← h.wf.calls] at hrange
    exact List.mem_map.1 hrange
  settled hstack hover request hrequest := by
    have hnone : s.sweeps = [] := by
      rw [ClientState.sweeps, hstack]
      rfl
    obtain ⟨hsame, hempty⟩ := h.settled hnone
    have hclosed : s.client.closed = true := hover.elim id fun hd => hsame.trans hd
    rw [h.called request hrequest, ClientState.pending_eq_requests hnone, hempty hclosed]
    simp

end Sound

/-! ## Runs -/

/-- **One outcome for each request** in every state of a run whose steps leave the loops alone. -/
theorem oneOutcome_of_leavesSweepAlone (is : List ClientInput)
    (h : Runs.EveryStep clientStep LeavesSweepAlone {} is) :
    Runs.EveryState clientStep OneOutcome {} is :=
  (Runs.everyState_of_everyStep sound_step sound_init h).mono fun _ hs => hs.oneOutcome

/-- A token. -/
def tokenOf (byte : UInt8) : Token := List.Vector.replicate 32 byte

/-- Three requests: the relay answers the first, the second is taken back when its callback runs, and the third
is left when the client is closed. -/
def threeRequestsRun : List ClientInput :=
  [.pair true (tokenOf 1) 1 0 false, .pair true (tokenOf 2) 2 0 false, .pair false (tokenOf 3) 3 0 true,
    .pairResponse (encodePair { isInitiator := true, token := tokenOf 1, id := 7 }),
    .unpair (tokenOf 2), .close, .ret, .ret, .ret]

theorem oneOutcome_threeRequestsRun : Runs.EveryState clientStep OneOutcome {} threeRequestsRun :=
  oneOutcome_of_leavesSweepAlone threeRequestsRun (by decide +kernel)

/-- A request is made in the callback of the only request of a client that is closed; the table puts it before
that one. -/
def pairAgainRun : List ClientInput :=
  [.pair true (tokenOf 1) 1 0 false, .close, .pair true (tokenOf 2) 2 0 false, .ret]

/-- The second request is accepted, and never called back. -/
theorem not_oneOutcome_pairAgainRun : ¬ Runs.EveryState clientStep OneOutcome {} pairAgainRun := by
  intro h
  have hlast : OneOutcome (Runs.run clientStep {} pairAgainRun) := h.run
  have hrequest : (⟨true, tokenOf 2, 2, 1⟩ : PairRequest) ∈
      (Runs.run clientStep {} pairAgainRun).client.accepted := by decide +kernel
  have hcall := hlast.settled (by decide +kernel) (by decide +kernel) _ hrequest
  exact absurd hcall (by decide +kernel)

end HyperDHT.BlindRelay
