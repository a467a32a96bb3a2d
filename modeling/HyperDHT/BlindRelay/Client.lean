import HyperDHT.BlindRelay.Messages

/-!
# The requests of a blind-relay client

The map `requests_` of `BlindRelayClient`: what `pair`, `unpair` and the two message handlers read of it and
write to it. What the methods do besides (the messages, the callbacks of the user) is in `BlindRelay.Delivery`
and in `BlindRelay.Callbacks`.

## Main definitions

* `BlindRelay.PairRequest`, `BlindRelay.RelayClient` — a request, and the client.
* `RelayClient.accepts`, `register` — a call of `pair` that is not refused.
* `RelayClient.unregister` — a request is taken out.
* `RelayClient.onPairResponse`, `RelayClient.onUnpairResponse` — the request a message is about.

## Main results

* `RelayClient.Wf` — no two requests have the same token, and a request belongs to one call.
* `RelayClient.Wf.register`, `RelayClient.Wf.unregister` — the invariant is kept.

## Design

`requests` lists the map in the order of an iteration; a new request comes at a place that the hash table
chooses. `accepted` is a record of the requests that were ever made, and `call` the place of a request in it;
the code reads neither.
-/

set_option autoImplicit false

namespace HyperDHT.BlindRelay

/-- A request to be paired. -/
structure PairRequest where
  isInitiator : Bool
  token : Token
  localStreamId : UInt32
  /-- How many requests were made before it. -/
  call : ℕ
  deriving DecidableEq

/-- The message a request is sent as. -/
def PairRequest.message (request : PairRequest) : PairMessage where
  isInitiator := request.isInitiator
  token := request.token
  id := request.localStreamId

/-- A client of a relay. -/
structure RelayClient where
  closed : Bool := false
  destroyed : Bool := false
  requests : List PairRequest := []
  accepted : List PairRequest := []

namespace RelayClient

/-- The request with a token. -/
def request? (c : RelayClient) (token : Token) : Option PairRequest :=
  c.requests.find? fun request => request.token = token

/-- A call of `pair` is not refused. -/
def accepts (c : RelayClient) (token : Token) : Bool := !c.destroyed && (c.request? token).isNone

/-- The request that an accepted call of `pair` makes. -/
def newRequest (c : RelayClient) (isInitiator : Bool) (token : Token) (localStreamId : UInt32) :
    PairRequest where
  isInitiator := isInitiator
  token := token
  localStreamId := localStreamId
  call := c.accepted.length

/-- Put a new request into the map, at the place the table chooses. -/
def register (c : RelayClient) (isInitiator : Bool) (token : Token) (localStreamId : UInt32)
    (place : ℕ) : RelayClient :=
  { c with
    requests := c.requests.insertIdx (min place c.requests.length)
      (c.newRequest isInitiator token localStreamId)
    accepted := c.accepted ++ [c.newRequest isInitiator token localStreamId] }

/-- Erase the request with a token. -/
def unregister (c : RelayClient) (token : Token) : RelayClient :=
  { c with requests := c.requests.filter fun request => request.token ≠ token }

/-- The request that a Pair message of the relay completes: the one with its token, if the role is the
same. -/
def onPairResponse (c : RelayClient) (data : List UInt8) : Option PairRequest :=
  (c.request? (decodePair data).token).filter fun request =>
    (decodePair data).isInitiator = request.isInitiator

/-- The request that an Unpair message of the relay cancels. -/
def onUnpairResponse (c : RelayClient) (data : List UInt8) : Option PairRequest :=
  c.request? (decodeUnpair data).token

/-! ## The map -/

/-- The requests are those of different tokens and of different accepted calls. -/
structure Wf (c : RelayClient) : Prop where
  tokens : (c.requests.map (·.token)).Nodup
  calls : c.accepted.map (·.call) = List.range c.accepted.length
  accepted : ∀ request ∈ c.requests, request ∈ c.accepted

lemma wf_init : ({} : RelayClient).Wf := ⟨List.nodup_nil, rfl, by simp⟩

lemma request?_eq_none {c : RelayClient} {token : Token} :
    c.request? token = none ↔ ∀ request ∈ c.requests, request.token ≠ token := by
  simp [request?, List.find?_eq_none]

lemma accepts_iff {c : RelayClient} {token : Token} :
    c.accepts token = true ↔
      c.destroyed = false ∧ ∀ request ∈ c.requests, request.token ≠ token := by
  rw [accepts, Bool.and_eq_true, Bool.not_eq_true', Option.isNone_iff_eq_none, request?_eq_none]

lemma mem_of_request? {c : RelayClient} {token : Token} {request : PairRequest}
    (h : c.request? token = some request) : request ∈ c.requests ∧ request.token = token :=
  ⟨List.mem_of_find?_eq_some h, by simpa using List.find?_some h⟩

lemma mem_of_onPairResponse {c : RelayClient} {data : List UInt8} {request : PairRequest}
    (h : c.onPairResponse data = some request) : request ∈ c.requests :=
  (mem_of_request? (Option.filter_eq_some_iff.1 h).1).1

lemma mem_of_onUnpairResponse {c : RelayClient} {data : List UInt8} {request : PairRequest}
    (h : c.onUnpairResponse data = some request) : request ∈ c.requests :=
  (mem_of_request? h).1

@[simp] lemma mem_register {c : RelayClient} {isInitiator : Bool} {token : Token}
    {localStreamId : UInt32} {place : ℕ} {request : PairRequest} :
    request ∈ (c.register isInitiator token localStreamId place).requests ↔
      request = c.newRequest isInitiator token localStreamId ∨ request ∈ c.requests := by
  simp [register, List.mem_insertIdx (Nat.min_le_right _ _)]

@[simp] lemma mem_unregister {c : RelayClient} {token : Token} {request : PairRequest} :
    request ∈ (c.unregister token).requests ↔ request ∈ c.requests ∧ request.token ≠ token := by
  simp [unregister]

lemma Wf.register {c : RelayClient} (h : c.Wf) {token : Token} (haccepts : c.accepts token = true)
    (isInitiator : Bool) (localStreamId : UInt32) (place : ℕ) :
    (c.register isInitiator token localStreamId place).Wf := by
  have hnone := (accepts_iff.1 haccepts).2
  refine ⟨?_, ?_, fun request hin => ?_⟩
  · have hperm := List.perm_insertIdx (c.newRequest isInitiator token localStreamId) c.requests
      (Nat.min_le_right place c.requests.length)
    refine ((hperm.map (·.token)).nodup_iff).2 ?_
    rw [List.map_cons, List.nodup_cons]
    refine ⟨fun hin => ?_, h.tokens⟩
    obtain ⟨request, hrequest, htoken⟩ := List.mem_map.1 hin
    exact hnone request hrequest htoken
  · simp [RelayClient.register, h.calls, newRequest, List.range_succ]
  · rcases mem_register.1 hin with rfl | hin
    · exact List.mem_append_right _ (List.mem_singleton_self _)
    · exact List.mem_append_left _ (h.accepted request hin)

lemma Wf.unregister {c : RelayClient} (h : c.Wf) (token : Token) : (c.unregister token).Wf where
  tokens := h.tokens.sublist (List.filter_sublist.map _)
  calls := h.calls
  accepted request hin := h.accepted request (mem_unregister.1 hin).1

end RelayClient

end HyperDHT.BlindRelay
