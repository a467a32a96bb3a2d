import HyperDHT.Ops.Answers
import HyperDHT.Query.Replies

/-!
# Whose replies a query keeps

The id in a response is compared with the address from which the datagram came. The response is
matched to a request by its transaction id alone, and the reply that the query keeps has the id of
the response and the address of the request. So another host that answers with the transaction id of
a visit gets its id next to the address of the visited node.

## Main definitions

* `Ops.validateId` — the check of the id in a response.
* `Ops.QuerySystem.hear` — a query on a socket that receives datagrams.
* `Ops.QuerySystem.Authenticated` — every reply that is kept has the id of its address.
* `Ops.QuerySystem.AnsweredByOwner` — a reply that is kept was sent from the visited node.

## Main results

* `Ops.QuerySystem.authenticated_iff` — every reply that is kept has the id of its address in exactly
  the runs in which those that are kept were sent by the visited nodes.
-/

set_option autoImplicit false

namespace HyperDHT.Ops

open Compact Handlers Routing Rpc

/-- The id in a response stands if it is the one of the address that the datagram came from. -/
def validateId (blake2b : List UInt8 → NodeId) (remote : Ipv4Address) (resp : Response) : Response :=
  { resp with id := resp.id.filter fun id => id = computePeerId blake2b remote }

namespace QuerySystem

/-! ## A socket that receives datagrams -/

/-- The input is a response. -/
def Input.isResponse : Input → Bool
  | .response _ _ _ => true
  | _ => false

/-- What may happen: a response arrives from an address, or anything else. -/
inductive Event where
  | datagram (env : Query.Env) (remote : Ipv4Address) (resp : Response)
  | beside (i : { i : Input // i.isResponse = false })

/-- The machine after an event. The socket passes on a response whose id has been checked. -/
def hear (blake2b : List UInt8 → NodeId) (cb : Callbacks) (s : QuerySystem) : Event → QuerySystem
  | .datagram env remote resp =>
    s.step blake2b cb (.response env resp.tid (validateId blake2b remote resp))
  | .beside i => s.step blake2b cb i

/-- Every reply that is kept has the id of its address. -/
def Authenticated (blake2b : List UInt8 → NodeId) (s : QuerySystem) : Prop :=
  ∀ r ∈ s.query.closestReplies, r.fromId = computePeerId blake2b r.fromAddr

/-- A response with the transaction id answers the visit of a node. -/
def Answers (s : QuerySystem) (tid : UInt16) (node : PendingNode) : Prop :=
  s.query.outbox = [] ∧ s.socket.closing = false ∧ ∃ r, s.socket.findInflight tid = some r ∧
    r.destroyed = false ∧ r.onResponse = some (.query (.visit node))

/-- **The visited node answers**: a success that answers a visit, with the id of its sender and a
place for this id among the closest replies, was sent from an address with the id of the visited
one. -/
def AnsweredByOwner (blake2b : List UInt8 → NodeId) (s : QuerySystem) (e : Event) : Prop :=
  ∀ env remote resp node, e = .datagram env remote resp → s.Answers resp.tid node →
    s.query.done = false → Query.isSuccess resp = true →
    resp.id = some (computePeerId blake2b remote) →
    computePeerId blake2b remote ≠ NodeId.zero → s.query.Fits (computePeerId blake2b remote) →
    computePeerId blake2b remote = computePeerId blake2b node.addr

variable {blake2b : List UInt8 → NodeId} {cb : Callbacks} {s : QuerySystem}

/-! ## What an event does to the closest replies -/

lemma answers_iff (hout : s.query.outbox = []) (tid : UInt16) (node : PendingNode) :
    s.Answers tid node ↔
      (s.socket.onResponse tid).2.bind (·.onResponse) = some (.query (.visit node)) := by
  unfold Answers RpcSocket.onResponse
  rw [and_iff_right hout]
  cases hclosing : s.socket.closing with
  | true => simp
  | false =>
    cases hfind : s.socket.findInflight tid with
    | none => simp
    | some r => cases hdestroyed : r.destroyed <;> simp [hdestroyed]

lemma issue_sameReplies (s : QuerySystem) : s.query.SameReplies s.issue.query := by
  unfold issue
  cases s.query.outbox with
  | nil => exact .refl _
  | cons => exact ⟨rfl, rfl⟩

lemma step_sameReplies {i : Input} (h : i.isResponse = false) :
    s.query.SameReplies (s.step blake2b cb i).query := by
  unfold step
  split
  · cases i with
    | addSeedNode node => exact ⟨rfl, rfl⟩
    | addBootstrap env addr => exact Query.addPending_sameReplies _ _ _
    | start env =>
      rw [call]
      split
      · exact .refl _
      · exact Query.start_sameReplies _ _
    | destroy env => exact Query.destroy_sameReplies _ _
    | response => cases h
    | timeout env ptr =>
      simp only [call, timedOut]
      split
      · exact Query.visitTimedOut_sameReplies _ _ _
      · exact .refl _
    | _ => exact .refl _
  · cases i with
    | issue => exact issue_sameReplies s
    | _ => exact .refl _

lemma step_response_sameReplies {env : Query.Env} {tid : UInt16} {resp : Response}
    (h : ∀ node, ¬ s.Answers tid node) :
    s.query.SameReplies (s.step blake2b cb (.response env tid resp)).query := by
  unfold step
  split
  · next hout =>
    simp only [answers_iff hout] at h
    simp only [call, answered]
    split
    · next node hcallback => exact absurd hcallback (h node)
    · exact Query.commitDone_sameReplies _ _
    · exact .refl _
  · exact .refl _

lemma Answers.sameReplies {env : Query.Env} {tid : UInt16} {resp : Response} {node : PendingNode}
    (h : s.Answers tid node) :
    Query.SameReplies
      (if s.query.done then s.query else s.query.offerReply resp (Query.replyOf node resp))
      (s.step blake2b cb (.response env tid resp)).query := by
  have hquery : (s.step blake2b cb (.response env tid resp)).query =
      answered blake2b (cb.install env) s.query resp
        ((s.socket.onResponse tid).2.bind (·.onResponse)) := by
    unfold step
    rw [if_pos h.1]
    rfl
  rw [hquery, (answers_iff h.1 tid node).1 h]
  exact Query.visitAnswered_replies _ _ _ _ _

lemma Answers.unique {tid : UInt16} {node node' : PendingNode} (h : s.Answers tid node)
    (h' : s.Answers tid node') : node = node' := by
  have hcallbacks := ((answers_iff h.1 tid node).1 h).symm.trans ((answers_iff h.1 tid node').1 h')
  simpa using hcallbacks

lemma ranked_hear (h : s.query.Ranked) (e : Event) : (s.hear blake2b cb e).query.Ranked := by
  cases e with
  | beside i => exact h.of_same (step_sameReplies i.2)
  | datagram env remote resp =>
    by_cases hanswers : ∃ node, s.Answers resp.tid node
    · obtain ⟨node, hanswers⟩ := hanswers
      refine Query.Ranked.of_same ?_ hanswers.sameReplies
      split
      · exact h
      · exact h.offerReply _ _
    · exact h.of_same (step_response_sameReplies (not_exists.1 hanswers))

/-! ## Whose replies are kept -/

lemma fromId_replyOf_validateId {remote : Ipv4Address} {resp : Response} {node : PendingNode}
    (h : (Query.replyOf node (validateId blake2b remote resp)).fromId ≠ NodeId.zero) :
    resp.id = some (computePeerId blake2b remote) ∧
      (Query.replyOf node (validateId blake2b remote resp)).fromId =
        computePeerId blake2b remote := by
  unfold Query.replyOf validateId at h ⊢
  cases hid : resp.id with
  | none => simp [hid] at h
  | some id =>
    by_cases hvalid : id = computePeerId blake2b remote
    · simp [hvalid, Option.filter_some]
    · simp [hid, hvalid, Option.filter_some] at h

/-- **An event keeps the replies authentic** exactly when the visited node answers. -/
lemma authenticated_hear_iff (hranked : s.query.Ranked) (h : s.Authenticated blake2b) (e : Event) :
    (s.hear blake2b cb e).Authenticated blake2b ↔ s.AnsweredByOwner blake2b e := by
  have hsame : s.query.SameReplies (s.hear blake2b cb e).query →
      (s.hear blake2b cb e).Authenticated blake2b := fun hsame r hr =>
    h r (hsame.closestReplies ▸ hr)
  cases e with
  | beside i =>
    refine iff_of_true (hsame (step_sameReplies i.2)) ?_
    intro env remote resp node hevent
    cases hevent
  | datagram env remote resp =>
    by_cases hanswers : ∃ node, s.Answers resp.tid node
    swap
    · refine iff_of_true (hsame (step_response_sameReplies (not_exists.1 hanswers))) ?_
      intro env' remote' resp' node' hevent hanswers'
      cases hevent
      exact absurd ⟨node', hanswers'⟩ hanswers
    obtain ⟨node, hanswers⟩ := hanswers
    have hreplies := @Answers.sameReplies blake2b cb s env resp.tid
      (validateId blake2b remote resp) node hanswers
    have hheard : (s.hear blake2b cb (.datagram env remote resp)).Authenticated blake2b ↔
        ∀ r ∈ (if s.query.done then s.query else s.query.offerReply (validateId blake2b remote resp)
          (Query.replyOf node (validateId blake2b remote resp))).closestReplies,
          r.fromId = computePeerId blake2b r.fromAddr := by
      rw [← hreplies.closestReplies]
      rfl
    rw [hheard]
    constructor
    · intro hall env' remote' resp' node' hevent hanswers' hdone hsuccess hid hne hfits
      cases hevent
      obtain rfl := hanswers.unique hanswers'
      have hfrom : (Query.replyOf node (validateId blake2b remote resp)).fromId =
          computePeerId blake2b remote := by
        simp [Query.replyOf, validateId, hid, Option.filter_some]
      have hoffer : s.query.offerReply (validateId blake2b remote resp)
          (Query.replyOf node (validateId blake2b remote resp)) =
          s.query.pushClosest (Query.replyOf node (validateId blake2b remote resp)) := by
        have hsuccess' : Query.isSuccess (validateId blake2b remote resp) = true := hsuccess
        rw [Query.offerReply, if_pos (by simp [hsuccess', hfrom, hne])]
      rw [if_neg (by simp [hdone]), hoffer] at hall
      have hkept := (Query.mem_pushClosest_iff hranked
        (Query.replyOf node (validateId blake2b remote resp))).2 (.inr (hfrom ▸ hfits))
      exact hfrom.symm.trans (hall _ hkept)
    · intro howner r hr
      by_cases hdone : s.query.done = true
      · rw [if_pos hdone] at hr
        exact h r hr
      · rw [if_neg hdone, Query.offerReply] at hr
        split at hr
        · next hsuccess =>
          simp only [Bool.and_eq_true, decide_eq_true_eq] at hsuccess
          obtain ⟨hid, hfrom⟩ := fromId_replyOf_validateId hsuccess.2
          rcases Query.mem_of_mem_pushClosest hranked hr with rfl | hr
          · rcases (Query.mem_pushClosest_iff hranked _).1 hr with hold | hfits
            · exact h _ hold
            · rw [hfrom]
              exact howner env remote resp node rfl hanswers (by simpa using hdone) hsuccess.1 hid
                (hfrom ▸ hsuccess.2) (hfrom ▸ hfits)
          · exact h r hr
        · exact h r hr

/-- **Every reply that is kept has the id of its address** in exactly the runs in which those that
are kept were sent by the visited nodes.

**Proof sketch.** The closest replies are in order and at most `K` in every state of a run. Only a
response to a visit changes them: it offers one reply, with the id of the sender and the address of
the visited node, and the reply is kept if its id has a place. -/
theorem authenticated_iff (blake2b : List UInt8 → NodeId) (target : NodeId) (command : UInt32)
    (value : Option (List UInt8)) (opts : Query.Options) (cb : Callbacks) (firstTid : UInt16)
    (es : List Event) :
    Runs.EveryState (hear blake2b cb) (Authenticated blake2b)
        (.init target command value opts cb firstTid) es ↔
      Runs.EveryStep (hear blake2b cb) (AnsweredByOwner blake2b)
        (.init target command value opts cb firstTid) es := by
  refine Runs.everyState_iff_everyStep (I := fun s : QuerySystem => s.query.Ranked)
    (fun s e hs => ranked_hear hs e) (fun s e hs h => authenticated_hear_iff hs h e)
    (Query.ranked_create _ _ _ _) ?_
  intro r hr
  cases hr

def spoofedResponse : Response where
  tid := 1
  id := some (computePeerId RpcNode.paddedDigest otherAddr)

def spoofedRun : List Event :=
  [.beside ⟨.addBootstrap emptyEnv someAddr, rfl⟩, .beside ⟨.start emptyEnv, rfl⟩,
    .beside ⟨.issue, rfl⟩, .datagram emptyEnv otherAddr spoofedResponse]

/-- **A reply with the id of another host is kept**: the query keeps the id of the host that answered
with the address of the node that it visited. -/
theorem not_authenticated_spoofed :
    ¬ Runs.EveryState (hear RpcNode.paddedDigest {}) (Authenticated RpcNode.paddedDigest)
      (.init NodeId.zero cmdFindPeer none {} {} 1) spoofedRun := by
  intro hall
  have hlast : Authenticated RpcNode.paddedDigest (Runs.run (hear RpcNode.paddedDigest {})
    (.init NodeId.zero cmdFindPeer none {} {} 1) spoofedRun) := hall.run
  have hkept : Query.replyOf ⟨NodeId.zero, someAddr⟩ spoofedResponse ∈
      (Runs.run (hear RpcNode.paddedDigest {})
        (.init NodeId.zero cmdFindPeer none {} {} 1) spoofedRun).query.closestReplies := by
    decide +kernel
  exact absurd (hlast _ hkept) (by decide +kernel)

end QuerySystem

end HyperDHT.Ops
