import HyperDHT.Handlers.Announcements
import HyperDHT.Ops.System

/-!
# The answers to the visits

What the requests of a walk ask for, and which of them a persistent node answers with a token and its
closest nodes. The visits of an announcement are announcements without a token, which are dropped,
and those of the walks that a node starts for itself do not carry the internal flag.

## Main definitions

* `Ops.Asks` — the requests of the visits are those of a query as it was created.
* `Ops.receive` — a request as it arrives.
* `Ops.EveryVisitAnswered` — every visit of an operation carries its flag, and is answered with a
  token and the closest nodes.

## Main results

* `Ops.asks_run` — along every run the visits ask what the operation set.
* `Ops.everyVisitAnswered_iff` — which operations have all their visits answered.
-/

set_option autoImplicit false

namespace HyperDHT.Ops

open Compact Handlers Routing Rpc

/-! ## The requests of the visits -/

/-- The query asks what another one does, and the visits on their way are requests of that one. -/
structure Asks (q₀ q : Query) : Prop where
  command : q.command = q₀.command
  target : q.target = q₀.target
  value : q.value = q₀.value
  visits : ∀ call ∈ q.outbox, ∀ node, call.purpose = .visit node →
    call.request = q₀.visitRequest node

variable {q₀ q q' : Query}

lemma Asks.congr (h : Asks q₀ q) (hcommand : q'.command = q.command) (htarget : q'.target = q.target)
    (hvalue : q'.value = q.value) (hout : q'.outbox ⊆ q.outbox) : Asks q₀ q' where
  command := hcommand.trans h.command
  target := htarget.trans h.target
  value := hvalue.trans h.value
  visits call hcall := h.visits call (hout hcall)

lemma Asks.concat (h : Asks q₀ q) (call : Call) (hcommand : q'.command = q.command)
    (htarget : q'.target = q.target) (hvalue : q'.value = q.value)
    (hout : q'.outbox = q.outbox ++ [call])
    (hcall : ∀ node, call.purpose = .visit node → call.request = q₀.visitRequest node) :
    Asks q₀ q' := by
  refine ⟨hcommand.trans h.command, htarget.trans h.target, hvalue.trans h.value, fun c hc => ?_⟩
  rcases List.mem_append.1 (hout ▸ hc) with hold | hnew
  · exact h.visits c hold
  · obtain rfl := List.mem_singleton.1 hnew
    exact hcall

lemma Asks.move (h : Asks q₀ q) (hmove : Query.Move q q') : Asks q₀ q' := by
  have hvisit : ∀ (node : PendingNode) (rest : List PendingNode),
      Asks q₀ ({ q with pending := rest }.visit node) := by
    intro node rest
    refine h.concat ⟨.visit node, q.visitRequest node⟩ rfl rfl rfl rfl fun n hpurpose => ?_
    obtain rfl : node = n := by simpa using hpurpose
    simp [Query.visitRequest, h.command, h.target, h.value]
  have hrequest : ∀ req : Request,
      Asks q₀ { q with outbox := q.outbox ++ [Call.mk .commit req] } :=
    fun req => h.concat ⟨.commit, req⟩ rfl rfl rfl rfl fun n hpurpose => by cases hpurpose
  cases hmove with
  | small hsmall =>
    cases hsmall with
    | quiet hquiet =>
      cases hquiet with
      | visit node rest => exact hvisit node rest
      | _ => exact h.congr rfl rfl rfl (List.Subset.refl _)
    | closing hclosing =>
      cases hclosing with
      | request req => exact hrequest req
      | _ => exact h.congr rfl rfl rfl (List.Subset.refl _)
    | _ => exact h.congr rfl rfl rfl (List.Subset.refl _)
  | _ => exact h.congr rfl rfl rfl (List.Subset.refl _)

lemma Asks.moves (h : Asks q₀ q) (hmoves : Query.Moves q q') : Asks q₀ q' := by
  induction hmoves with
  | refl => exact h
  | tail _ hmove ih => exact ih.move hmove

variable {cb : Callbacks} {lost : List Purpose} {s : QuerySystem} {w : Walk}

lemma Ledger.mem_walk (h : Ledger cb lost s w) {r : InflightRequest Tag}
    (hr : r ∈ s.socket.outstanding) {node : PendingNode}
    (hpurpose : purposeOf r = some (.visit node)) : node ∈ w.outstanding := by
  have hmem : Purpose.visit node ∈ purposes s.socket := by
    rw [purposes, List.reduceOption_mem_iff, List.mem_map]
    exact ⟨r, hr, hpurpose⟩
  refine h.visits.mem_iff.2 (List.mem_filterMap.2 ⟨.visit node, ?_, rfl⟩)
  simp [QuerySystem.entries, hmem]

lemma Ledger.visit_live (h : Ledger cb lost s w) (hout : s.query.outbox = [])
    {r : InflightRequest Tag} (hr : r ∈ s.socket.inflight) {node : PendingNode}
    (hpurpose : purposeOf r = some (.visit node)) :
    node.addr.hostPort ∈ s.query.seen.map Prod.fst ∧ ¬ s.query.Ended := by
  have hnode := h.mem_walk (mem_outstanding.2 (.inl hr)) hpurpose
  have hseen := h.rest.outstanding_seen node hnode
  have hlive := (h.rest.live_of_mem hnode).1
  rw [h.query_eq hout] at hseen hlive
  exact ⟨hseen, hlive⟩

lemma Ledger.response_moves (blake2b : List UInt8 → NodeId) (h : Ledger cb lost s w)
    (hout : s.query.outbox = []) (env : Query.Env) (tid : UInt16) (resp : Response) :
    ∃ inflight : ℤ, Query.Moves { s.query with inflight := inflight }
      (s.call blake2b cb (.response env tid resp)).query := by
  have hsame : Query.Moves s.query s.query := Relation.ReflTransGen.refl
  have hdispatching := h.rest.dispatching
  have hsettled := h.rest.settled
  have hsound := h.rest.sound
  rw [h.query_eq hout] at hdispatching hsettled hsound
  rw [QuerySystem.call]
  rcases onResponse_cases h.wellFormed tid with ⟨-, hnone⟩ | ⟨r, hr, -, hsome⟩
  · rw [hnone]
    exact ⟨s.query.inflight, hsame⟩
  · simp only [hsome, Option.bind_some]
    cases hpurpose : purposeOf r with
    | none =>
      rw [QuerySystem.answered_of_purposeOf blake2b (cb.install env) s.query resp hpurpose]
      exact ⟨s.query.inflight, hsame⟩
    | some purpose =>
      rw [onResponse_of_purposeOf hpurpose]
      cases purpose with
      | visit node =>
        obtain ⟨hseen, hlive⟩ := h.visit_live hout hr hpurpose
        exact ⟨s.query.inflight - 1, (@Query.onVisitResponse_spec blake2b (cb.install env)
          s.query.visitBack node hseen hlive hdispatching hsettled resp).1⟩
      | commit =>
        refine ⟨s.query.inflight, (Query.commitDone_closings (cb.install env) ?_
          hdispatching).smalls.moves⟩
        exact fun hone => hsound.commits_ended (by omega)

lemma Ledger.timeout_moves (blake2b : List UInt8 → NodeId) (h : Ledger cb lost s w)
    (hout : s.query.outbox = []) (env : Query.Env) (ptr : ℕ) :
    ∃ inflight : ℤ, Query.Moves { s.query with inflight := inflight }
      (s.call blake2b cb (.timeout env ptr)).query := by
  have hsame : Query.Moves s.query s.query := Relation.ReflTransGen.refl
  have hdispatching := h.rest.dispatching
  rw [h.query_eq hout] at hdispatching
  rw [QuerySystem.call]
  rcases onRequestTimeout_cases h.wellFormed ptr with
    ⟨-, hnone⟩ | ⟨r, hr, -, ⟨-, hretry⟩ | ⟨-, hgive⟩⟩
  · rw [hnone]
    exact ⟨s.query.inflight, hsame⟩
  · rw [hretry]
    exact ⟨s.query.inflight, hsame⟩
  · have htimeout : r.onTimeout = r.onResponse.bind Tag.timeout :=
      h.wired r (mem_outstanding.2 (.inl hr))
    simp only [hgive, Option.bind_some, htimeout]
    cases hpurpose : purposeOf r with
    | none =>
      rw [QuerySystem.timedOut_of_purposeOf (cb.install env) s.query hpurpose]
      exact ⟨s.query.inflight, hsame⟩
    | some purpose =>
      rw [onResponse_of_purposeOf hpurpose]
      cases purpose with
      | visit node =>
        obtain ⟨hseen, hlive⟩ := h.visit_live hout hr hpurpose
        exact ⟨s.query.inflight - 1, (@Query.onVisitTimeout_spec (cb.install env)
          s.query.visitBack node hseen hlive hdispatching).1.moves⟩
      | commit => exact ⟨s.query.inflight, hsame⟩

/-- **A call of the query takes small steps**, from where it was or with one visit fewer in flight. -/
lemma Ledger.call_moves (blake2b : List UInt8 → NodeId) (h : Ledger cb lost s w)
    (hout : s.query.outbox = []) (i : QuerySystem.Input) :
    ∃ inflight : ℤ, Query.Moves { s.query with inflight := inflight } (s.call blake2b cb i).query := by
  have hsame : Query.Moves s.query s.query := Relation.ReflTransGen.refl
  cases i with
  | addSeedNode node =>
    exact ⟨s.query.inflight, (Query.addSeedNode_quiets s.query node).smalls.moves⟩
  | addBootstrap env addr =>
    exact ⟨s.query.inflight,
      (Query.addPending_quiets (cb.install env) s.query ⟨NodeId.zero, addr⟩).smalls.moves⟩
  | start env =>
    rw [QuerySystem.call]
    split
    · exact ⟨s.query.inflight, hsame⟩
    · next hstarted =>
      have hnot : w.started = false := h.started.trans (by simpa using hstarted)
      have hlive := (h.rest.idle hnot).2
      have hdispatching := h.rest.dispatching
      rw [h.query_eq hout] at hlive hdispatching
      exact ⟨s.query.inflight, (Query.start_spec (cb.install env) hlive hdispatching).1.moves⟩
  | destroy env =>
    exact ⟨s.query.inflight, (Query.destroy_closings (cb.install env) s.query).smalls.moves⟩
  | response env tid resp => exact h.response_moves blake2b hout env tid resp
  | timeout env ptr => exact h.timeout_moves blake2b hout env ptr
  | _ => exact ⟨s.query.inflight, hsame⟩

lemma Asks.step (blake2b : List UInt8 → NodeId) (h : Ledger cb lost s w) (hasks : Asks q₀ s.query)
    (i : QuerySystem.Input) : Asks q₀ (s.step blake2b cb i).query := by
  unfold QuerySystem.step
  split
  · next hout =>
    obtain ⟨inflight, hmoves⟩ := h.call_moves blake2b hout i
    have hframe : Asks q₀ { s.query with inflight := inflight } :=
      hasks.congr rfl rfl rfl (List.Subset.refl _)
    exact hframe.moves hmoves
  · cases i with
    | issue =>
      show Asks q₀ s.issue.query
      unfold QuerySystem.issue
      split
      · exact hasks
      · next call rest hcons =>
        refine hasks.congr rfl rfl rfl ?_
        rw [hcons]
        exact List.subset_cons_self call rest
    | _ => exact hasks

/-- **Along every run the visits ask what the operation set.** -/
theorem asks_run (blake2b : List UInt8 → NodeId) (verify : Verify) (op : Operation)
    (hasOnReply hasOnDone : Bool) (firstTid : UInt16) (is : List QuerySystem.Input) :
    Asks (op.query blake2b hasOnReply hasOnDone)
      (Runs.run (QuerySystem.step blake2b (op.callbacks blake2b verify))
        (op.system blake2b verify hasOnReply hasOnDone firstTid) is).query := by
  have hfresh := ledger_init (op.target blake2b) op.command op.value
    (op.options blake2b hasOnReply hasOnDone) (op.callbacks blake2b verify) firstTid
  have hall := @Runs.run_invariant _ _ (QuerySystem.step blake2b (op.callbacks blake2b verify))
    (fun s => Beside blake2b (op.callbacks blake2b verify)
        (Walk.init (op.target blake2b) op.command op.value
          { op.options blake2b hasOnReply hasOnDone with
            hasOnCommit := (op.callbacks blake2b verify).commit.isSome }) s ∧
      Asks (op.query blake2b hasOnReply hasOnDone) s.query)
    (fun s i hs => by
      obtain ⟨hbeside, hasks⟩ := hs
      refine ⟨hbeside.step i, ?_⟩
      obtain ⟨_, _, hledger⟩ := hbeside
      exact Asks.step blake2b hledger hasks i)
    (op.system blake2b verify hasOnReply hasOnDone firstTid)
    ⟨⟨[], [], hfresh⟩, ⟨rfl, rfl, rfl, fun call hcall => by
      simp [Operation.system_query, Operation.query, Query.create] at hcall⟩⟩ is
  exact hall.2

/-! ## The answers -/

/-- A request as it arrives, with the transaction id that its socket gave it. The decoder refuses a
value that is too long. -/
def receive (tid : UInt16) (fromAddr : Ipv4Address) (fromServer : Bool) (req : Request) :
    Option Incoming :=
  if h : (req.value.getD []).length ≤ maxBufferDecode then
    some {
      tid, fromAddr, fromServer
      token := req.token
      command := req.command
      target := req.target
      value := req.value
      internal := req.internal
      valueFits := fun v hv => by simpa [hv] using h }
  else none

/-- The handlers of a persistent node, as a run of the machine has left them. -/
structure Serving (env : HandlerEnv) (s : RpcHandlers) : Prop where
  persistent : s.node.ephemeral = false
  isOpen : s.node.socket.closing = false
  reached : ∃ localId firstTid tokens config is,
    s = Runs.run (RpcHandlers.step env) (.init localId firstTid tokens config) is

/-- The answer has a token for the sender and the nodes closest to the target. -/
structure TokenAnswer (env : HandlerEnv) (s : RpcHandlers) (fromAddr : Ipv4Address) (target : NodeId)
    (resp : Response) : Prop where
  token : resp.token = some (s.tokens.create env fromAddr.hostString)
  closerNodes : resp.closerNodes = s.closestAddrs target

/-- Wherever and whenever the request is sent from, it is answered so, unless its sender is limited. -/
def AnsweredBy (env : HandlerEnv) (s : RpcHandlers) (target : NodeId) (req : Request) : Prop :=
  ∀ now id tid fromAddr fromServer, s.findNodeLimited now fromAddr = false →
    ∃ inc resp, receive tid fromAddr fromServer req = some inc ∧
      (s.onRequest env now id inc).2 = some resp ∧
      TokenAnswer env (s.heard env id inc) fromAddr target resp

/-- **Every visit is answered**: in every run of the operation every visit that is sent carries the
internal flag as the operation has set it, and every persistent node answers it with a token and the
nodes closest to the target. -/
def EveryVisitAnswered (op : Operation) : Prop :=
  ∀ env hasOnReply hasOnDone firstTid is,
    ∀ call ∈ (Runs.run (QuerySystem.step env.blake2b (op.callbacks env.blake2b env.verify))
        (op.system env.blake2b env.verify hasOnReply hasOnDone firstTid) is).query.outbox,
      ∀ node, call.purpose = .visit node →
        call.request.internal = (op.query env.blake2b hasOnReply hasOnDone).internal ∧
          ∀ s, Serving env s → AnsweredBy env s (op.target env.blake2b) call.request

section Handlers

variable {env : HandlerEnv} {h : RpcHandlers} {req : Incoming} {target : NodeId}

lemma tokenAnswer_makeQueryResponse (htarget : req.target = some target) :
    TokenAnswer env h req.fromAddr target (h.makeQueryResponse env req) :=
  ⟨rfl, by rw [RpcHandlers.makeQueryResponse, htarget]⟩

lemma TokenAnswer.withValue {resp : Response} {fromAddr : Ipv4Address}
    (hresp : TokenAnswer env h fromAddr target resp) (value : Option (List UInt8)) :
    TokenAnswer env h fromAddr target { resp with value } :=
  ⟨hresp.token, hresp.closerNodes⟩

lemma handleFindPeer_answers (htarget : req.target = some target) :
    ∃ resp, (h.handleFindPeer env req).2 = some resp ∧
      TokenAnswer env h req.fromAddr target resp := by
  have hbase := @tokenAnswer_makeQueryResponse env h req target htarget
  simp only [RpcHandlers.handleFindPeer, htarget]
  split
  · exact ⟨_, rfl, hbase.withValue _⟩
  · split
    · exact ⟨_, rfl, hbase⟩
    · exact ⟨_, rfl, hbase.withValue _⟩

lemma handleLookup_answers (htarget : req.target = some target) :
    ∃ resp, (h.handleLookup env req).2 = some resp ∧
      TokenAnswer env h req.fromAddr target resp := by
  have hbase := @tokenAnswer_makeQueryResponse env h req target htarget
  simp only [RpcHandlers.handleLookup, htarget]
  split
  · exact ⟨_, rfl, hbase⟩
  · exact ⟨_, rfl, hbase.withValue _⟩

lemma handleMutableGet_answers {value : List UInt8} (htarget : req.target = some target)
    (hvalue : req.value = some value) :
    ∃ resp, (h.handleMutableGet env req).2 = some resp ∧
      TokenAnswer env h req.fromAddr target resp := by
  have hbase := @tokenAnswer_makeQueryResponse env h req target htarget
  simp only [RpcHandlers.handleMutableGet, htarget, hvalue]
  split
  · exact ⟨_, rfl, hbase⟩
  · split
    · exact ⟨_, rfl, hbase.withValue _⟩
    · exact ⟨_, rfl, hbase⟩

lemma handleImmutableGet_answers (htarget : req.target = some target) :
    ∃ resp, (h.handleImmutableGet env req).2 = some resp ∧
      TokenAnswer env h req.fromAddr target resp := by
  have hbase := @tokenAnswer_makeQueryResponse env h req target htarget
  simp only [RpcHandlers.handleImmutableGet, htarget]
  exact ⟨_, rfl, hbase.withValue _⟩

lemma onRequest_storage (hpersistent : h.node.ephemeral = false)
    (hopen : h.node.socket.closing = false) (now : UInt64) (id : Option NodeId)
    (hinternal : req.internal = false)
    (hconn : ¬ (req.command = cmdPeerHandshake ∨ req.command = cmdPeerHolepunch)) :
    h.onRequest env now id req = (h.heard env id req).handleStorage env now req := by
  have hheard : (h.heard env id req).node.ephemeral = false :=
    RpcNode.onRecv_ephemeral hpersistent _ _ _
  rw [RpcHandlers.onRequest, if_neg (by simp [hopen]), RpcHandlers.handle,
    if_neg (by simp [hinternal]), if_neg hconn, if_neg (by simp [hheard])]

end Handlers

lemma answeredBy_of_lookup {env : HandlerEnv} {h : RpcHandlers} (hserving : Serving env h)
    {req : Request} {target : NodeId} (hinternal : req.internal = false)
    (htarget : req.target = some target) (hfits : (req.value.getD []).length ≤ maxBufferDecode)
    (hcommand : req.command = cmdFindPeer ∨ req.command = cmdLookup ∨
      (req.command = cmdMutableGet ∧ ∃ value, req.value = some value) ∨
      req.command = cmdImmutableGet) : AnsweredBy env h target req := by
  intro now id tid fromAddr fromServer _
  set inc : Incoming := {
    tid, fromAddr, fromServer
    token := req.token
    command := req.command
    target := req.target
    value := req.value
    internal := req.internal
    valueFits := fun v hv => by simpa [hv] using hfits } with hinc
  have hreceive : receive tid fromAddr fromServer req = some inc := by
    rw [receive, dif_pos hfits]
  have hcommand' : inc.command = req.command := rfl
  have hstorage := @onRequest_storage env h inc hserving.persistent hserving.isOpen now id
    hinternal
    (by rcases hcommand with hc | hc | ⟨hc, -⟩ | hc <;> rw [hcommand', hc] <;> decide)
  have hanswer : ∃ resp, ((h.heard env id inc).handleStorage env now inc).2 = some resp ∧
      TokenAnswer env (h.heard env id inc) fromAddr target resp := by
    rw [RpcHandlers.handleStorage, hcommand']
    rcases hcommand with hc | hc | ⟨hc, value, hvalue⟩ | hc
    · rw [if_pos hc]
      exact handleFindPeer_answers htarget
    · rw [if_neg (by rw [hc]; decide), if_pos hc]
      exact handleLookup_answers htarget
    · rw [if_neg (by rw [hc]; decide), if_neg (by rw [hc]; decide), if_neg (by rw [hc]; decide),
        if_neg (by rw [hc]; decide), if_neg (by rw [hc]; decide), if_pos hc]
      exact handleMutableGet_answers htarget hvalue
    · rw [if_neg (by rw [hc]; decide), if_neg (by rw [hc]; decide), if_neg (by rw [hc]; decide),
        if_neg (by rw [hc]; decide), if_neg (by rw [hc]; decide), if_neg (by rw [hc]; decide),
        if_neg (by rw [hc]; decide), if_pos hc]
      exact handleImmutableGet_answers htarget
  obtain ⟨resp, hresp, htoken⟩ := hanswer
  exact ⟨inc, resp, hreceive, by rw [hstorage, hresp], htoken⟩

lemma not_answeredBy_announce {env : HandlerEnv} {h : RpcHandlers} (hserving : Serving env h)
    {req : Request} {target target' : NodeId} (hinternal : req.internal = false)
    (htarget : req.target = some target') (hcommand : req.command = cmdAnnounce)
    (htoken : req.token = none) (hfree : ∃ now fromAddr, h.findNodeLimited now fromAddr = false) :
    ¬ AnsweredBy env h target req := by
  intro hanswered
  obtain ⟨now, fromAddr, hlimited⟩ := hfree
  obtain ⟨inc, resp, hreceive, hresp, -⟩ := hanswered now none 0 fromAddr true hlimited
  rw [receive] at hreceive
  split at hreceive
  · have hfields : inc.command = req.command ∧ inc.internal = req.internal ∧
        inc.target = req.target ∧ inc.token = req.token := by
      rw [← Option.some.inj hreceive]
      exact ⟨rfl, rfl, rfl, rfl⟩
    obtain ⟨h1, h2, h3, h4⟩ := hfields
    rw [hcommand] at h1
    rw [onRequest_storage hserving.persistent hserving.isOpen now none (h2.trans hinternal)
      (by rw [h1]; decide), RpcHandlers.handleStorage, if_neg (by rw [h1]; decide),
      if_neg (by rw [h1]; decide), if_pos h1] at hresp
    simp [RpcHandlers.handleAnnounce, h3, h4, htarget, htoken] at hresp
  · simp at hreceive

/-! ## The operations -/

lemma visit_request {op : Operation} {env : HandlerEnv} {hasOnReply hasOnDone : Bool}
    {firstTid : UInt16} {is : List QuerySystem.Input} {call : Call} {node : PendingNode}
    (hcall : call ∈ (Runs.run (QuerySystem.step env.blake2b (op.callbacks env.blake2b env.verify))
      (op.system env.blake2b env.verify hasOnReply hasOnDone firstTid) is).query.outbox)
    (hpurpose : call.purpose = .visit node) :
    call.request = {
      toAddr := node.addr, command := op.command, target := some (op.target env.blake2b)
      value := op.value } :=
  (asks_run env.blake2b env.verify op hasOnReply hasOnDone firstTid is).visits call hcall node
    hpurpose

lemma closest_empty (id target : NodeId) (count : ℕ) :
    ({ id } : Table).closest target count = [] := by
  have hnone : ∀ l : List Bucket, (∀ b ∈ l, b.nodes = []) → l.flatMap Bucket.nodes = [] :=
    fun l hl => List.flatMap_eq_nil_iff.2 hl
  have hempty : ∀ b ∈ ({ id } : Table).bucketList, b.nodes = [] := by
    intro b hb
    obtain ⟨i, -, rfl⟩ := List.mem_map.1 hb
    rfl
  simp only [Table.closest]
  rw [hnone _ fun b hb => hempty b (List.mem_of_mem_drop hb),
    hnone _ fun b hb => hempty b (List.mem_of_mem_take (List.mem_reverse.1 hb))]
  simp

def emptyEnv : Query.Env where
  table := { id := NodeId.zero }

lemma start_addBootstrap_outbox {env : Query.Env} (hempty : ∀ target count,
    env.table.closest target count = []) (hfilter : ∀ id addr, env.filterAccept id addr = true)
    (target : NodeId) (command : UInt32) (value : Option (List UInt8)) (opts : Query.Options)
    (hconcurrency : 0 < opts.concurrency) (addr : Ipv4Address) :
    (((Query.create target command value opts).addBootstrap env addr).start env).outbox =
      [Call.mk (.visit ⟨NodeId.zero, addr⟩)
        { toAddr := addr, command, target := some target, value }] := by
  have hadded : (Query.create target command value opts).addBootstrap env addr =
      { Query.create target command value opts with
        seen := [(addr.hostPort, .pending)]
        pending := [⟨NodeId.zero, addr⟩]
        trace := [.accepted ⟨NodeId.zero, addr⟩] } := by
    simp [Query.addBootstrap, Query.addPending, Query.create, Query.emit, Query.setSeen, hfilter,
      maxSeen]
  rw [hadded]
  -- the frontier is short, but the table has nobody to offer
  simp [Query.start, Query.takeSeeds, Query.topUp, Query.seedFromTable, K, hempty,
    Query.create, Query.readMore, readMoreFuel, Query.readMoreAt, Query.emit, Query.popLoop,
    Query.effectiveConcurrency, hconcurrency, Query.visit, Query.visitRequest,
    Query.engageSlowdown]

lemma run_addBootstrap_start (blake2b : List UInt8 → NodeId) (cb : Callbacks) {s : QuerySystem}
    (hout : s.query.outbox = []) (hstarted : s.started = false) (env : Query.Env)
    (addr : Ipv4Address) :
    (Runs.run (QuerySystem.step blake2b cb) s [.addBootstrap env addr, .start env]).query =
      (s.query.addBootstrap (cb.install env) addr).start (cb.install env) := by
  have hadded : (s.query.addBootstrap (cb.install env) addr).outbox = [] := by
    rw [Query.addBootstrap, Query.addPending_outbox, hout]
  simp [Runs.run, QuerySystem.step, QuerySystem.call, hout, hadded, hstarted]

lemma exists_visit (blake2b : List UInt8 → NodeId) (verify : Verify) (op : Operation)
    (addr : Ipv4Address) :
    ∃ call ∈ (Runs.run (QuerySystem.step blake2b (op.callbacks blake2b verify))
      (op.system blake2b verify false false 1)
      [.addBootstrap emptyEnv addr, .start emptyEnv]).query.outbox,
      call.purpose = .visit ⟨NodeId.zero, addr⟩ := by
  have hconcurrency : (0 : ℤ) < (op.options blake2b false false).concurrency := by
    cases op <;> simp [Operation.options, Operation.isBackground, backgroundConcurrency]
  have hsent := @start_addBootstrap_outbox ((op.callbacks blake2b verify).install emptyEnv)
    (closest_empty NodeId.zero) (fun _ _ => rfl) (op.target blake2b) op.command op.value
    (op.options blake2b false false) hconcurrency addr
  rw [run_addBootstrap_start blake2b (op.callbacks blake2b verify) rfl rfl,
    Operation.system_query, Operation.query, hsent]
  exact ⟨_, List.mem_singleton_self _, rfl⟩

lemma everyVisitAnswered_of_lookup {op : Operation} (hbackground : op.isBackground = false)
    (hannounce : ∀ target value, op ≠ .announce target value) : EveryVisitAnswered op := by
  intro env hasOnReply hasOnDone firstTid is call hcall node hpurpose
  rw [visit_request hcall hpurpose]
  refine ⟨hbackground.symm, fun h hserving => answeredBy_of_lookup hserving rfl rfl ?_ ?_⟩
  · -- the longest value is a number of nine bytes
    have hnumber : ∀ v : UInt64, (uintEncode v).length ≤ maxBufferDecode :=
      fun v => (length_uintEncode_le v).trans (by decide)
    cases op with
    | announce target value => exact absurd rfl (hannounce target value)
    | mutablePut => exact hnumber 0
    | mutableGet publicKey minSeq => exact hnumber minSeq
    | _ => exact Nat.zero_le _
  · cases op with
    | findPeer => exact .inl rfl
    | lookup => exact .inr (.inl rfl)
    | announce target value => exact absurd rfl (hannounce target value)
    | immutablePut | immutableGet => exact .inr (.inr (.inr rfl))
    | mutablePut | mutableGet => exact .inr (.inr (.inl ⟨rfl, _, rfl⟩))
    | bootstrapWalk | refresh => cases hbackground

lemma not_everyVisitAnswered_background {op : Operation} (h : op.isBackground = true) :
    ¬ EveryVisitAnswered op := by
  intro hall
  obtain ⟨call, hcall, hpurpose⟩ :=
    exists_visit namedSignerEnv.blake2b namedSignerEnv.verify op someAddr
  have hflag := (hall namedSignerEnv false false 1 _ call hcall _ hpurpose).1
  rw [visit_request hcall hpurpose] at hflag
  exact absurd (hflag.trans h) Bool.false_ne_true

def servingHandlers : RpcHandlers :=
  Runs.run (RpcHandlers.step namedSignerEnv) freshHandlers becomePersistent

set_option maxRecDepth 10000 in
lemma serving_servingHandlers : Serving namedSignerEnv servingHandlers where
  persistent := by decide +kernel
  isOpen := by decide +kernel
  reached := ⟨NodeId.zero, 1, someTokens, {}, becomePersistent, rfl⟩

lemma not_everyVisitAnswered_announce (target : NodeId) (value : List UInt8) :
    ¬ EveryVisitAnswered (.announce target value) := by
  intro hall
  obtain ⟨call, hcall, hpurpose⟩ := exists_visit namedSignerEnv.blake2b namedSignerEnv.verify
    (.announce target value) someAddr
  have hanswered := (hall namedSignerEnv false false 1 _ call hcall _ hpurpose).2 servingHandlers
    serving_servingHandlers
  rw [visit_request hcall hpurpose] at hanswered
  have hfree : servingHandlers.findNodeLimited 0 someAddr = false := by decide +kernel
  exact not_answeredBy_announce serving_servingHandlers rfl rfl rfl rfl ⟨0, someAddr, hfree⟩
    hanswered

/-- **Which operations have all their visits answered**: those whose visits are lookups, but neither
announcements nor the walks that a node starts for itself.

**Proof sketch.** Along every run the visits ask what the operation has set, with neither a token nor
the internal flag; a persistent node answers all commands but `ANNOUNCE` without a token. -/
theorem everyVisitAnswered_iff (op : Operation) :
    EveryVisitAnswered op ↔
      op.isBackground = false ∧ ∀ target value, op ≠ .announce target value := by
  constructor
  · intro hall
    constructor
    · cases hbackground : op.isBackground with
      | false => rfl
      | true => exact absurd hall (not_everyVisitAnswered_background hbackground)
    · rintro target value rfl
      exact not_everyVisitAnswered_announce target value hall
  · rintro ⟨hbackground, hannounce⟩
    exact everyVisitAnswered_of_lookup hbackground hannounce

/-- **An announcement finds no nodes**: a persistent node answers none of its visits. And the visits
of a walk towards the own id go out without the internal flag. -/
theorem announce_not_answered :
    ¬ EveryVisitAnswered (.announce someTarget (signedMessage 9)) ∧
      ¬ EveryVisitAnswered (.bootstrapWalk NodeId.zero) :=
  ⟨not_everyVisitAnswered_announce someTarget (signedMessage 9),
    not_everyVisitAnswered_background rfl⟩

end HyperDHT.Ops
