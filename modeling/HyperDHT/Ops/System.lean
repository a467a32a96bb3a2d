import Mathlib.Data.List.ReduceOption
import HyperDHT.Ops.Commits
import HyperDHT.Query.Completeness
import HyperDHT.Rpc.Moves

/-!
# A query on its socket

A query and the socket that carries its requests, as one machine. The socket may be congested, may
refuse a request, may give one up or drop it; others send their requests on it. The counters of the
query are compared with the requests that the socket holds for it.

## Main definitions

* `Ops.QuerySystem` — a query, and the socket with its requests and those of others.
* `Ops.QuerySystem.step` — the machine.
* `Ops.Ledger` — the machine beside the walk of its query, and the requests that were lost.
* `Ops.QuerySystem.Loses` — the inputs at which a request is lost.

## Main results

* `Ops.ledger_step` — every input of the machine is an input of the walk or none, and at some inputs
  requests are lost.

## Design

A call of the query hands its requests over one by one after it has returned: the socket takes a
request without calling back, and the query does not read what it returns. While there are requests
to hand over, nothing else happens.
-/

set_option autoImplicit false

namespace HyperDHT.Ops

open Compact Routing Rpc
open scoped List

/-! ## The machine -/

/-- Whose completion a callback of the socket is. -/
inductive Tag where
  | query (purpose : Purpose)
  | other
  deriving DecidableEq

/-- A query on its socket. -/
structure QuerySystem where
  query : Query
  /-- Whether `start()` was called. -/
  started : Bool := false
  socket : RpcSocket Tag

/-- The callback for the timeout of a request. The commit functions pass none. -/
def timeoutTag : Purpose → Option Tag
  | .visit node => some (.query (.visit node))
  | .commit => none

namespace QuerySystem

/-- What may happen: the owner of the query configures, starts or destroys it; the next request is
handed to the socket; the network and the timers of the socket; another owner of the socket sends or
cancels a request, or closes the socket. -/
inductive Input where
  | addSeedNode (node : PendingNode)
  | addBootstrap (env : Query.Env) (addr : Ipv4Address)
  | start (env : Query.Env)
  | destroy (env : Query.Env)
  | issue
  | response (env : Query.Env) (tid : UInt16) (resp : Response)
  | timeout (env : Query.Env) (ptr : ℕ)
  | drainTick
  | request (req : Request) (timeoutOverrideMs : UInt64) (retries : ℕ)
  | cancel (tid : UInt16)
  | close

/-- The next request of the query is handed to the socket. -/
def issue (s : QuerySystem) : QuerySystem :=
  match s.query.outbox with
  | [] => s
  | call :: rest =>
    { s with
      query := { s.query with outbox := rest }
      socket := (s.socket.request call.request (some (.query call.purpose))
        (timeoutTag call.purpose)).1 }

/-- What the callback for a response does. -/
def answered (blake2b : List UInt8 → NodeId) (env : Query.Env) (q : Query) (resp : Response) :
    Option Tag → Query
  | some (.query (.visit node)) => q.visitAnswered blake2b env node resp
  | some (.query .commit) => q.commitDone env
  | _ => q

/-- What the callback for a timeout does. -/
def timedOut (env : Query.Env) (q : Query) : Option Tag → Query
  | some (.query (.visit node)) => q.visitTimedOut env node
  | _ => q

/-- An input other than the handing over of a request. -/
def call (blake2b : List UInt8 → NodeId) (cb : Callbacks) (s : QuerySystem) : Input → QuerySystem
  | .addSeedNode node => { s with query := s.query.addSeedNode node }
  | .addBootstrap env addr => { s with query := s.query.addBootstrap (cb.install env) addr }
  | .start env =>
    if s.started then s
    else { s with started := true, query := s.query.start (cb.install env) }
  | .destroy env => { s with query := s.query.destroy (cb.install env) }
  | .issue => s
  | .response env tid resp =>
    { s with
      socket := (s.socket.onResponse tid).1
      query := answered blake2b (cb.install env) s.query resp
        ((s.socket.onResponse tid).2.bind (·.onResponse)) }
  | .timeout env ptr =>
    { s with
      socket := (s.socket.onRequestTimeout ptr).1
      query := timedOut (cb.install env) s.query
        ((s.socket.onRequestTimeout ptr).2.bind (·.onTimeout)) }
  | .drainTick => { s with socket := s.socket.onDrainTick }
  | .request req timeoutOverrideMs retries =>
    { s with
      socket := (s.socket.requestWith req timeoutOverrideMs retries (some .other)
        (some .other)).1 }
  | .cancel tid => { s with socket := (s.socket.cancelRequest tid).1 }
  | .close => { s with socket := s.socket.close }

/-- The machine after an input. -/
def step (blake2b : List UInt8 → NodeId) (cb : Callbacks) (s : QuerySystem) (i : Input) :
    QuerySystem :=
  if s.query.outbox = [] then s.call blake2b cb i
  else
    match i with
    | .issue => s.issue
    | _ => s

/-- A fresh query on a fresh socket. -/
def init (target : NodeId) (command : UInt32) (value : Option (List UInt8)) (opts : Query.Options)
    (cb : Callbacks) (firstTid : UInt16) : QuerySystem where
  query := Query.create target command value { opts with hasOnCommit := cb.commit.isSome }
  socket := RpcSocket.init Tag firstTid

end QuerySystem

/-- The query of an operation on a fresh socket, with the callbacks that the operation installs. -/
def Operation.system (blake2b : List UInt8 → NodeId) (verify : Handlers.Verify) (op : Operation)
    (hasOnReply hasOnDone : Bool) (firstTid : UInt16) : QuerySystem :=
  .init (op.target blake2b) op.command op.value (op.options blake2b hasOnReply hasOnDone)
    (op.callbacks blake2b verify) firstTid

lemma Operation.system_query (blake2b : List UInt8 → NodeId) (verify : Handlers.Verify)
    (op : Operation) (hasOnReply hasOnDone : Bool) (firstTid : UInt16) :
    (op.system blake2b verify hasOnReply hasOnDone firstTid).query =
      op.query blake2b hasOnReply hasOnDone := rfl

/-! ## The requests of the query -/

/-- The purpose of a callback of the query. -/
def Tag.purpose : Tag → Option Purpose
  | .query purpose => some purpose
  | .other => none

/-- The purpose of a request object of the query. -/
def purposeOf (r : InflightRequest Tag) : Option Purpose := r.onResponse.bind Tag.purpose

/-- The purposes of the requests that the socket holds for the query. -/
def purposes (s : RpcSocket Tag) : List Purpose := (s.outstanding.map purposeOf).reduceOption

/-- The visits among them. -/
def nodesOf (ps : List Purpose) : List PendingNode :=
  ps.filterMap fun
    | .visit node => some node
    | .commit => none

/-- The callback for the timeout that goes with a callback for the response. -/
def Tag.timeout : Tag → Option Tag
  | .query purpose => timeoutTag purpose
  | .other => some .other

/-- The callbacks of a request object belong together. -/
def Wired (r : InflightRequest Tag) : Prop := r.onTimeout = r.onResponse.bind Tag.timeout

variable {socket socket' : RpcSocket Tag} {r : InflightRequest Tag}

@[simp] lemma nodesOf_append (a b : List Purpose) : nodesOf (a ++ b) = nodesOf a ++ nodesOf b :=
  List.filterMap_append

@[simp] lemma nodesOf_map_purpose (calls : List Call) :
    nodesOf (calls.map (·.purpose)) = Walk.visitsOf calls := by
  simp only [nodesOf, Walk.visitsOf, List.filterMap_map]
  rfl

lemma length_eq_nodesOf_add_count (ps : List Purpose) :
    ps.length = (nodesOf ps).length + ps.count .commit := by
  induction ps with
  | nil => rfl
  | cons p ps ih =>
    cases p with
    | visit node =>
      simp only [nodesOf, List.length_cons, List.filterMap_cons] at ih ⊢
      simp
      omega
    | commit =>
      simp only [nodesOf, List.length_cons, List.filterMap_cons] at ih ⊢
      simp
      omega

lemma purposes_of_map (h : socket'.outstanding.map purposeOf = socket.outstanding.map purposeOf) :
    purposes socket' = purposes socket :=
  congrArg List.reduceOption h

lemma purposes_destroyRequest (h : WellFormed socket) (hr : r ∈ socket.inflight)
    (log : List Event) :
    purposes socket ~
      (purposeOf r).toList ++ purposes { socket.destroyRequest r with log := log } := by
  have hdestroy : (socket.destroyRequest r).outstanding =
      SwapPop.remove (fun b => b.ptr = r.ptr) socket.inflight ++ socket.pending := by
    simp [RpcSocket.destroyRequest, h.live r (mem_outstanding.2 (.inl hr)), RpcSocket.outstanding]
  have hperm := ((resolve_outstanding h hr).map purposeOf).symm.filterMap id
  rw [List.map_cons, ← hdestroy] at hperm
  refine hperm.trans (List.Perm.of_eq ?_)
  cases purposeOf r <;> rfl

lemma onResponse_of_purposeOf {purpose : Purpose} (h : purposeOf r = some purpose) :
    r.onResponse = some (.query purpose) := by
  obtain ⟨tag, htag, hpurpose⟩ := Option.bind_eq_some_iff.1 h
  cases tag with
  | query _ => rw [htag, Option.some.inj hpurpose]
  | other => cases hpurpose

lemma QuerySystem.answered_of_purposeOf (blake2b : List UInt8 → NodeId) (env : Query.Env) (q : Query)
    (resp : Response) (h : purposeOf r = none) :
    QuerySystem.answered blake2b env q resp r.onResponse = q := by
  cases hcallback : r.onResponse with
  | none => rfl
  | some tag =>
    cases tag with
    | query _ => simp [purposeOf, hcallback, Tag.purpose] at h
    | other => rfl

lemma QuerySystem.timedOut_of_purposeOf (env : Query.Env) (q : Query) (h : purposeOf r = none) :
    QuerySystem.timedOut env q (r.onResponse.bind Tag.timeout) = q := by
  cases hcallback : r.onResponse with
  | none => rfl
  | some tag =>
    cases tag with
    | query _ => simp [purposeOf, hcallback, Tag.purpose] at h
    | other => rfl

lemma wired_of_quiets (hquiets : Quiets socket socket') (h : WellFormed socket)
    (hwired : ∀ r ∈ socket.outstanding, Wired r) : ∀ r ∈ socket'.outstanding, Wired r := by
  intro r hr
  obtain ⟨b, hb, n, rfl⟩ := hquiets.exists_outstanding h hr
  exact hwired b hb

lemma requestWith_purposes (h : WellFormed socket) (hwired : ∀ r ∈ socket.outstanding, Wired r)
    {onResponse onTimeout : Option Tag}
    (hmatch : onTimeout = onResponse.bind Tag.timeout) (req : Request)
    (timeoutOverrideMs : UInt64) (retries : ℕ) :
    let socket' := (socket.requestWith req timeoutOverrideMs retries onResponse onTimeout).1
    WellFormed socket' ∧ (∀ r ∈ socket'.outstanding, Wired r) ∧
      (socket.Refuses ∧ purposes socket' = purposes socket ∨ ¬ socket.Refuses ∧
        purposes socket' ~ (onResponse.bind Tag.purpose).toList ++ purposes socket) := by
  have hresult := requestWith_requested socket req timeoutOverrideMs retries onResponse onTimeout
  intro socket'
  refine ⟨(hresult.moves h).wellFormed h, fun b hb => ?_, ?_⟩
  · rcases hresult.outstanding_cases h with ⟨-, -, hsame, -⟩ | ⟨-, -, r, -, hr1, hr2, -, -, hall⟩
    · exact hwired b (hsame ▸ hb)
    · obtain ⟨c, hc, n, rfl⟩ := hall b hb
      rcases List.mem_cons.1 hc with rfl | hc
      · rw [Wired, hr1, hr2]
        exact hmatch
      · exact hwired c hc
  · rcases hresult.map_outstanding purposeOf (fun _ => rfl) h with ⟨hrefuses, hsame⟩ |
      ⟨haccepts, r, hr1, hperm⟩
    · exact .inl ⟨hrefuses, purposes_of_map hsame⟩
    · refine .inr ⟨haccepts, (hperm.filterMap id).trans (List.Perm.of_eq ?_)⟩
      simp only [purposeOf, hr1]
      cases onResponse.bind Tag.purpose <;> rfl

/-! ## The ledger -/

namespace QuerySystem

/-- The requests of the query that the socket holds or is about to get. -/
def entries (s : QuerySystem) : List Purpose :=
  purposes s.socket ++ s.query.outbox.map (·.purpose)

end QuerySystem

/-- The query once its requests are handed over. -/
def handedOver (q : Query) : Query := { q with outbox := [] }

/-- The machine beside the walk of its query. What the walk waits for and the query counts are the
requests with the socket, those on the way to it, and those that were lost. -/
structure Ledger (cb : Callbacks) (lost : List Purpose) (s : QuerySystem) (w : Walk) : Prop where
  rest : w.Rest
  progress : w.Progress
  query : w.query = handedOver s.query
  started : w.started = s.started
  wellFormed : WellFormed s.socket
  wired : ∀ r ∈ s.socket.outstanding, Wired r
  visits : w.outstanding ~ nodesOf (s.entries ++ lost)
  commits : Commits cb ((purposes s.socket ++ lost).count .commit) s.query

variable {cb : Callbacks} {lost lost' : List Purpose} {s s' : QuerySystem} {w : Walk}

lemma Ledger.query_eq (h : Ledger cb lost s w) (hout : s.query.outbox = []) :
    w.query = s.query := by
  rw [h.query, handedOver, ← hout]

lemma Ledger.frame (h : Ledger cb lost s w)
    (hquery : handedOver s'.query = handedOver s.query) (hstarted : s'.started = s.started)
    (hwell : WellFormed s'.socket)
    (hwired : ∀ r ∈ s'.socket.outstanding, Wired r)
    (hentries : s.entries ++ lost ~ s'.entries ++ lost') : Ledger cb lost' s' w where
  rest := h.rest
  progress := h.progress
  query := h.query.trans hquery.symm
  started := h.started.trans hstarted.symm
  wellFormed := hwell
  wired := hwired
  visits := h.visits.trans (hentries.filterMap _)
  commits := by
    have hcount := hentries.count_eq .commit
    simp only [QuerySystem.entries, List.count_append] at hcount
    have hinflight : s'.query.commitInflight = s.query.commitInflight :=
      (congrArg Query.commitInflight hquery :)
    have hcommitting : s'.query.committing = s.query.committing :=
      (congrArg Query.committing hquery :)
    have hdone : s'.query.done = s.query.done := (congrArg Query.done hquery :)
    have hhas : s'.query.hasOnCommit = s.query.hasOnCommit := (congrArg Query.hasOnCommit hquery :)
    have hold := h.commits
    refine ⟨hhas.trans hold.hasOnCommit, ?_, ?_, ?_⟩
    · have hc := hold.count
      simp only [commitCalls, List.count_append] at hc ⊢
      rw [hinflight, hc]
      push_cast
      omega
    · rw [hcommitting, hinflight]
      exact hold.idle
    · rw [hcommitting, hdone, hinflight]
      exact hold.busy

lemma Ledger.settle {q : Query} {started : Bool} {w₁ : Walk} (hrest : (w₁.settle q).Rest)
    (hprogress : (w₁.settle q).Progress) (hstarted : w₁.started = started)
    (hwell : WellFormed socket) (hwired : ∀ r ∈ socket.outstanding, Wired r)
    (hvisits : w₁.outstanding ~ nodesOf (purposes socket ++ lost))
    (hcommits : Commits cb ((purposes socket ++ lost).count .commit) q) :
    Ledger cb lost { query := q, started, socket } (w₁.settle q) where
  rest := hrest
  progress := hprogress
  query := rfl
  started := hstarted
  wellFormed := hwell
  wired := hwired
  visits := by
    have hsent : w₁.outstanding ++ Walk.visitsOf q.outbox ~
        nodesOf (purposes socket ++ lost) ++ Walk.visitsOf q.outbox := hvisits.append_right _
    refine hsent.trans ?_
    simp only [QuerySystem.entries, nodesOf_append, nodesOf_map_purpose, List.append_assoc]
    exact (List.perm_append_comm).append_left _
  commits := hcommits

/-! ## What an input does to the ledger -/

section Steps

variable (blake2b : List UInt8 → NodeId)

lemma Ledger.visits_of_nil (h : Ledger cb lost s w) (hout : s.query.outbox = []) :
    w.outstanding ~ nodesOf (purposes s.socket ++ lost) := by
  simpa [QuerySystem.entries, hout] using h.visits

lemma Ledger.socket_of_quiets (h : Ledger cb lost s w) (hquiets : Quiets s.socket socket) :
    WellFormed socket ∧ ∀ r ∈ socket.outstanding, Wired r :=
  ⟨hquiets.wellFormed h.wellFormed, wired_of_quiets hquiets h.wellFormed h.wired⟩

lemma Ledger.owner (h : Ledger cb lost s w) (hout : s.query.outbox = []) (q : Query)
    (started : Bool) (i : HyperDHT.Input)
    (hstep : w.step blake2b i = Walk.settle { w with started := started } q)
    (hcommits : Commits cb ((purposes s.socket ++ lost).count .commit) q) :
    Ledger cb lost { s with query := q, started } (w.step blake2b i) := by
  have hrest := Walk.rest_step blake2b h.rest i
  have hprogress := Walk.progress_step blake2b h.rest h.progress i
  rw [hstep] at hrest hprogress ⊢
  exact .settle hrest hprogress rfl h.wellFormed h.wired (h.visits_of_nil hout) hcommits

lemma Ledger.visitBack (h : Ledger cb lost s w) (hout : s.query.outbox = []) {node : PendingNode}
    (hwell : WellFormed socket) (hwired : ∀ r ∈ socket.outstanding, Wired r)
    (hperm : purposes s.socket ~ .visit node :: purposes socket) (q : Query)
    (next : ℕ → HyperDHT.Input)
    (hstep : ∀ k, w.outstanding[k]? = some node → w.step blake2b (next k) =
      Walk.settle { w with outstanding := w.outstanding.eraseIdx k } q)
    (hcommits : node.addr.hostPort ∈ w.query.seenKeys → ¬ w.query.Ended →
      Commits cb ((purposes s.socket ++ lost).count .commit) q) :
    ∃ i, Ledger cb lost { s with query := q, socket } (w.step blake2b i) := by
  have hvisits : w.outstanding ~ node :: nodesOf (purposes socket ++ lost) :=
    (h.visits_of_nil hout).trans ((hperm.append_right lost).filterMap _)
  have hnode : node ∈ w.outstanding := hvisits.mem_iff.2 List.mem_cons_self
  obtain ⟨k, hlt, hget⟩ := List.mem_iff_getElem.1 hnode
  have hk : w.outstanding[k]? = some node := List.getElem?_eq_some_iff.2 ⟨hlt, hget⟩
  have hothers : w.outstanding.eraseIdx k ~ nodesOf (purposes socket ++ lost) := by
    have herase := List.getElem_cons_eraseIdx_perm hlt
    rw [hget] at herase
    exact (herase.trans hvisits).cons_inv
  have hcount : (purposes s.socket ++ lost).count .commit =
      (purposes socket ++ lost).count .commit := by
    rw [(hperm.append_right lost).count_eq]
    simp
  have hrest := Walk.rest_step blake2b h.rest (next k)
  have hprogress := Walk.progress_step blake2b h.rest h.progress (next k)
  refine ⟨next k, ?_⟩
  rw [hstep k hk] at hrest hprogress ⊢
  refine .settle hrest hprogress h.started hwell hwired hothers ?_
  rw [← hcount]
  exact hcommits (h.rest.outstanding_seen node hnode) (h.rest.live_of_mem hnode).1

lemma Ledger.commitBack (h : Ledger cb lost s w) (hout : s.query.outbox = [])
    (hwell : WellFormed socket) (hwired : ∀ r ∈ socket.outstanding, Wired r)
    (hperm : purposes s.socket ~ .commit :: purposes socket) (env : Query.Env) :
    Ledger cb lost { s with query := s.query.commitDone env, socket }
      (w.step blake2b (.commitDone env)) := by
  have hvisits : w.outstanding ~ nodesOf (purposes socket ++ lost) :=
    (h.visits_of_nil hout).trans ((hperm.append_right lost).filterMap _)
  have hcount : (purposes s.socket ++ lost).count .commit =
      (purposes socket ++ lost).count .commit + 1 := by
    rw [(hperm.append_right lost).count_eq]
    simp
  have hcommits := h.commits
  rw [hcount] at hcommits
  have hstep : w.step blake2b (.commitDone env) = w.settle (s.query.commitDone env) := by
    rw [Walk.step, h.query_eq hout]
  have hrest := Walk.rest_step blake2b h.rest (.commitDone env)
  have hprogress := Walk.progress_step blake2b h.rest h.progress (.commitDone env)
  rw [hstep] at hrest hprogress ⊢
  exact .settle hrest hprogress h.started hwell hwired hvisits (hcommits.commitDone env)

lemma Ledger.socketStep (h : Ledger cb lost s w) (hwell : WellFormed socket)
    (hwired : ∀ r ∈ socket.outstanding, Wired r) (hperm : purposes s.socket ~ purposes socket) :
    Ledger cb lost { s with socket } w :=
  h.frame rfl rfl hwell hwired ((hperm.append_right _).append_right lost)

lemma Ledger.drop (h : Ledger cb lost s w) {dropped : List Purpose} (hwell : WellFormed socket)
    (hwired : ∀ r ∈ socket.outstanding, Wired r)
    (hperm : purposes s.socket ~ dropped ++ purposes socket) :
    Ledger cb (dropped ++ lost) { s with socket } w := by
  refine h.frame rfl rfl hwell hwired ?_
  have hentries : s.entries ~ dropped ++ QuerySystem.entries { s with socket } := by
    simp only [QuerySystem.entries, ← List.append_assoc]
    exact hperm.append_right _
  refine (hentries.append_right lost).trans ?_
  rw [List.append_assoc]
  exact List.perm_append_comm_assoc _ _ _

lemma Ledger.issue (h : Ledger cb lost s w) (hout : s.query.outbox ≠ []) :
    ∃ lost', Ledger cb lost' s.issue w ∧ (lost' = lost ↔ ¬ s.socket.Refuses) := by
  unfold QuerySystem.issue
  split
  · next hnil => exact absurd hnil hout
  · next call rest hcons =>
    obtain ⟨hwell, hwired, hcases⟩ := @requestWith_purposes s.socket h.wellFormed h.wired
      (some (.query call.purpose)) (timeoutTag call.purpose) rfl call.request 0 defaultRetries
    rcases hcases with ⟨hrefuses, hsame⟩ | ⟨haccepts, hperm⟩
    · refine ⟨call.purpose :: lost, h.frame rfl rfl hwell hwired ?_, by simp [hrefuses]⟩
      simp only [QuerySystem.entries, RpcSocket.request, hsame, hcons, List.map_cons,
        List.append_assoc]
      exact (List.perm_middle.symm).append_left _
    · refine ⟨lost, h.frame rfl rfl hwell hwired ?_, by simp [haccepts]⟩
      simp only [QuerySystem.entries, hcons, List.map_cons]
      refine List.Perm.append_right lost (List.perm_middle.trans ?_)
      exact (hperm.append_right _).symm

/-- A response that arrives is that of a visit, of a commit, of another owner's request, or of
none. -/
lemma Ledger.response (h : Ledger cb lost s w) (hout : s.query.outbox = []) (env : Query.Env)
    (tid : UInt16) (resp : Response) :
    ∃ is, Ledger cb lost (s.call blake2b cb (.response env tid resp))
      (Runs.run (Walk.step blake2b) w is) := by
  obtain ⟨hwell, hwired⟩ := h.socket_of_quiets (onResponse_quiets h.wellFormed tid)
  rw [QuerySystem.call]
  rcases onResponse_cases h.wellFormed tid with ⟨-, hnone⟩ | ⟨r, hr, -, hsome⟩
  · rw [hnone]
    exact ⟨[], h⟩
  · have hperm := purposes_destroyRequest h.wellFormed hr (s.socket.log ++ [.response r.ptr])
    rw [hsome] at hwell hwired ⊢
    simp only [Option.bind_some]
    cases hpurpose : purposeOf r with
    | none =>
      rw [hpurpose] at hperm
      rw [QuerySystem.answered_of_purposeOf blake2b (cb.install env) s.query resp hpurpose]
      exact ⟨[], h.socketStep hwell hwired hperm⟩
    | some purpose =>
      rw [hpurpose] at hperm
      rw [onResponse_of_purposeOf hpurpose]
      cases purpose with
      | visit node =>
        have hcommits : node.addr.hostPort ∈ w.query.seenKeys → ¬ w.query.Ended →
            Commits cb ((purposes s.socket ++ lost).count .commit)
              (s.query.visitAnswered blake2b (cb.install env) node resp) := by
          have hdispatching := h.rest.dispatching
          have hsettled := h.rest.settled
          rw [h.query_eq hout] at hdispatching hsettled ⊢
          intro hseen hlive
          exact h.commits.visitAnswered blake2b hseen hlive hdispatching hsettled env resp
        obtain ⟨i, hi⟩ := h.visitBack blake2b hout hwell hwired hperm _
          (fun k => .response (cb.install env) k resp)
          (fun k hk => by rw [Walk.step, hk, h.query_eq hout]) hcommits
        exact ⟨[i], hi⟩
      | commit =>
        exact ⟨[.commitDone (cb.install env)],
          h.commitBack blake2b hout hwell hwired hperm (cb.install env)⟩

/-- A request object of the socket whose timer gives up a commit. -/
def GivesUpCommit (socket : RpcSocket Tag) (ptr : ℕ) : Prop :=
  ∃ r ∈ socket.inflight, r.ptr = ptr ∧ purposeOf r = some .commit ∧ r.retries < r.sent

instance (socket : RpcSocket Tag) (ptr : ℕ) : Decidable (GivesUpCommit socket ptr) :=
  inferInstanceAs (Decidable (∃ r ∈ socket.inflight, _))

lemma givesUpCommit_iff (h : WellFormed socket) (hr : r ∈ socket.inflight) :
    GivesUpCommit socket r.ptr ↔ purposeOf r = some .commit ∧ r.retries < r.sent := by
  constructor
  · rintro ⟨b, hb, hptr, hcommit⟩
    obtain rfl := eq_of_ptr_eq h.inflight_nodup hb hr hptr
    exact hcommit
  · exact fun hcommit => ⟨r, hr, rfl, hcommit⟩

lemma Ledger.timeout (h : Ledger cb lost s w) (hout : s.query.outbox = []) (env : Query.Env)
    (ptr : ℕ) :
    ∃ is lost', Ledger cb lost' (s.call blake2b cb (.timeout env ptr))
        (Runs.run (Walk.step blake2b) w is) ∧
      (lost' = lost ↔ ¬ GivesUpCommit s.socket ptr) := by
  obtain ⟨hwell, hwired⟩ := h.socket_of_quiets (onRequestTimeout_quiets h.wellFormed ptr)
  rw [QuerySystem.call]
  rcases onRequestTimeout_cases h.wellFormed ptr with
    ⟨hother, hnone⟩ | ⟨r, hr, rfl, ⟨hsent, hretry⟩ | ⟨hlast, hgive⟩⟩
  · rw [hnone]
    refine ⟨[], lost, h, iff_of_true rfl ?_⟩
    rintro ⟨r, hr, hptr, -⟩
    exact hother r hr hptr
  · rw [hretry] at hwell hwired ⊢
    refine ⟨[], lost, h.socketStep hwell hwired (List.Perm.of_eq ?_), iff_of_true rfl ?_⟩
    · exact (purposes_of_map
        (sendNow_map_outstanding purposeOf (fun _ => rfl) h.wellFormed hr)).symm
    · rw [givesUpCommit_iff h.wellFormed hr]
      omega
  · have hperm := purposes_destroyRequest h.wellFormed hr (s.socket.log ++ [.timeout r.ptr])
    have htimeout : r.onTimeout = r.onResponse.bind Tag.timeout :=
      h.wired r (mem_outstanding.2 (.inl hr))
    rw [hgive] at hwell hwired ⊢
    rw [givesUpCommit_iff h.wellFormed hr]
    simp only [Option.bind_some, htimeout]
    cases hpurpose : purposeOf r with
    | none =>
      rw [hpurpose] at hperm
      rw [QuerySystem.timedOut_of_purposeOf (cb.install env) s.query hpurpose]
      exact ⟨[], lost, h.socketStep hwell hwired hperm, by simp⟩
    | some purpose =>
      rw [hpurpose] at hperm
      rw [onResponse_of_purposeOf hpurpose]
      cases purpose with
      | visit node =>
        have hcommits : node.addr.hostPort ∈ w.query.seenKeys → ¬ w.query.Ended →
            Commits cb ((purposes s.socket ++ lost).count .commit)
              (s.query.visitTimedOut (cb.install env) node) := by
          rw [h.query_eq hout]
          exact fun _ hlive => h.commits.visitTimedOut hlive env
        obtain ⟨i, hi⟩ := h.visitBack blake2b hout hwell hwired hperm _
          (fun k => .timeout (cb.install env) k)
          (fun k hk => by rw [Walk.step, hk, h.query_eq hout]) hcommits
        exact ⟨[i], lost, hi, by simp⟩
      | commit =>
        -- the commit functions pass no callback for the timeout
        exact ⟨[], .commit :: lost, h.drop hwell hwired hperm, by simp [hlast]⟩

lemma Ledger.cancel (h : Ledger cb lost s w) (tid : UInt16) :
    ∃ lost', Ledger cb lost' { s with socket := (s.socket.cancelRequest tid).1 } w ∧
      (lost' = lost ↔ (s.socket.findInflight tid).bind purposeOf = none) := by
  obtain ⟨hwell, hwired⟩ := h.socket_of_quiets (cancelRequest_quiets h.wellFormed tid)
  cases hfind : s.socket.findInflight tid with
  | none =>
    have hcancel : s.socket.cancelRequest tid = (s.socket, false) := by
      simp [RpcSocket.cancelRequest, hfind]
    rw [hcancel]
    exact ⟨lost, h, by simp⟩
  | some r =>
    have hcancel : s.socket.cancelRequest tid = ({ s.socket.destroyRequest r with
        log := s.socket.log ++ [.cancelled r.ptr] }, true) := by
      simp [RpcSocket.cancelRequest, hfind]
    rw [hcancel] at hwell hwired ⊢
    refine ⟨(purposeOf r).toList ++ lost, h.drop hwell hwired
      (purposes_destroyRequest h.wellFormed (mem_of_findInflight hfind).1 _), ?_⟩
    rw [Option.bind_some]
    cases purposeOf r <;> simp

lemma Ledger.close (h : Ledger cb lost s w) :
    Ledger cb (purposes s.socket ++ lost) { s with socket := s.socket.close } w := by
  obtain ⟨hwell, hwired⟩ := h.socket_of_quiets (close_quiets h.wellFormed)
  refine h.drop hwell hwired ?_
  simp [purposes, close_outstanding h.wellFormed]

end Steps

/-! ## Runs -/

/-- **An input at which a request of the query is lost**: the socket refuses the next one, the timer
of a commit gives it up, one is cancelled, or the socket closes. -/
def QuerySystem.Loses (s : QuerySystem) : QuerySystem.Input → Prop
  | .issue => s.query.outbox ≠ [] ∧ s.socket.Refuses
  | .timeout _ ptr => s.query.outbox = [] ∧ GivesUpCommit s.socket ptr
  | .cancel tid => s.query.outbox = [] ∧ (s.socket.findInflight tid).bind purposeOf ≠ none
  | .close => s.query.outbox = [] ∧ purposes s.socket ≠ []
  | _ => False

instance (s : QuerySystem) (i : QuerySystem.Input) : Decidable (s.Loses i) := by
  cases i <;> unfold QuerySystem.Loses <;> infer_instance

/-- **What an input does.** The walk of the query is told of it or not, and at the inputs at which
requests are lost the ledger has more of them. -/
theorem ledger_step (blake2b : List UInt8 → NodeId) (h : Ledger cb lost s w)
    (i : QuerySystem.Input) :
    ∃ is lost', Ledger cb lost' (s.step blake2b cb i) (Runs.run (Walk.step blake2b) w is) ∧
      (lost' = lost ↔ ¬ s.Loses i) := by
  unfold QuerySystem.step
  split
  · next hout =>
    have hquery := h.query_eq hout
    cases i with
    | addSeedNode node =>
      refine ⟨[.addSeedNode node], lost, h.owner blake2b hout (s.query.addSeedNode node) s.started
        (.addSeedNode node) ?_ ?_, iff_of_true rfl id⟩
      · rw [Walk.step, hquery, ← h.started]
        rfl
      · exact h.commits.quiets (Query.addSeedNode_quiets s.query node)
    | addBootstrap env addr =>
      refine ⟨[.addBootstrap (cb.install env) addr], lost, h.owner blake2b hout
        (s.query.addBootstrap (cb.install env) addr) s.started
        (.addBootstrap (cb.install env) addr) ?_ ?_, iff_of_true rfl id⟩
      · rw [Walk.step, hquery, ← h.started]
        rfl
      · exact h.commits.quiets (Query.addPending_quiets _ s.query ⟨NodeId.zero, addr⟩)
    | start env =>
      rw [QuerySystem.call]
      split
      · exact ⟨[], lost, h, iff_of_true rfl id⟩
      · next hstarted =>
        have hnot : w.started = false := h.started.trans (by simpa using hstarted)
        refine ⟨[.start (cb.install env)], lost, h.owner blake2b hout
          (s.query.start (cb.install env)) true (.start (cb.install env)) ?_ ?_,
          iff_of_true rfl id⟩
        · rw [Walk.step, if_neg (by simp [hnot]), hquery]
        · exact h.commits.start (hquery ▸ (h.rest.idle hnot).2) env
    | destroy env =>
      refine ⟨[.destroy (cb.install env)], lost, h.owner blake2b hout
        (s.query.destroy (cb.install env)) s.started (.destroy (cb.install env)) ?_ ?_,
        iff_of_true rfl id⟩
      · rw [Walk.step, hquery, ← h.started]
        rfl
      · exact h.commits.destroy (cb.install env)
    | issue => exact ⟨[], lost, h, iff_of_true rfl fun hloses => hloses.1 hout⟩
    | response env tid resp =>
      obtain ⟨is, hledger⟩ := h.response blake2b hout env tid resp
      exact ⟨is, lost, hledger, iff_of_true rfl id⟩
    | timeout env ptr =>
      obtain ⟨is, lost', hledger, hiff⟩ := h.timeout blake2b hout env ptr
      exact ⟨is, lost', hledger, by simp [QuerySystem.Loses, hout, hiff]⟩
    | drainTick =>
      obtain ⟨hwell, hwired⟩ := h.socket_of_quiets (onDrainTick_quiets h.wellFormed)
      have hsame := onDrainTick_map_outstanding purposeOf (fun _ => rfl) h.wellFormed
      exact ⟨[], lost, h.socketStep hwell hwired
        (List.Perm.of_eq (purposes_of_map hsame).symm), iff_of_true rfl id⟩
    | request req timeoutOverrideMs retries =>
      obtain ⟨hwell, hwired, hcases⟩ := @requestWith_purposes s.socket h.wellFormed h.wired
        (some .other) (some .other) rfl req timeoutOverrideMs retries
      refine ⟨[], lost, h.socketStep hwell hwired ?_, iff_of_true rfl id⟩
      rcases hcases with ⟨-, hsame⟩ | ⟨-, hperm⟩
      · exact List.Perm.of_eq hsame.symm
      · exact hperm.symm
    | cancel tid =>
      obtain ⟨lost', hledger, hiff⟩ := h.cancel tid
      exact ⟨[], lost', hledger, by simp [QuerySystem.Loses, hout, hiff]⟩
    | close =>
      exact ⟨[], purposes s.socket ++ lost, h.close, by simp [QuerySystem.Loses, hout]⟩
  · next hout =>
    cases i with
    | issue =>
      obtain ⟨lost', hledger, hiff⟩ := h.issue hout
      exact ⟨[], lost', hledger, by simp [QuerySystem.Loses, hout, hiff]⟩
    | _ => exact ⟨[], lost, h, by simp [QuerySystem.Loses, hout]⟩

lemma ledger_init (target : NodeId) (command : UInt32) (value : Option (List UInt8))
    (opts : Query.Options) (cb : Callbacks) (firstTid : UInt16) :
    Ledger cb [] (QuerySystem.init target command value opts cb firstTid)
      (Walk.init target command value { opts with hasOnCommit := cb.commit.isSome }) where
  rest := Walk.rest_init _ _ _ _
  progress := fun _ hstarted => by cases hstarted
  query := rfl
  started := rfl
  wellFormed := wellFormed_init firstTid
  wired := by simp [QuerySystem.init, RpcSocket.init, RpcSocket.outstanding]
  visits := List.Perm.refl _
  commits := ⟨rfl, rfl, fun _ => rfl, fun h => by cases h⟩

/-- The machine is beside some state of the walk of its query. -/
def Beside (blake2b : List UInt8 → NodeId) (cb : Callbacks) (w₀ : Walk) (s : QuerySystem) : Prop :=
  ∃ js lost, Ledger cb lost s (Runs.run (Walk.step blake2b) w₀ js)

lemma Beside.step {blake2b : List UInt8 → NodeId} {w₀ : Walk} (h : Beside blake2b cb w₀ s)
    (i : QuerySystem.Input) : Beside blake2b cb w₀ (s.step blake2b cb i) := by
  obtain ⟨js, lost, h⟩ := h
  obtain ⟨is, lost', h', -⟩ := ledger_step blake2b h i
  rw [← Runs.run_append] at h'
  exact ⟨js ++ is, lost', h'⟩

end HyperDHT.Ops
