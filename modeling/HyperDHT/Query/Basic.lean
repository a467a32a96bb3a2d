import Mathlib.Logic.Function.Iterate
import HyperDHT.Routing.Table
import HyperDHT.Rpc.Messages

/-!
# The iterative query

The query engine of `query.cpp`: a walk over the network towards a target. Candidates wait on a
stack, visits are sent up to a concurrency limit, every reply adds candidates and competes for a
place among the `K` closest replies, and when nothing is left to visit the query either finishes
or commits to the closest nodes.

## Main definitions

* `Query` — the fields of the class, with the record of what it did (`trace`) and the requests it
  handed to the RPC socket during the call that is running (`outbox`).
* `Query.Env` — what a call reads from the socket and what the user's callbacks do when they run.
* `Query.addPending`, `seedFromTable`, `readMore`, `visit`, `onVisitResponse`, `onVisitTimeout`,
  `pushClosest`, `maybeFinish`, `destroy`, `fireDoneOnce`, `doCommit` — the member functions.
* `Walk`, `Input`, `Walk.step` — a query together with the visits that wait for an answer, as a
  machine.

## Design

A callback is present or not, and the environment says what it does at each invocation: the reply
and completion callbacks may call `destroy()`, the commit callback may also call its continuation
or send a request. The `RpcSocket` takes a request without calling back, so what a call sends is
collected in the outbox and handed over at its end.
-/

set_option autoImplicit false

namespace HyperDHT

open Compact Routing Rpc

/-! ## Data model -/

/-- A reply as the query hands it to its callbacks. -/
structure QueryReply where
  /-- The validated id of the responder, zero if it has none. -/
  fromId : NodeId
  fromAddr : Ipv4Address
  token : Option (List.Vector UInt8 32) := none
  value : Option (List UInt8) := none
  closerNodes : List Ipv4Address := []
  deriving DecidableEq

/-- A candidate. -/
structure PendingNode where
  /-- The id, zero if unknown. -/
  id : NodeId
  addr : Ipv4Address
  deriving DecidableEq

/-- What has become of an address that was accepted as a candidate. -/
inductive NodeState where
  | pending
  | done
  | down
  deriving DecidableEq

/-- Which completion of a query a request reports to. -/
inductive Purpose where
  /-- A visit of a candidate. -/
  | visit (node : PendingNode)
  /-- A commit to a closest node. -/
  | commit
  deriving DecidableEq

/-- A request handed to the socket. -/
structure Call where
  purpose : Purpose
  request : Request
  deriving DecidableEq

/-- What a query does that can be seen from outside, or that its contract speaks about. -/
inductive QueryEvent where
  /-- `add_pending` took a candidate. -/
  | accepted (node : PendingNode)
  /-- `read_more` dropped a candidate that is not closer than the closest replies. -/
  | skipped (node : PendingNode)
  /-- A visit was sent. -/
  | visit (node : PendingNode)
  /-- `read_more` was entered at a depth of its own recursion, one for the outermost frame. -/
  | readMore (depth : ℕ)
  /-- The recursion of `read_more` went deeper than the model follows it. -/
  | overflow
  /-- `on_reply_` was called, and it returned. -/
  | replyEnter (reply : QueryReply)
  | replyExit
  /-- `destroy()` was called. -/
  | destroyCalled
  /-- `done_` was set. -/
  | doneSet
  /-- `maybe_finish` found that the walk has ended, with these closest replies. -/
  | ended (closest : List QueryReply)
  /-- `on_commit_` was called for a reply. -/
  | commit (reply : QueryReply)
  /-- `on_done_` was called. -/
  | onDone (closest : List QueryReply)
  deriving DecidableEq

/-- A query. -/
structure Query where
  target : NodeId
  command : UInt32
  value : Option (List UInt8) := none
  concurrency : ℤ := 10
  internal : Bool := false
  /-- Which callbacks are installed. -/
  hasOnReply : Bool := false
  hasOnCommit : Bool := false
  hasOnDone : Bool := false
  done : Bool := false
  committing : Bool := false
  inflight : ℤ := 0
  commitInflight : ℤ := 0
  dispatchingReply : Bool := false
  pendingDone : Bool := false
  pendingDoneFired : Bool := false
  fromTable : Bool := false
  slowdown : Bool := false
  successes : ℤ := 0
  errors : ℤ := 0
  /-- The closest replies, the closest first. -/
  closestReplies : List QueryReply := []
  /-- The stack of candidates, the top first. -/
  pending : List PendingNode := []
  preSeeds : List PendingNode := []
  /-- The addresses that were accepted, under their text, with what became of them. -/
  seen : List (List Char × NodeState) := []
  /-- The requests of the running call. -/
  outbox : List Call := []
  /-- Everything the query did, in order. -/
  trace : List QueryEvent := []

/-- What `on_commit_` may do when it is called for a reply. -/
inductive CommitAct where
  /-- Call `destroy()`. -/
  | destroy
  /-- Call the continuation at once. -/
  | done
  /-- Send a request whose response calls the continuation. -/
  | request (req : Request)

/-- What a call reads from the socket, and what the callbacks do if it invokes them. -/
structure Query.Env where
  /-- The routing table of the socket. -/
  table : Table
  /-- The filter for nodes. -/
  filterAccept : NodeId → Ipv4Address → Bool := fun _ _ => true
  /-- How often `on_reply_` calls `destroy()`. -/
  onReply : QueryReply → ℕ := fun _ => 0
  /-- What `on_commit_` does. -/
  onCommit : QueryReply → List CommitAct := fun _ => []
  /-- How often `on_done_` calls `destroy()`. -/
  onDone : ℕ := 0

/-- The concurrency while the slowdown is engaged. -/
def slowdownConcurrency : ℤ := 3

/-- The number of addresses a query remembers. -/
def maxSeen : ℕ := 4096

/-- The recursion of `read_more` is followed this deep. -/
def readMoreFuel : ℕ := 8

namespace Query

/-- Record an event. -/
def emit (q : Query) (e : QueryEvent) : Query := { q with trace := q.trace ++ [e] }

/-- Set `done_`. -/
def setDone (q : Query) : Query := { q with done := true }.emit .doneSet

/-! ## Closest replies -/

/-- Compare two ids by their distance from the target. -/
def compare (q : Query) (a b : NodeId) : ℤ := compareDistance q.target a b

/-- Exchange the elements at two neighbouring positions. -/
def swapReplies : List QueryReply → ℕ → List QueryReply
  | a :: b :: l, 0 => b :: a :: l
  | a :: l, i + 1 => a :: swapReplies l i
  | l, _ => l

/-- The loop of `push_closest` over the positions below `i`, which moves the new reply from
position `i` towards the front; the flag says that it was erased as a duplicate. -/
def pushClosestLoop (q : Query) (reply : QueryReply) :
    ℕ → List QueryReply → List QueryReply × Bool
  | 0, l => (l, false)
  | i + 1, l =>
    match l[i]? with
    | none => (l, false)
    | some other =>
      if q.compare other.fromId reply.fromId < 0 then (l, false)
      else if q.compare other.fromId reply.fromId = 0 then (l.eraseIdx (i + 1), true)
      else pushClosestLoop q reply i (swapReplies l i)

/-- Insert a reply into the closest replies. -/
def pushClosest (q : Query) (reply : QueryReply) : Query :=
  let pushed := q.pushClosestLoop reply q.closestReplies.length (q.closestReplies ++ [reply])
  let capped := if ¬ pushed.2 ∧ pushed.1.length > K then pushed.1.dropLast else pushed.1
  { q with closestReplies := capped }

/-- Whether an id is closer than the last of the closest replies, or these are not yet `K`. -/
def isCloser (q : Query) (id : NodeId) : Bool :=
  if q.closestReplies.length < K then true
  else
    match q.closestReplies.getLast? with
    | none => true
    | some last => q.compare id last.fromId < 0

/-! ## Candidates -/

/-- Set the state of an address in the map of seen addresses. -/
def setSeen : List (List Char × NodeState) → List Char → NodeState →
    List (List Char × NodeState)
  | [], key, state => [(key, state)]
  | (k, s) :: seen, key, state =>
    if k = key then (k, state) :: seen else (k, s) :: setSeen seen key state

/-- Take a candidate, unless its address was seen, the map is full or the filter rejects it. -/
def addPending (env : Env) (q : Query) (node : PendingNode) : Query :=
  let key := node.addr.hostPort
  if key ∈ q.seen.map Prod.fst then q
  else if q.seen.length ≥ maxSeen then q
  else if !env.filterAccept node.id node.addr then q
  else
    { q with
      seen := setSeen q.seen key .pending
      pending := node :: q.pending }.emit (.accepted node)

/-- Take the closest nodes of the routing table as candidates, the closest last. -/
def seedFromTable (env : Env) (q : Query) : Query :=
  if q.pending.length ≥ K then q
  else
    let q := { q with fromTable := true }
    let closest := env.table.closest q.target (K - q.pending.length)
    (closest.reverse.map fun n => PendingNode.mk n.id (Ipv4Address.fromString n.host n.port)).foldl
      (addPending env) q

/-- Take a bootstrap node, whose id is not known. -/
def addBootstrap (env : Env) (q : Query) (addr : Ipv4Address) : Query :=
  addPending env q ⟨NodeId.zero, addr⟩

/-- Note a seed for the start of the query. -/
def addSeedNode (q : Query) (node : PendingNode) : Query :=
  { q with preSeeds := q.preSeeds ++ [node] }

/-! ## Completion -/

/-- `destroy()`, given what `fire_done_once()` does. -/
def destroyWith (fire : Query → Query) (q : Query) : Query :=
  let q := q.emit .destroyCalled
  if q.done then q
  else
    let q := { q with pending := [], committing := true }.setDone
    if q.dispatchingReply then { q with pendingDone := true } else fire q

/-- Call `on_done_` unless it was called. The callback runs with `pending_done_fired_` set, so
that a `destroy()` it calls finds nothing to fire. -/
def fireDoneOnce (env : Env) (q : Query) : Query :=
  if !q.pendingDoneFired && q.hasOnDone then
    (destroyWith id)^[env.onDone]
      ({ q with pendingDoneFired := true }.emit (.onDone q.closestReplies))
  else q

/-- End the query early. -/
def destroy (env : Env) (q : Query) : Query := destroyWith (fireDoneOnce env) q

/-- The continuation that `do_commit` passes to `on_commit_`. -/
def commitDone (env : Env) (q : Query) : Query :=
  let q := { q with commitInflight := q.commitInflight - 1 }
  if q.commitInflight = 0 then fireDoneOnce env q.setDone else q

/-- One thing that `on_commit_` does. -/
def commitAct (env : Env) (q : Query) : CommitAct → Query
  | .destroy => q.destroy env
  | .done => q.commitDone env
  | .request req => { q with outbox := q.outbox ++ [Call.mk .commit req] }

/-- The body of the loop of `do_commit`: a reply with a token is committed to. -/
def commitReply (env : Env) (q : Query) (reply : QueryReply) : Query :=
  if reply.token.isNone then q
  else
    (env.onCommit reply).foldl (commitAct env)
      ({ q with commitInflight := q.commitInflight + 1 }.emit (.commit reply))

/-- Begin the commits. -/
def beginCommit (q : Query) : Query := { q with committing := true, commitInflight := 0 }

/-- Commit to the closest replies. -/
def doCommit (env : Env) (q : Query) : Query :=
  let q := q.beginCommit
  if q.closestReplies.isEmpty then fireDoneOnce env q.setDone
  else
    let q := q.closestReplies.foldl (commitReply env) q
    if q.commitInflight = 0 then fireDoneOnce env q.setDone else q

/-- Finish or commit if nothing is left to visit. -/
def maybeFinish (env : Env) (q : Query) : Query :=
  if q.done || q.committing then q
  else if q.inflight > 0 then q
  else if !q.pending.isEmpty then q
  else
    let q := q.emit (.ended q.closestReplies)
    if q.hasOnCommit then q.doCommit env else fireDoneOnce env q.setDone

/-! ## Iteration -/

/-- The request of a visit. -/
def visitRequest (q : Query) (node : PendingNode) : Request :=
  { toAddr := node.addr, command := q.command, target := some q.target, value := q.value }

/-- Send a visit. -/
def visit (q : Query) (node : PendingNode) : Query :=
  { q with
    inflight := q.inflight + 1
    outbox := q.outbox ++ [Call.mk (.visit node) (q.visitRequest node)] }.emit (.visit node)

/-- The loop of `read_more`: pop candidates while there is room for another visit. -/
def popLoop (limit : ℤ) : List PendingNode → Query → Query
  | [], q => { q with pending := [] }
  | next :: rest, q =>
    if q.inflight < limit then
      let q := { q with pending := rest }
      if next.id ≠ NodeId.zero ∧ !q.isCloser next.id then
        popLoop limit rest (q.emit (.skipped next))
      else popLoop limit rest (q.visit next)
    else { q with pending := next :: rest }

/-- The number of visits that may be in flight. -/
def effectiveConcurrency (q : Query) : ℤ :=
  if q.slowdown then slowdownConcurrency else q.concurrency

/-- Engage the slowdown while a walk on the caller's seeds has heard of nobody. -/
def engageSlowdown (q : Query) : Query :=
  if !q.fromTable && q.successes = 0 && q.errors = 0 then { q with slowdown := true } else q

/-- Send visits, and when nothing is left start over from the routing table or finish. -/
def readMoreAt (env : Env) : (fuel depth : ℕ) → Query → Query
  | 0, _, q => q.emit .overflow
  | fuel + 1, depth, q =>
    let q := q.emit (.readMore depth)
    if q.done then q
    else
      let q := (popLoop q.effectiveConcurrency q.pending q).engageSlowdown
      if !q.pending.isEmpty then q
      else if q.inflight > 0 then q
      else if !q.fromTable && q.successes < (K : ℤ) / 4 then
        let q := q.seedFromTable env
        if q.fromTable then readMoreAt env fuel (depth + 1) q else q.maybeFinish env
      else q.maybeFinish env

/-- `read_more()` as it is called from outside itself. -/
def readMore (env : Env) (q : Query) : Query := readMoreAt env readMoreFuel 1 q

/-- Take the caller's seeds, the first of them on top. -/
def takeSeeds (env : Env) (q : Query) : Query :=
  { q.preSeeds.reverse.foldl (addPending env) q with preSeeds := [] }

/-- Fill a short frontier from the routing table. -/
def topUp (env : Env) (q : Query) : Query :=
  if q.pending.length < K then q.seedFromTable env else q

/-- Start the query. -/
def start (env : Env) (q : Query) : Query := ((q.takeSeeds env).topUp env).readMore env

/-! ## Replies and timeouts -/

/-- Call `on_reply_`. -/
def dispatchReply (env : Env) (q : Query) (reply : QueryReply) : Query :=
  let q := { q with dispatchingReply := true }.emit (.replyEnter reply)
  let q := (destroy env)^[env.onReply reply] q
  { q with dispatchingReply := false }.emit .replyExit

/-- The body of the loop over the closer nodes of a reply. -/
def addCloser (blake2b : List UInt8 → NodeId) (env : Env) (q : Query) (closer : Ipv4Address) :
    Query :=
  if closer.port = 0 then q
  else if computePeerId blake2b closer = env.table.id then q
  else addPending env q ⟨computePeerId blake2b closer, closer⟩

/-- Whether a response counts as a success: no error, or the error zero. -/
def isSuccess (resp : Response) : Bool := resp.error.isNone || resp.error == some 0

/-- The reply built from a response. -/
def replyOf (node : PendingNode) (resp : Response) : QueryReply :=
  { fromId := resp.id.getD NodeId.zero
    fromAddr := node.addr
    token := resp.token
    value := resp.value
    closerNodes := resp.closerNodes }

/-- Note what became of a visited address. -/
def markSeen (q : Query) (node : PendingNode) (state : NodeState) : Query :=
  { q with seen := setSeen q.seen node.addr.hostPort state }

/-- Count a response as a success or an error. -/
def countResponse (q : Query) (resp : Response) : Query :=
  if isSuccess resp then { q with successes := q.successes + 1 }
  else { q with errors := q.errors + 1 }

/-- A success with an id competes for a place among the closest replies. -/
def offerReply (q : Query) (resp : Response) (reply : QueryReply) : Query :=
  if isSuccess resp && reply.fromId ≠ NodeId.zero then q.pushClosest reply else q

/-- Reopen the full concurrency once the first cohort has been heard of. -/
def releaseSlowdown (q : Query) : Query :=
  if !q.fromTable && q.successes + q.errors ≥ q.concurrency then { q with slowdown := false }
  else q

/-- What a response changes before `on_reply_` is called. -/
def absorb (blake2b : List UInt8 → NodeId) (env : Env) (q : Query) (node : PendingNode)
    (resp : Response) : Query :=
  let q := ((q.markSeen node .done).countResponse resp).offerReply resp (replyOf node resp)
  (resp.closerNodes.foldl (addCloser blake2b env) q).releaseSlowdown

/-- A response to a visit. -/
def onVisitResponse (blake2b : List UInt8 → NodeId) (env : Env) (q : Query) (node : PendingNode)
    (resp : Response) : Query :=
  if q.done then q
  else
    let q := q.absorb blake2b env node resp
    let q := if q.hasOnReply then q.dispatchReply env (replyOf node resp) else q
    let q := q.readMore env
    if q.pendingDone then fireDoneOnce env { q with pendingDone := false } else q

/-- The timeout of a visit. -/
def onVisitTimeout (env : Env) (q : Query) (node : PendingNode) : Query :=
  if q.done then q
  else
    let q := q.markSeen node .down
    { q with errors := q.errors + 1 }.readMore env

/-- One visit fewer is in flight. -/
def visitBack (q : Query) : Query := { q with inflight := q.inflight - 1 }

/-- What the socket calls for a response to a visit. -/
def visitAnswered (blake2b : List UInt8 → NodeId) (env : Env) (q : Query) (node : PendingNode)
    (resp : Response) : Query :=
  q.visitBack.onVisitResponse blake2b env node resp

/-- What the socket calls for the timeout of a visit. -/
def visitTimedOut (env : Env) (q : Query) (node : PendingNode) : Query :=
  q.visitBack.onVisitTimeout env node

/-- The configuration of a query before it is started. -/
structure Options where
  concurrency : ℤ := 10
  internal : Bool := false
  hasOnReply : Bool := false
  hasOnCommit : Bool := false
  hasOnDone : Bool := false

/-- Create and configure a query. -/
def create (target : NodeId) (command : UInt32) (value : Option (List UInt8)) (opts : Options) :
    Query :=
  { target, command, value
    concurrency := opts.concurrency
    internal := opts.internal
    hasOnReply := opts.hasOnReply
    hasOnCommit := opts.hasOnCommit
    hasOnDone := opts.hasOnDone }

end Query

/-! ## The walk as a machine -/

/-- A query and the visits that wait for an answer. -/
structure Walk where
  query : Query
  /-- Whether `start()` was called. -/
  started : Bool := false
  /-- The visits neither answered nor timed out. -/
  outstanding : List PendingNode := []

/-- What the environment may do to a query. -/
inductive Input where
  | addSeedNode (node : PendingNode)
  | addBootstrap (env : Query.Env) (addr : Ipv4Address)
  | start (env : Query.Env)
  /-- The `k`-th outstanding visit is answered. -/
  | response (env : Query.Env) (k : ℕ) (resp : Response)
  /-- The `k`-th outstanding visit times out. -/
  | timeout (env : Query.Env) (k : ℕ)
  /-- `destroy()` is called from outside. -/
  | destroy (env : Query.Env)
  /-- A continuation that `on_commit_` kept is called. -/
  | commitDone (env : Query.Env)

namespace Walk

/-- The visits among requests. -/
def visitsOf (calls : List Call) : List PendingNode :=
  calls.filterMap fun call =>
    match call.purpose with
    | .visit node => some node
    | .commit => none

/-- The walk after a call that left the query in the given state: what it sent is outstanding. -/
def settle (w : Walk) (q : Query) : Walk :=
  { w with
    query := { q with outbox := [] }
    outstanding := w.outstanding ++ visitsOf q.outbox }

/-- A query before anything has happened to it. -/
def init (target : NodeId) (command : UInt32) (value : Option (List UInt8))
    (opts : Query.Options) : Walk :=
  { query := Query.create target command value opts }

/-- The walk after an input. A query is started once, and only outstanding visits complete. -/
def step (blake2b : List UInt8 → NodeId) (w : Walk) : Input → Walk
  | .addSeedNode node => w.settle (w.query.addSeedNode node)
  | .addBootstrap env addr => w.settle (w.query.addBootstrap env addr)
  | .start env =>
    if w.started then w else { w with started := true }.settle (w.query.start env)
  | .response env k resp =>
    match w.outstanding[k]? with
    | none => w
    | some node =>
      { w with outstanding := w.outstanding.eraseIdx k }.settle
        (w.query.visitAnswered blake2b env node resp)
  | .timeout env k =>
    match w.outstanding[k]? with
    | none => w
    | some node =>
      { w with outstanding := w.outstanding.eraseIdx k }.settle (w.query.visitTimedOut env node)
  | .destroy env => w.settle (w.query.destroy env)
  | .commitDone env => w.settle (w.query.commitDone env)

end Walk

end HyperDHT
