import HyperDHT.NatSampler.Basic
import HyperDHT.Routing.Invariant
import HyperDHT.Rpc.Moves

/-!
# The RPC node

The whole of `RpcSocket` (`rpc.cpp`): the request engine together with the routing table, the
observation of peers, ping-and-swap, the checks of reported nodes, the NAT sampler, the background
tick, the firewall probe and the transition from an ephemeral to a persistent node.

## Main definitions

* `Rpc.Env` — what the node was constructed with: the digest, the node filter, the local ports.
* `Rpc.RpcNode` — the state of the node.
* `Rpc.RpcNode.addNodeFromNetwork`, `onBucketFull`, `repingAndSwap`, `checkNode`, `handleMessage`,
  `backgroundTick`, `finishFirewallProbe`, `doPersistentTransition` — the code.
* `Rpc.RpcNode.step` — the node as a machine.

## Main results

* `Rpc.RpcNode.tableAdd_cases` — what adding a node to the table does, the hook included.
* `Rpc.RpcNode.step_advances` — every step makes moves of the engine and calls of the table.
* `Rpc.RpcNode.sane_step` — every step keeps the engine well formed and the table coherent.

## Design

The callbacks of the requests that the node sends for itself are data: a swap and a check carry the
state that the source's lambdas capture. The callbacks of other owners run in later steps, as do the
callbacks for refresh, persistence and health. Datagrams that are not requests (replies, the pings
of the firewall probe) leave no trace in the state.

The list of events is not part of the code. It records each call of the hook for full buckets, with
what the table held at that moment, and each swap that was carried out.
-/

set_option autoImplicit false

namespace HyperDHT.Rpc

open Compact Routing

/-! ## Constants -/

def refreshTicksMax : ℤ := 60
def stableTicksInit : ℤ := 240
def stableTicksMore : ℤ := 720
def recentNodeTicks : UInt32 := 12
def oldNodeTicks : UInt32 := 360
def maxRepinging : ℤ := 3
def maxProbeNodes : ℕ := 5
def maxProbeHosts : ℕ := 16

/-! ## State -/

/-- What the node was constructed with: the digest, the node filter and the local ports of its two
sockets. -/
structure Env where
  blake2b : List UInt8 → NodeId
  filterAccept : NodeId → Ipv4Address → Bool
  clientPort : UInt16
  serverPort : UInt16

/-- The state a ping-and-swap shares with its callbacks. -/
structure SwapState where
  newNode : Node
  oldId : NodeId
  lastSeen : UInt32
  deriving DecidableEq

/-- The state a check shares with its callbacks. -/
structure CheckState where
  targetId : NodeId
  lastSeen : UInt32
  deriving DecidableEq

/-- The callbacks of requests: those of a ping-and-swap, those of a check, those of others. -/
inductive NodeCallback where
  | swap (state : SwapState)
  | check (state : CheckState)
  | other
  deriving DecidableEq

/-- What the routing table went through: the hook for full buckets was called for a node, with the
node present or not and so many nodes in its bucket; a swap was carried out, the old node was
removed or not, the new one inserted or not, and the table had so many nodes before and after. -/
inductive TableEvent where
  | full (node : Node) (present : Bool) (bucketSize : ℕ)
  | swapped (state : SwapState) (removed inserted : Bool) (before after : ℕ)
  deriving DecidableEq

/-- The node. -/
structure RpcNode where
  socket : RpcSocket NodeCallback
  table : Table
  natSampler : NatSampler.State := {}
  tick : UInt32 := 0
  repinging : ℤ := 0
  checks : ℤ := 0
  bootstrapped : Bool := false
  ephemeral : Bool := true
  firewalled : Bool := true
  refreshTicks : ℤ := refreshTicksMax
  stableTicks : ℤ := stableTicksInit
  lastNatHost : List Char := []
  probeRunning : Bool := false
  probeReplied : Finset (List Char) := ∅
  probeExpected : ℕ := 0
  events : List TableEvent := []

namespace RpcNode

/-- The local port of the socket in use: that of the client socket while firewalled. -/
def activePort (env : Env) (s : RpcNode) : UInt16 :=
  if s.firewalled then env.clientPort else env.serverPort

/-! ## Ping-and-swap -/

/-- The oldest candidate among the nodes not pinged in this tick: the smallest `pinged`, then the
smallest `added`, then the first. -/
def oldestCandidate (tick : UInt32) (nodes : List Node) : Option Node :=
  nodes.foldl (fun oldest n =>
    if n.pinged = tick then oldest
    else
      match oldest with
      | none => some n
      | some o =>
        if o.pinged > n.pinged ∨ (o.pinged = n.pinged ∧ o.added > n.added) then some n
        else some o) none

/-- The time at which a node was last pinged is set. -/
def pingedAt (tick : UInt32) : NodeUpdate := ⟨fun n => { n with pinged := tick }, fun _ => rfl⟩

/-- The times at which a node was last pinged and seen are set. -/
def seenAt (tick : UInt32) : NodeUpdate :=
  ⟨fun n => { n with pinged := tick, seen := tick }, fun _ => rfl⟩

/-- The internal ping for a node of the table. -/
def pingRequest (node : Node) : Request where
  toAddr := Ipv4Address.fromString node.host node.port
  command := cmdPing
  internal := true

/-- The oldest node is pinged once, without retries; the answer or the timeout decides about the
swap. -/
def repingAndSwap (s : RpcNode) (newNode oldest : Node) : RpcNode :=
  let state : SwapState := { newNode, oldId := oldest.id, lastSeen := oldest.seen }
  { s with
    table := s.table.modify oldest.id (pingedAt s.tick)
    repinging := s.repinging + 1
    socket := (s.socket.requestWith (pingRequest oldest) 0 0 (some (.swap state))
      (some (.swap state))).1 }

/-- The nodes of a bucket. -/
def bucketNodes (t : Table) (bucketIdx : ℕ) : List Node :=
  if h : bucketIdx < idBits then (t.buckets ⟨bucketIdx, h⟩).nodes else []

/-- The hook for a bucket that did not take a node: once bootstrapped and with fewer than three
swaps under way, the oldest candidate is pinged, unless it is recent and well established. -/
def onBucketFull (s : RpcNode) (bucketIdx : ℕ) (newNode : Node) : RpcNode :=
  if !s.bootstrapped then s
  else if s.repinging ≥ maxRepinging then s
  else
    match oldestCandidate s.tick (bucketNodes s.table bucketIdx) with
    | none => s
    | some oldest =>
      if s.tick - oldest.pinged < recentNodeTicks ∧ s.tick - oldest.added > oldNodeTicks then s
      else s.repingAndSwap newNode oldest

/-- The number of nodes in the bucket of an id. -/
def bucketSize (t : Table) (id : NodeId) : ℕ :=
  match t.bucketOf id with
  | none => 0
  | some idx => (t.buckets idx).nodes.length

/-- `table_.add`, with the hook it may call. -/
def tableAdd (s : RpcNode) (node : Node) : RpcNode × Bool :=
  let result := s.table.add node
  let added := { s with table := result.1 }
  match result.1.fullCalls.drop s.table.fullCalls.length with
  | [] => (added, result.2)
  | (bucketIdx, newNode) :: _ =>
    (({ added with
      events := s.events ++ [TableEvent.full newNode (s.table.has newNode.id)
        (bucketSize s.table newNode.id)] }).onBucketFull bucketIdx newNode, result.2)

/-- The old node is removed and the new one added. -/
def doSwap (s : RpcNode) (state : SwapState) : RpcNode :=
  let removed := s.table.remove state.oldId
  let added := ({ s with table := removed.1 }).tableAdd state.newNode
  { added.1 with
    events := added.1.events ++
      [TableEvent.swapped state removed.2 added.2 s.table.size added.1.table.size] }

/-! ## Checks -/

/-- A node of the table is pinged once, without retries; the answer or the timeout decides whether
it stays. -/
def checkNode (s : RpcNode) (node : Node) : RpcNode :=
  let state : CheckState := { targetId := node.id, lastSeen := node.seen }
  { s with
    table := s.table.modify node.id (pingedAt s.tick)
    checks := s.checks + 1
    socket := (s.socket.requestWith (pingRequest node) 0 0 (some (.check state))
      (some (.check state))).1 }

/-! ## Callbacks -/

/-- The node with the id was not seen since. -/
def stale (s : RpcNode) (id : NodeId) (lastSeen : UInt32) : Bool :=
  match s.table.get id with
  | none => false
  | some n => n.seen ≤ lastSeen

/-- The callback for an answer. A swap is carried out, and a checked node removed, if the old node
is in the table and was not seen since. -/
def runOnResponse (s : RpcNode) : NodeCallback → RpcNode
  | .swap state =>
    let s := { s with repinging := s.repinging - 1 }
    if s.stale state.oldId state.lastSeen then s.doSwap state else s
  | .check state =>
    let s := { s with checks := s.checks - 1 }
    if s.stale state.targetId state.lastSeen then
      { s with table := (s.table.remove state.targetId).1 }
    else s
  | .other => s

/-- The callback for a timeout: the swap is carried out, the checked node removed. -/
def runOnTimeout (s : RpcNode) : NodeCallback → RpcNode
  | .swap state => ({ s with repinging := s.repinging - 1 }).doSwap state
  | .check state =>
    { s with checks := s.checks - 1, table := (s.table.remove state.targetId).1 }
  | .other => s

/-! ## Messages -/

/-- A peer was heard: a node that is in the table is refreshed, another one is added, unless the
filter rejects it. -/
def addNodeFromNetwork (env : Env) (s : RpcNode) (id : NodeId) (fromAddr : Ipv4Address) : RpcNode :=
  if !env.filterAccept id fromAddr then s
  else if s.table.has id then { s with table := s.table.modify id (seenAt s.tick) }
  else
    (s.tableAdd {
      id, host := fromAddr.hostString, port := fromAddr.port
      added := s.tick, pinged := s.tick, seen := s.tick }).1

/-- The sender is observed if the id it claims is the one of its address. -/
def observe (env : Env) (s : RpcNode) (id : Option NodeId) (remote : Ipv4Address) : RpcNode :=
  match id with
  | none => s
  | some id =>
    if id = computePeerId env.blake2b remote then s.addNodeFromNetwork env id remote else s

/-- A response completes the request in flight with its transaction id. -/
def resolve (s : RpcNode) (tid : UInt16) : RpcNode :=
  let (socket, completed) := s.socket.onResponse tid
  match completed.bind (·.onResponse) with
  | none => { s with socket }
  | some callback => ({ s with socket }).runOnResponse callback

/-- What a response tells before it is matched to a request: our address as its sender sees it, and
the sender. -/
def hearResponse (env : Env) (s : RpcNode) (remote : Ipv4Address) (resp : Response) : RpcNode :=
  ({ s with natSampler := (s.natSampler.add resp.fromAddr remote).1 }).observe env resp.id remote

/-- A message, decoded: a request with the id of its sender, a response, or anything else. -/
inductive Message where
  | request (id : Option NodeId)
  | response (resp : Response)
  | other

/-- A message arrives. The handler of requests runs in a later step. -/
def handleMessage (env : Env) (s : RpcNode) (remote : Ipv4Address) (msg : Message) : RpcNode :=
  if s.socket.closing then s
  else
    match msg with
    | .request id => s.observe env id remote
    | .response resp => (s.hearResponse env remote resp).resolve resp.tid
    | .other => s

/-- The timer of a request expires. -/
def onRequestTimeout (s : RpcNode) (ptr : ℕ) : RpcNode :=
  let (socket, completed) := s.socket.onRequestTimeout ptr
  match completed.bind (·.onTimeout) with
  | none => { s with socket }
  | some callback => ({ s with socket }).runOnTimeout callback

/-! ## The firewall probe and the persistent node -/

/-- The node becomes persistent: traffic moves to the server socket, and the table is rebuilt under
the id of the sampled address. -/
def doPersistentTransition (env : Env) (s : RpcNode) : RpcNode :=
  if !s.ephemeral then s
  else
    let newId := computePeerId env.blake2b
      (Ipv4Address.fromString s.natSampler.host s.natSampler.port)
    { s with
      ephemeral := false
      firewalled := false
      table := if newId ≠ s.table.id then s.table.rebuildWithId newId else s.table }

/-- The number of hosts that have to reach the server socket. -/
def probeThreshold (s : RpcNode) : ℕ := if s.probeExpected ≥ 5 then 3 else 1

/-- The probe ends: too few replies, or a port that the NAT does not preserve for the client socket,
mean firewalled; otherwise the node becomes persistent. -/
def finishFirewallProbe (env : Env) (s : RpcNode) : RpcNode :=
  if !s.probeRunning then s
  else
    let s := { s with probeRunning := false }
    if s.probeReplied.card < s.probeThreshold then { s with firewalled := true }
    else if s.natSampler.port ≠ 0 ∧ s.natSampler.port ≠ env.clientPort then
      { s with firewalled := true }
    else s.doPersistentTransition env

/-- The host joins those that reached the server socket, up to a cap. -/
def noteReply (s : RpcNode) (remote : Ipv4Address) : RpcNode :=
  { s with
    probeReplied := if s.probeReplied.card < maxProbeHosts
      then insert remote.hostString s.probeReplied else s.probeReplied }

/-- A datagram on the server socket is counted for the probe before it is looked at. -/
def countProbeReply (env : Env) (s : RpcNode) (remote : Ipv4Address) : RpcNode :=
  if !s.probeRunning then s
  else
    let noted := s.noteReply remote
    if noted.probeReplied.card ≥ noted.probeThreshold then noted.finishFirewallProbe env
    else noted

/-- A datagram is received on one of the sockets; only those on the server socket count for the
probe. -/
def received (env : Env) (s : RpcNode) (fromServer : Bool) (remote : Ipv4Address) : RpcNode :=
  if fromServer then s.countProbeReply env remote else s

/-- A datagram arrives on one of the sockets. -/
def onRecv (env : Env) (s : RpcNode) (fromServer : Bool) (remote : Ipv4Address) (msg : Message) :
    RpcNode :=
  (s.received env fromServer remote).handleMessage env remote msg

/-- The probe starts, if there are nodes to probe. -/
def startFirewallProbe (s : RpcNode) : RpcNode :=
  if s.probeRunning || s.socket.closing then s
  else
    let nodes := s.table.allNodes.take maxProbeNodes
    { s with
      probeReplied := ∅
      probeExpected := nodes.length
      probeRunning := !nodes.isEmpty }

/-- Whether to become persistent: an address is known and the NAT is open or consistent, and then
the probe decides. -/
def checkPersistent (s : RpcNode) : RpcNode :=
  if !s.ephemeral then s
  else if s.probeRunning then s
  else if s.natSampler.host = [] ∨ s.natSampler.port = 0 then
    { s with stableTicks := stableTicksMore }
  else
    let s := { s with stableTicks := stableTicksMore, lastNatHost := s.natSampler.host }
    if s.natSampler.firewall = .consistent ∨ s.natSampler.firewall = .open then
      s.startFirewallProbe
    else s

/-- The background timer expires. -/
def backgroundTick (s : RpcNode) : RpcNode :=
  if s.socket.closing then s
  else
    let refreshTicks := s.refreshTicks - 1
    let s := { s with
      tick := s.tick + 1
      refreshTicks := if refreshTicks ≤ 0 then refreshTicksMax else refreshTicks }
    if !s.ephemeral then s
    else
      let s := { s with stableTicks := s.stableTicks - 1 }
      if s.stableTicks ≤ 0 then s.checkPersistent else s

/-- The socket closes, and with it the probe. -/
def close (s : RpcNode) : RpcNode :=
  { s with
    socket := s.socket.close
    probeRunning := if s.socket.closing then s.probeRunning else false }

/-- The table takes a node that the application names. -/
def addNode (env : Env) (s : RpcNode) (addr : Ipv4Address) : RpcNode :=
  (s.tableAdd {
    id := computePeerId env.blake2b addr, host := addr.hostString, port := addr.port
    added := s.tick }).1

/-! ## The node as a machine -/

/-- What may happen to the node: a datagram arrives, a timer expires, other owners send and cancel
requests, a node is checked or named, the node is marked bootstrapped or closed. -/
inductive Input where
  | recv (fromServer : Bool) (remote : Ipv4Address) (msg : Message)
  | timeout (ptr : ℕ)
  | drainTick
  | backgroundTick
  | probeTimeout
  | request (req : Request) (timeoutOverrideMs : UInt64) (retries : ℕ)
  | cancel (tid : UInt16)
  | checkNode (node : Node)
  | addNode (addr : Ipv4Address)
  | setBootstrapped (value : Bool)
  | close

/-- The node after an input. -/
def step (env : Env) (s : RpcNode) : Input → RpcNode
  | .recv fromServer remote msg => s.onRecv env fromServer remote msg
  | .timeout ptr => s.onRequestTimeout ptr
  | .drainTick => { s with socket := s.socket.onDrainTick }
  | .backgroundTick => s.backgroundTick
  | .probeTimeout => s.finishFirewallProbe env
  | .request req timeoutOverrideMs retries =>
    { s with
      socket := (s.socket.requestWith req timeoutOverrideMs retries (some .other)
        (some .other)).1 }
  | .cancel tid => { s with socket := (s.socket.cancelRequest tid).1 }
  | .checkNode node => s.checkNode node
  | .addNode addr => s.addNode env addr
  | .setBootstrapped value => { s with bootstrapped := value }
  | .close => s.close

/-- A fresh node: the hook for full buckets is installed. -/
def init (localId : NodeId) (firstTid : UInt16) : RpcNode where
  socket := RpcSocket.init NodeCallback firstTid
  table := { id := localId, onFull := true }

/-! ## What the parts of the node do -/

variable {env : Env} {s : RpcNode}

lemma resolve_eq (s : RpcNode) (tid : UInt16) :
    s.resolve tid = match (s.socket.onResponse tid).2.bind (·.onResponse) with
      | none => { s with socket := (s.socket.onResponse tid).1 }
      | some callback => ({ s with socket := (s.socket.onResponse tid).1 }).runOnResponse callback := rfl

lemma onRequestTimeout_eq (s : RpcNode) (ptr : ℕ) :
    s.onRequestTimeout ptr = match (s.socket.onRequestTimeout ptr).2.bind (·.onTimeout) with
      | none => { s with socket := (s.socket.onRequestTimeout ptr).1 }
      | some callback =>
        ({ s with socket := (s.socket.onRequestTimeout ptr).1 }).runOnTimeout callback := rfl

lemma onBucketFull_cases (s : RpcNode) (bucketIdx : ℕ) (newNode : Node) :
    s.onBucketFull bucketIdx newNode = s ∨
      ∃ oldest, s.onBucketFull bucketIdx newNode = s.repingAndSwap newNode oldest := by
  unfold onBucketFull
  split
  · exact .inl rfl
  · split
    · exact .inl rfl
    · split
      · exact .inl rfl
      · next oldest _ =>
        split
        · exact .inl rfl
        · exact .inr ⟨oldest, rfl⟩

/-- The state after the hook for full buckets was called for a node. -/
def hooked (s : RpcNode) (bucketIdx : ℕ) (node : Node) : RpcNode :=
  ({ s with
    table := { s.table with fullCalls := s.table.fullCalls ++ [(bucketIdx, node)] }
    events := s.events ++ [TableEvent.full node (s.table.has node.id) (bucketSize s.table node.id)]
    }).onBucketFull bucketIdx node

/-- **What `table_.add` does to a node with the hook installed**: the own id is ignored; a new id
whose bucket has room is added; for any other one the hook is called. -/
lemma tableAdd_cases (hhook : s.table.onFull = true) (node : Node) :
    (node.id = s.table.id ∧ s.tableAdd node = (s, false)) ∨
    (node.id ≠ s.table.id ∧ s.table.has node.id = false ∧ bucketSize s.table node.id < K ∧
      (s.table.add node).2 = true ∧
      s.tableAdd node = ({ s with table := (s.table.add node).1 }, true)) ∨
    (node.id ≠ s.table.id ∧ (s.table.has node.id = true ∨ K ≤ bucketSize s.table node.id) ∧
      ∃ bucketIdx, s.tableAdd node = (s.hooked bucketIdx node, false)) := by
  by_cases hown : node.id = s.table.id
  · refine .inl ⟨hown, ?_⟩
    simp [tableAdd, Table.add, hown]
  · refine .inr ?_
    cases hb : s.table.bucketOf node.id with
    | none => exact absurd ((Table.bucketOf_eq_none_iff s.table node.id).1 hb) hown
    | some i =>
      have hhas : s.table.has node.id = (s.table.buckets i).hasId node.id := by
        simp [Table.has, Table.get, hb, Bucket.hasId]
      have hsize : bucketSize s.table node.id = (s.table.buckets i).nodes.length := by
        simp [bucketSize, hb]
      cases hadd : ((s.table.buckets i).add node).2 with
      | true =>
        have htable : s.table.add node = ({ s.table with
            buckets := Function.update s.table.buckets i ((s.table.buckets i).add node).1
            size := s.table.size + 1 }, true) := by
          simp [Table.add, hown, hb, hadd]
        refine .inl ⟨hown, ?_, ?_, by rw [htable], ?_⟩
        · rw [hhas]
          unfold Bucket.add at hadd
          split at hadd
          · simp at hadd
          · next hno => simpa using hno
        · rw [hsize]
          unfold Bucket.add at hadd
          split at hadd
          · simp at hadd
          · split at hadd
            · simp at hadd
            · next hroom => simpa [Bucket.isFull] using hroom
        · simp [tableAdd, htable]
      | false =>
        have htable : s.table.add node =
            ({ s.table with fullCalls := s.table.fullCalls ++ [(i.val, node)] }, false) := by
          simp [Table.add, hown, hb, hadd, hhook]
        refine .inr ⟨hown, ?_, i.val, by simp [tableAdd, htable, hooked]⟩
        rw [hhas, hsize]
        unfold Bucket.add at hadd
        split at hadd
        · next hyes => exact .inl hyes
        · split at hadd
          · next hfull => exact .inr (by simpa [Bucket.isFull] using hfull)
          · simp at hadd

/-! ## What the node does to its engine and its table -/

/-- The parts of the state that only the timers of the node change. -/
structure SameMode (s t : RpcNode) : Prop where
  tick : t.tick = s.tick
  ephemeral : t.ephemeral = s.ephemeral
  firewalled : t.firewalled = s.firewalled
  probeRunning : t.probeRunning = s.probeRunning

/-- A call of the table that does not rebuild it. -/
def KeepsId : TableOp → Prop
  | .rebuildWithId _ => False
  | _ => True

/-- **What the handling of peers does**: moves of the engine, calls of the table that do not rebuild
it, and nothing else but counters and the log. -/
structure Evolves (s t : RpcNode) : Prop where
  moves : WellFormed s.socket → Moves s.socket t.socket
  table : ∃ ops, (∀ op ∈ ops, KeepsId op) ∧ t.table = Runs.run Routing.step s.table ops
  mode : SameMode s t

lemma Evolves.of_eq {t : RpcNode} (hsocket : t.socket = s.socket) (htable : t.table = s.table)
    (hmode : SameMode s t) : Evolves s t :=
  ⟨fun _ => hsocket ▸ (Quiets.refl _).moves, ⟨[], by simp, htable⟩, hmode⟩

lemma Evolves.of_op {t : RpcNode} (op : TableOp) (hop : KeepsId op) (hsocket : t.socket = s.socket)
    (htable : t.table = Routing.step s.table op) (hmode : SameMode s t) : Evolves s t :=
  ⟨fun _ => hsocket ▸ (Quiets.refl _).moves, ⟨[op], by simpa using hop, htable⟩, hmode⟩

lemma Evolves.trans {t u : RpcNode} (h₁ : Evolves s t) (h₂ : Evolves t u) : Evolves s u := by
  obtain ⟨ops₁, hkeep₁, htable₁⟩ := h₁.table
  obtain ⟨ops₂, hkeep₂, htable₂⟩ := h₂.table
  refine ⟨fun hwf => ?_, ⟨ops₁ ++ ops₂, fun op hop => ?_, ?_⟩, ?_⟩
  · have hmoves := h₁.moves hwf
    exact hmoves.trans (h₂.moves (hmoves.wellFormed hwf))
  · rcases List.mem_append.1 hop with hop | hop
    · exact hkeep₁ op hop
    · exact hkeep₂ op hop
  · rw [htable₂, htable₁, Runs.run_append]
  · exact ⟨h₂.mode.tick.trans h₁.mode.tick, h₂.mode.ephemeral.trans h₁.mode.ephemeral,
      h₂.mode.firewalled.trans h₁.mode.firewalled,
      h₂.mode.probeRunning.trans h₁.mode.probeRunning⟩

lemma Evolves.refl (s : RpcNode) : Evolves s s := .of_eq rfl rfl ⟨rfl, rfl, rfl, rfl⟩

lemma repingAndSwap_evolves (s : RpcNode) (newNode oldest : Node) :
    Evolves s (s.repingAndSwap newNode oldest) :=
  ⟨fun hwf => (requestWith_requested _ _ _ _ _ _).moves hwf,
    ⟨[.modify oldest.id (pingedAt s.tick)], by simp [KeepsId], rfl⟩, ⟨rfl, rfl, rfl, rfl⟩⟩

lemma onBucketFull_evolves (s : RpcNode) (bucketIdx : ℕ) (newNode : Node) :
    Evolves s (s.onBucketFull bucketIdx newNode) := by
  rcases s.onBucketFull_cases bucketIdx newNode with hsame | ⟨oldest, hswap⟩
  · rw [hsame]
    exact .refl s
  · rw [hswap]
    exact repingAndSwap_evolves s newNode oldest

lemma tableAdd_evolves (s : RpcNode) (node : Node) : Evolves s (s.tableAdd node).1 := by
  have hadd : ∀ events, Evolves s { s with table := (s.table.add node).1, events := events } :=
    fun events => .of_op (.add node) trivial rfl rfl ⟨rfl, rfl, rfl, rfl⟩
  unfold tableAdd
  dsimp only
  split
  · exact hadd s.events
  · exact (hadd _).trans (onBucketFull_evolves _ _ _)

lemma removeNode_evolves {t : RpcNode} (id : NodeId) (hsocket : t.socket = s.socket)
    (htable : t.table = (s.table.remove id).1) (hmode : SameMode s t) : Evolves s t :=
  .of_op (.remove id) trivial hsocket htable hmode

lemma doSwap_evolves (s : RpcNode) (state : SwapState) : Evolves s (s.doSwap state) := by
  have hremove : Evolves s { s with table := (s.table.remove state.oldId).1 } :=
    removeNode_evolves state.oldId rfl rfl ⟨rfl, rfl, rfl, rfl⟩
  have hadd := hremove.trans (tableAdd_evolves _ state.newNode)
  exact hadd.trans (.of_eq rfl rfl ⟨rfl, rfl, rfl, rfl⟩)

lemma checkNode_evolves (s : RpcNode) (node : Node) : Evolves s (s.checkNode node) :=
  ⟨fun hwf => (requestWith_requested _ _ _ _ _ _).moves hwf,
    ⟨[.modify node.id (pingedAt s.tick)], by simp [KeepsId], rfl⟩, ⟨rfl, rfl, rfl, rfl⟩⟩

lemma runOnResponse_evolves (s : RpcNode) (callback : NodeCallback) :
    Evolves s (s.runOnResponse callback) := by
  cases callback with
  | swap state =>
    have hcount : Evolves s { s with repinging := s.repinging - 1 } :=
      .of_eq rfl rfl ⟨rfl, rfl, rfl, rfl⟩
    unfold runOnResponse
    dsimp only
    split
    · exact hcount.trans (doSwap_evolves _ state)
    · exact hcount
  | check state =>
    unfold runOnResponse
    dsimp only
    split
    · exact removeNode_evolves state.targetId rfl rfl ⟨rfl, rfl, rfl, rfl⟩
    · exact .of_eq rfl rfl ⟨rfl, rfl, rfl, rfl⟩
  | other => exact .refl s

lemma runOnTimeout_evolves (s : RpcNode) (callback : NodeCallback) :
    Evolves s (s.runOnTimeout callback) := by
  cases callback with
  | swap state =>
    have hcount : Evolves s { s with repinging := s.repinging - 1 } :=
      .of_eq rfl rfl ⟨rfl, rfl, rfl, rfl⟩
    exact hcount.trans (doSwap_evolves _ state)
  | check state => exact removeNode_evolves state.targetId rfl rfl ⟨rfl, rfl, rfl, rfl⟩
  | other => exact .refl s

lemma addNodeFromNetwork_evolves (env : Env) (s : RpcNode) (id : NodeId) (fromAddr : Ipv4Address) :
    Evolves s (s.addNodeFromNetwork env id fromAddr) := by
  unfold addNodeFromNetwork
  split
  · exact .refl s
  · split
    · exact .of_op (.modify id (seenAt s.tick)) trivial rfl rfl ⟨rfl, rfl, rfl, rfl⟩
    · exact tableAdd_evolves s _

lemma addNodeFromNetwork_cases {id : NodeId} {fromAddr : Ipv4Address}
    (hfilter : env.filterAccept id fromAddr = true) (s : RpcNode) :
    (s.table.has id = true ∧ s.addNodeFromNetwork env id fromAddr =
      { s with table := s.table.modify id (seenAt s.tick) }) ∨
    (s.table.has id = false ∧ s.addNodeFromNetwork env id fromAddr = (s.tableAdd {
      id, host := fromAddr.hostString, port := fromAddr.port
      added := s.tick, pinged := s.tick, seen := s.tick }).1) := by
  cases hhas : s.table.has id with
  | true => exact .inl ⟨rfl, by simp [addNodeFromNetwork, hfilter, hhas]⟩
  | false => exact .inr ⟨rfl, by simp [addNodeFromNetwork, hfilter, hhas]⟩

lemma observe_evolves (env : Env) (s : RpcNode) (id : Option NodeId) (remote : Ipv4Address) :
    Evolves s (s.observe env id remote) := by
  unfold observe
  split
  · exact .refl s
  · split
    · exact addNodeFromNetwork_evolves env s _ remote
    · exact .refl s

lemma hearResponse_evolves (env : Env) (s : RpcNode) (remote : Ipv4Address) (resp : Response) :
    Evolves s (s.hearResponse env remote resp) := by
  have hsample : Evolves s { s with natSampler := (s.natSampler.add resp.fromAddr remote).1 } :=
    .of_eq rfl rfl ⟨rfl, rfl, rfl, rfl⟩
  exact hsample.trans (observe_evolves env _ resp.id remote)

lemma resolve_evolves (s : RpcNode) (tid : UInt16) : Evolves s (s.resolve tid) := by
  have hsocket : Evolves s { s with socket := (s.socket.onResponse tid).1 } :=
    ⟨fun hwf => (onResponse_quiets hwf tid).moves, ⟨[], by simp, rfl⟩, ⟨rfl, rfl, rfl, rfl⟩⟩
  unfold resolve
  dsimp only
  split
  · exact hsocket
  · exact hsocket.trans (runOnResponse_evolves _ _)

lemma onRequestTimeout_evolves (s : RpcNode) (ptr : ℕ) : Evolves s (s.onRequestTimeout ptr) := by
  have hsocket : Evolves s { s with socket := (s.socket.onRequestTimeout ptr).1 } :=
    ⟨fun hwf => (onRequestTimeout_quiets hwf ptr).moves, ⟨[], by simp, rfl⟩, ⟨rfl, rfl, rfl, rfl⟩⟩
  unfold onRequestTimeout
  dsimp only
  split
  · exact hsocket
  · exact hsocket.trans (runOnTimeout_evolves _ _)

lemma handleMessage_evolves (env : Env) (s : RpcNode) (remote : Ipv4Address) (msg : Message) :
    Evolves s (s.handleMessage env remote msg) := by
  unfold handleMessage
  split
  · exact .refl s
  · cases msg with
    | request id => exact observe_evolves env s id remote
    | response resp =>
      exact (hearResponse_evolves env s remote resp).trans (resolve_evolves _ _)
    | other => exact .refl s

/-! ## Every state of the node -/

/-- The engine is well formed, the table coherent, and the hook for full buckets installed. -/
structure Sane (s : RpcNode) : Prop where
  wellFormed : WellFormed s.socket
  coherent : s.table.Coherent
  onFull : s.table.onFull = true

/-- What a step does to the engine and the table: moves of the one, calls of the other. -/
structure Advances (s t : RpcNode) : Prop where
  moves : WellFormed s.socket → Moves s.socket t.socket
  table : ∃ ops, t.table = Runs.run Routing.step s.table ops

lemma Evolves.advances {t : RpcNode} (h : Evolves s t) : Advances s t :=
  ⟨h.moves, h.table.imp fun _ hops => hops.2⟩

lemma Advances.trans {t u : RpcNode} (h₁ : Advances s t) (h₂ : Advances t u) : Advances s u := by
  obtain ⟨ops₁, htable₁⟩ := h₁.table
  obtain ⟨ops₂, htable₂⟩ := h₂.table
  refine ⟨fun hwf => ?_, ops₁ ++ ops₂, by rw [htable₂, htable₁, Runs.run_append]⟩
  have hmoves := h₁.moves hwf
  exact hmoves.trans (h₂.moves (hmoves.wellFormed hwf))

lemma Advances.of_eq {t : RpcNode} (hsocket : t.socket = s.socket) (htable : t.table = s.table) :
    Advances s t :=
  ⟨fun _ => hsocket ▸ (Quiets.refl _).moves, [], htable⟩

lemma Advances.of_quiets {t : RpcNode} (hquiets : WellFormed s.socket → Quiets s.socket t.socket)
    (htable : t.table = s.table) : Advances s t :=
  ⟨fun hwf => (hquiets hwf).moves, [], htable⟩

lemma step_onFull (t : Table) (op : TableOp) : (Routing.step t op).onFull = t.onFull := by
  cases op with
  | add node =>
    simp only [Routing.step, Table.add]
    split
    · rfl
    · split
      · rfl
      · split
        · rfl
        · split <;> rfl
  | remove id =>
    simp only [Routing.step, Table.remove]
    split
    · rfl
    · split <;> rfl
  | rebuildWithId newId => rfl
  | modify id f =>
    simp only [Routing.step, Table.modify]
    split <;> rfl

lemma Advances.sane {t : RpcNode} (h : Advances s t) (hs : Sane s) : Sane t := by
  obtain ⟨ops, htable⟩ := h.table
  have hrun := Runs.run_invariant (P := fun t : Table => t.Coherent ∧ t.onFull = true)
    (fun t op ht => ⟨coherent_step ht.1 op, (step_onFull t op).trans ht.2⟩)
    ⟨hs.coherent, hs.onFull⟩ ops
  rw [← htable] at hrun
  exact ⟨(h.moves hs.wellFormed).wellFormed hs.wellFormed, hrun.1, hrun.2⟩

/-! ## The probe and the timers -/

/-- What the probe does to the node: it keeps its own record, sets the flags, and may have the table
rebuilt under another id. -/
structure Probed (s t : RpcNode) : Prop where
  socket : t.socket = s.socket
  tick : t.tick = s.tick
  events : t.events = s.events
  ephemeral : s.ephemeral = false → t.ephemeral = false
  table : t.table = s.table ∨ ∃ id, t.table = s.table.rebuildWithId id

lemma Probed.refl (s : RpcNode) : Probed s s := ⟨rfl, rfl, rfl, id, .inl rfl⟩

lemma Probed.advances {t : RpcNode} (h : Probed s t) : Advances s t := by
  refine ⟨fun _ => h.socket ▸ (Quiets.refl _).moves, ?_⟩
  rcases h.table with hsame | ⟨id, hrebuilt⟩
  · exact ⟨[], hsame⟩
  · exact ⟨[.rebuildWithId id], hrebuilt⟩

lemma doPersistentTransition_probed (env : Env) (s : RpcNode) :
    Probed s (s.doPersistentTransition env) := by
  unfold doPersistentTransition
  split
  · exact .refl s
  · refine ⟨rfl, rfl, rfl, fun _ => rfl, ?_⟩
    dsimp only
    split
    · exact .inr ⟨_, rfl⟩
    · exact .inl rfl

/-- **How the probe ends**: there is none, or it says firewalled, or the node becomes persistent and
the NAT preserves the port of the client socket as far as is known. -/
lemma finishFirewallProbe_cases (env : Env) (s : RpcNode) :
    s.probeRunning = false ∧ s.finishFirewallProbe env = s ∨
    s.finishFirewallProbe env = { s with probeRunning := false, firewalled := true } ∨
    (s.natSampler.port = 0 ∨ s.natSampler.port = env.clientPort) ∧
      s.finishFirewallProbe env = ({ s with probeRunning := false }).doPersistentTransition env := by
  unfold finishFirewallProbe
  split
  · next hnone => exact .inl ⟨by simpa using hnone, rfl⟩
  · dsimp only
    split
    · exact .inr (.inl rfl)
    · split
      · exact .inr (.inl rfl)
      · next hport =>
        refine .inr (.inr ⟨?_, rfl⟩)
        by_cases hzero : s.natSampler.port = 0
        · exact .inl hzero
        · exact .inr (not_not.1 fun hne => hport ⟨hzero, hne⟩)

lemma finishFirewallProbe_probed (env : Env) (s : RpcNode) :
    Probed s (s.finishFirewallProbe env) := by
  rcases finishFirewallProbe_cases env s with ⟨-, heq⟩ | heq | ⟨-, heq⟩ <;> rw [heq]
  · exact .refl s
  · exact ⟨rfl, rfl, rfl, id, .inl rfl⟩
  · have h := doPersistentTransition_probed env { s with probeRunning := false }
    exact ⟨h.socket, h.tick, h.events, h.ephemeral, h.table⟩

lemma received_cases (env : Env) (s : RpcNode) (fromServer : Bool) (remote : Ipv4Address) :
    s.received env fromServer remote = s ∨
      s.received env fromServer remote = s.noteReply remote ∨
      s.received env fromServer remote = (s.noteReply remote).finishFirewallProbe env := by
  cases fromServer with
  | false => exact .inl rfl
  | true =>
    simp only [received, if_true, countProbeReply]
    split
    · exact .inl rfl
    · split
      · exact .inr (.inr rfl)
      · exact .inr (.inl rfl)

lemma received_probed (env : Env) (s : RpcNode) (fromServer : Bool) (remote : Ipv4Address) :
    Probed s (s.received env fromServer remote) := by
  rcases received_cases env s fromServer remote with heq | heq | heq <;> rw [heq]
  · exact .refl s
  · exact ⟨rfl, rfl, rfl, id, .inl rfl⟩
  · have h := finishFirewallProbe_probed env (s.noteReply remote)
    exact ⟨h.socket, h.tick, h.events, h.ephemeral, h.table⟩

lemma onRecv_advances (env : Env) (s : RpcNode) (fromServer : Bool) (remote : Ipv4Address)
    (msg : Message) : Advances s (s.onRecv env fromServer remote msg) :=
  (received_probed env s fromServer remote).advances.trans
    (handleMessage_evolves env _ remote msg).advances

/-- What the background timer does to the node: it counts, and may start a probe if the node is
ephemeral. -/
structure Ticked (s t : RpcNode) : Prop where
  socket : t.socket = s.socket
  table : t.table = s.table
  events : t.events = s.events
  ephemeral : t.ephemeral = s.ephemeral
  firewalled : t.firewalled = s.firewalled
  probeRunning : s.ephemeral = false → t.probeRunning = s.probeRunning

lemma Ticked.refl (s : RpcNode) : Ticked s s := ⟨rfl, rfl, rfl, rfl, rfl, fun _ => rfl⟩

lemma Ticked.trans {t u : RpcNode} (h₁ : Ticked s t) (h₂ : Ticked t u) : Ticked s u where
  socket := h₂.socket.trans h₁.socket
  table := h₂.table.trans h₁.table
  events := h₂.events.trans h₁.events
  ephemeral := h₂.ephemeral.trans h₁.ephemeral
  firewalled := h₂.firewalled.trans h₁.firewalled
  probeRunning h := (h₂.probeRunning (h₁.ephemeral.trans h)).trans (h₁.probeRunning h)

lemma startFirewallProbe_ticked (hs : s.ephemeral = true) : Ticked s s.startFirewallProbe := by
  unfold startFirewallProbe
  split
  · exact .refl s
  · exact ⟨rfl, rfl, rfl, rfl, rfl, fun h => by simp [hs] at h⟩

lemma checkPersistent_ticked (s : RpcNode) : Ticked s s.checkPersistent := by
  unfold checkPersistent
  split
  · exact .refl s
  · next hephemeral =>
    split
    · exact .refl s
    · split
      · exact ⟨rfl, rfl, rfl, rfl, rfl, fun _ => rfl⟩
      · have hchecked : Ticked s { s with
            stableTicks := stableTicksMore, lastNatHost := s.natSampler.host } :=
          ⟨rfl, rfl, rfl, rfl, rfl, fun _ => rfl⟩
        dsimp only
        split
        · exact hchecked.trans (startFirewallProbe_ticked (by simpa using hephemeral))
        · exact hchecked

lemma backgroundTick_ticked (s : RpcNode) : Ticked s s.backgroundTick := by
  unfold backgroundTick
  split
  · exact .refl s
  · dsimp only
    split
    · exact ⟨rfl, rfl, rfl, rfl, rfl, fun _ => rfl⟩
    · split
      · refine Ticked.trans ?_ (checkPersistent_ticked _)
        exact ⟨rfl, rfl, rfl, rfl, rfl, fun _ => rfl⟩
      · exact ⟨rfl, rfl, rfl, rfl, rfl, fun _ => rfl⟩

/-! ## Every step -/

/-- **Every step of the node** makes moves of the engine and calls of the table. -/
theorem step_advances (env : Env) (s : RpcNode) (i : Input) : Advances s (s.step env i) := by
  cases i with
  | recv fromServer remote msg => exact onRecv_advances env s fromServer remote msg
  | timeout ptr => exact (onRequestTimeout_evolves s ptr).advances
  | drainTick => exact .of_quiets onDrainTick_quiets rfl
  | backgroundTick => exact .of_eq (backgroundTick_ticked s).socket (backgroundTick_ticked s).table
  | probeTimeout => exact (finishFirewallProbe_probed env s).advances
  | request req timeoutOverrideMs retries =>
    exact ⟨fun hwf => (requestWith_requested _ _ _ _ _ _).moves hwf, [], rfl⟩
  | cancel tid => exact .of_quiets (fun hwf => cancelRequest_quiets hwf tid) rfl
  | checkNode node => exact (checkNode_evolves s node).advances
  | addNode addr => exact (tableAdd_evolves s _).advances
  | setBootstrapped value => exact .of_eq rfl rfl
  | close => exact .of_quiets close_quiets rfl

lemma sane_init (localId : NodeId) (firstTid : UInt16) : Sane (init localId firstTid) :=
  ⟨wellFormed_init firstTid, Table.coherent_init localId true [], rfl⟩

lemma sane_step (env : Env) (s : RpcNode) (i : Input) (h : Sane s) : Sane (s.step env i) :=
  (step_advances env s i).sane h

end RpcNode

end HyperDHT.Rpc
