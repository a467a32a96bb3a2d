import HyperDHT.Handlers.DownHint
import HyperDHT.Rpc.Ages

/-!
# Where the nodes of the routing table come from

A node enters the routing table in one of three ways: the constructor seeds the table
(`dht.cpp`), the application names an address (`add_node`), or a datagram arrives whose sender
claims the id of its own address and passes the filter (`rpc.cpp`). A ping-and-swap only carries
such a node along. The nodes that others report as their closest are visited by queries, but do not
enter the table.

## Main definitions

* `Rpc.filterNode` — the filter of the constructor: the blocked seeds, and the filter of the caller.
* `Rpc.RpcNode.constructed` — a node whose table is seeded.
* `Rpc.RpcNode.Vouched` — the node stands for an address with a property.
* `Handlers.HintedNode.Known` — the address was seeded, named, or heard from.

## Main results

* `Rpc.RpcNode.vouched_step` — every step keeps vouched nodes, and brings in only those it vouches
  for.
* `Handlers.HintedNode.table_provenance` — in every run every node of the table has the id of its
  address, that address was seeded, named or heard from, and no address occurs twice.
-/

set_option autoImplicit false

namespace HyperDHT.Rpc

open Compact Routing RpcSocket

/-! ## The filter of the constructor -/

/-- The seeds of the test network that every node ignores; port zero stands for all ports. -/
def testnetBlocklist : List Ipv4Address :=
  [.ofOctets 134 209 28 98 49738, .ofOctets 167 99 142 185 49738, .ofOctets 35 233 47 252 9400,
    .ofOctets 150 136 142 116 0]

/-- Whether an entry of the list blocks the address. -/
def blocks (addr e : Ipv4Address) : Bool :=
  addr.host = e.host ∧ (e.port = 0 ∨ addr.port = e.port)

/-- The filter that the constructor installs: the list first, then the filter of the caller. -/
def filterNode (userFilter : Option (NodeId → Ipv4Address → Bool)) (id : NodeId)
    (addr : Ipv4Address) : Bool :=
  if testnetBlocklist.any (blocks addr) then false
  else
    match userFilter with
    | none => true
    | some accept => accept id addr

/-- What the constructor makes of a filter of the caller. -/
def Env.filtered (env : Env) (userFilter : Option (NodeId → Ipv4Address → Bool)) : Env :=
  { env with filterAccept := filterNode userFilter }

lemma filterNode_eq_true {userFilter : Option (NodeId → Ipv4Address → Bool)} {id : NodeId}
    {addr : Ipv4Address} (h : filterNode userFilter id addr = true) :
    testnetBlocklist.any (blocks addr) = false ∧
      ∀ accept, userFilter = some accept → accept id addr = true := by
  unfold filterNode at h
  split at h
  · simp at h
  · next hblocked =>
    refine ⟨eq_false_of_ne_true hblocked, ?_⟩
    rintro accept rfl
    exact h

namespace RpcNode

/-- The id that the sender of a message claims. -/
def Message.claimed : Message → Option NodeId
  | .request id => id
  | .response resp => resp.id
  | .other => none

/-- The table is seeded from the last node to the first, before the node is bootstrapped. -/
def seed (env : Env) (s : RpcNode) (nodes : List Ipv4Address) : RpcNode :=
  nodes.reverse.foldl (fun s addr => (s.tableAdd {
    id := computePeerId env.blake2b addr, host := addr.hostString, port := addr.port
    added := s.tick, pinged := s.tick, seen := s.tick }).1) s

/-- A fresh node whose table is seeded. -/
def constructed (env : Env) (localId : NodeId) (firstTid : UInt16) (nodes : List Ipv4Address) :
    RpcNode :=
  seed env (init localId firstTid) nodes

/-! ## Vouched nodes -/

/-- The node stands for an address: it has the text of its host, its port, and an id with the
property. -/
def Vouched (V : NodeId → Ipv4Address → Prop) (n : Node) : Prop :=
  ∃ addr, n.host = addr.hostString ∧ n.port = addr.port ∧ V n.id addr

/-- The nodes of the table, and those that swaps under way would bring in, are vouched for. -/
structure AllVouched (V : NodeId → Ipv4Address → Prop) (s : RpcNode) : Prop where
  table : AllNodes (Vouched V) s.table
  swaps : ∀ r ∈ s.socket.outstanding, ∀ state,
    r.onResponse = some (.swap state) ∨ r.onTimeout = some (.swap state) → Vouched V state.newNode

variable {V : NodeId → Ipv4Address → Prop} {env : Env} {s t : RpcNode}

lemma AllVouched.of_table (h : AllVouched V s) (htable : AllNodes (Vouched V) t.table)
    (hsocket : t.socket = s.socket) : AllVouched V t where
  table := htable
  swaps := by
    rw [hsocket]
    exact h.swaps

lemma AllVouched.congr (h : AllVouched V s) (hsocket : t.socket = s.socket)
    (htable : t.table = s.table) : AllVouched V t :=
  h.of_table (htable ▸ h.table) hsocket

/-- Quiet moves of the engine bring in no swap. -/
lemma AllVouched.quiets (h : AllVouched V s) (hwf : WellFormed s.socket)
    (hquiets : Quiets s.socket t.socket) (htable : t.table = s.table) : AllVouched V t where
  table := htable ▸ h.table
  swaps r hr := by
    obtain ⟨b, hb, n, rfl⟩ := hquiets.exists_outstanding hwf hr
    exact h.swaps b hb

/-- A request brings in at most the swap of its own callback. -/
lemma AllVouched.request (h : AllVouched V s) (hwf : WellFormed s.socket) {req : Request}
    {timeoutOverrideMs : UInt64} {retries : ℕ} (callback : NodeCallback)
    (hcallback : ∀ state, callback = .swap state → Vouched V state.newNode)
    (hsocket : t.socket = (s.socket.requestWith req timeoutOverrideMs retries (some callback)
      (some callback)).1)
    (htable : AllNodes (Vouched V) t.table) : AllVouched V t where
  table := htable
  swaps r hr := by
    rw [hsocket] at hr
    have hrequested := requestWith_requested s.socket req timeoutOverrideMs retries (some callback)
      (some callback)
    rcases hrequested.outstanding_cases hwf with
      ⟨-, -, hout, -⟩ | ⟨-, -, b, -, hresponse, htimeout, -, -, hout⟩
    · exact h.swaps r (hout ▸ hr)
    · obtain ⟨c, hc, n, rfl⟩ := hout r hr
      rcases List.mem_cons.1 hc with rfl | hc
      · intro state hstate
        simp only [hresponse, htimeout, or_self, Option.some.injEq] at hstate
        exact hcallback state hstate
      · exact h.swaps c hc

/-- The ticks of a node are not part of what it stands for. -/
lemma AllVouched.modify (h : AllVouched V s) (id : NodeId) {f : NodeUpdate}
    (hf : ∀ n, (f.apply n).host = n.host ∧ (f.apply n).port = n.port) :
    AllNodes (Vouched V) (s.table.modify id f) :=
  h.table.modify id fun n hn => by
    obtain ⟨addr, hhost, hport, hv⟩ := hn
    exact ⟨addr, (hf n).1.trans hhost, (hf n).2.trans hport, by rwa [f.apply_id]⟩

lemma repingAndSwap_vouched (h : AllVouched V s) (hwf : WellFormed s.socket) {newNode : Node}
    (hnew : Vouched V newNode) (oldest : Node) : AllVouched V (s.repingAndSwap newNode oldest) := by
  refine h.request hwf (.swap { newNode, oldId := oldest.id, lastSeen := oldest.seen })
    (fun state hstate => ?_) rfl (h.modify oldest.id fun n => ⟨rfl, rfl⟩)
  obtain rfl := NodeCallback.swap.inj hstate
  exact hnew

lemma checkNode_vouched (h : AllVouched V s) (hwf : WellFormed s.socket) (node : Node) :
    AllVouched V (s.checkNode node) :=
  h.request hwf (.check { targetId := node.id, lastSeen := node.seen })
    (fun state hstate => by simp at hstate) rfl (h.modify node.id fun n => ⟨rfl, rfl⟩)

/-- **Adding a vouched node** to the table, the hook for full buckets included. -/
lemma tableAdd_vouched (hs : Sane s) (h : AllVouched V s) {node : Node} (hnode : Vouched V node) :
    AllVouched V (s.tableAdd node).1 := by
  rcases tableAdd_eq hs.onFull node with ⟨-, heq⟩ | ⟨i, -, heq⟩
  · rw [heq]
    exact h.of_table (h.table.add hnode) rfl
  · have hrefused : AllVouched V (s.refused i node) := h.of_table h.table rfl
    have hhooked : s.hooked i node = (s.refused i node).onBucketFull i node := rfl
    rw [heq, hhooked]
    rcases (s.refused i node).onBucketFull_cases i node with hsame | ⟨oldest, hswap⟩
    · rw [hsame]
      exact hrefused
    · rw [hswap]
      exact repingAndSwap_vouched hrefused hs.wellFormed hnode oldest

lemma doSwap_vouched (hs : Sane s) (h : AllVouched V s) {state : SwapState}
    (hstate : Vouched V state.newNode) : AllVouched V (s.doSwap state) := by
  have hremove : Evolves s { s with table := (s.table.remove state.oldId).1 } :=
    removeNode_evolves state.oldId rfl rfl ⟨rfl, rfl, rfl, rfl⟩
  have hremoved : AllVouched V { s with table := (s.table.remove state.oldId).1 } :=
    h.of_table (h.table.remove state.oldId) rfl
  exact (tableAdd_vouched (hremove.advances.sane hs) hremoved hstate).congr rfl rfl

/-! ## What arrives -/

/-- The message vouches for its sender: it claims the id of its address, and the filter accepts
it. -/
def Vouches (env : Env) (remote : Ipv4Address) (msg : Message) : Prop :=
  msg.claimed = some (computePeerId env.blake2b remote) ∧
    env.filterAccept (computePeerId env.blake2b remote) remote = true

lemma observe_vouched (env : Env) (hs : Sane s) (h : AllVouched V s) {id : Option NodeId}
    {remote : Ipv4Address}
    (hV : id = some (computePeerId env.blake2b remote) →
      env.filterAccept (computePeerId env.blake2b remote) remote = true →
      V (computePeerId env.blake2b remote) remote) :
    AllVouched V (s.observe env id remote) := by
  cases id with
  | none => exact h
  | some known =>
    unfold observe
    dsimp only
    split
    · next hown =>
      subst hown
      unfold addNodeFromNetwork
      split
      · exact h
      · next hfilter =>
        have hbrought := hV rfl (by simpa using hfilter)
        split
        · exact h.of_table (h.modify _ fun n => ⟨rfl, rfl⟩) rfl
        · exact tableAdd_vouched hs h ⟨remote, rfl, rfl, hbrought⟩
    · exact h

/-- A callback for an answer carries vouched nodes along. -/
lemma runOnResponse_vouched (hs : Sane s) (h : AllVouched V s) {callback : NodeCallback}
    (hcallback : ∀ state, callback = .swap state → Vouched V state.newNode) :
    AllVouched V (s.runOnResponse callback) := by
  cases callback with
  | swap state =>
    have hcounted : AllVouched V { s with repinging := s.repinging - 1 } := h.congr rfl rfl
    have hsane : Sane { s with repinging := s.repinging - 1 } :=
      ⟨hs.wellFormed, hs.coherent, hs.onFull⟩
    unfold runOnResponse
    dsimp only
    split
    · exact doSwap_vouched hsane hcounted (hcallback state rfl)
    · exact hcounted
  | check state =>
    unfold runOnResponse
    dsimp only
    split
    · exact h.of_table (h.table.remove state.targetId) rfl
    · exact h.congr rfl rfl
  | other => exact h

/-- A callback for a timeout carries vouched nodes along. -/
lemma runOnTimeout_vouched (hs : Sane s) (h : AllVouched V s) {callback : NodeCallback}
    (hcallback : ∀ state, callback = .swap state → Vouched V state.newNode) :
    AllVouched V (s.runOnTimeout callback) := by
  cases callback with
  | swap state =>
    exact doSwap_vouched (s := { s with repinging := s.repinging - 1 })
      ⟨hs.wellFormed, hs.coherent, hs.onFull⟩ (h.congr rfl rfl) (hcallback state rfl)
  | check state => exact h.of_table (h.table.remove state.targetId) rfl
  | other => exact h

lemma resolve_vouched (hs : Sane s) (h : AllVouched V s) (tid : UInt16) :
    AllVouched V (s.resolve tid) := by
  have hquiets := onResponse_quiets hs.wellFormed tid
  have hmatched : AllVouched V { s with socket := (s.socket.onResponse tid).1 } :=
    h.quiets hs.wellFormed hquiets rfl
  have hsane : Sane { s with socket := (s.socket.onResponse tid).1 } :=
    ⟨hquiets.wellFormed hs.wellFormed, hs.coherent, hs.onFull⟩
  rw [resolve_eq]
  split
  · exact hmatched
  · next callback hcompleted =>
    refine runOnResponse_vouched hsane hmatched ?_
    rintro state rfl
    obtain ⟨r, hr, hresponse⟩ := Option.bind_eq_some_iff.1 hcompleted
    rcases onResponse_cases hs.wellFormed tid with ⟨-, hnone⟩ | ⟨b, hb, -, hsome⟩
    · simp [hnone] at hr
    · obtain rfl : b = r := by simpa [hsome] using hr
      exact h.swaps b (mem_outstanding.2 (.inl hb)) state (.inl hresponse)

lemma onRequestTimeout_vouched (hs : Sane s) (h : AllVouched V s) (ptr : ℕ) :
    AllVouched V (s.onRequestTimeout ptr) := by
  have hquiets := onRequestTimeout_quiets hs.wellFormed ptr
  have hmatched : AllVouched V { s with socket := (s.socket.onRequestTimeout ptr).1 } :=
    h.quiets hs.wellFormed hquiets rfl
  have hsane : Sane { s with socket := (s.socket.onRequestTimeout ptr).1 } :=
    ⟨hquiets.wellFormed hs.wellFormed, hs.coherent, hs.onFull⟩
  rw [onRequestTimeout_eq]
  split
  · exact hmatched
  · next callback hcompleted =>
    refine runOnTimeout_vouched hsane hmatched ?_
    rintro state rfl
    obtain ⟨r, hr, htimeout⟩ := Option.bind_eq_some_iff.1 hcompleted
    rcases onRequestTimeout_cases hs.wellFormed ptr with
      ⟨-, hnone⟩ | ⟨b, hb, -, ⟨-, hretry⟩ | ⟨-, hgive⟩⟩
    · simp [hnone] at hr
    · simp [hretry] at hr
    · obtain rfl : b = r := by simpa [hgive] using hr
      exact h.swaps b (mem_outstanding.2 (.inl hb)) state (.inr htimeout)

lemma handleMessage_vouched (env : Env) (hs : Sane s) (h : AllVouched V s) {remote : Ipv4Address}
    {msg : Message}
    (hV : Vouches env remote msg → V (computePeerId env.blake2b remote) remote) :
    AllVouched V (s.handleMessage env remote msg) := by
  unfold handleMessage
  split
  · exact h
  · cases msg with
    | request id => exact observe_vouched env hs h fun hid hfilter => hV ⟨hid, hfilter⟩
    | response resp =>
      have hheard : AllVouched V (s.hearResponse env remote resp) :=
        @observe_vouched _ { s with natSampler := (s.natSampler.add resp.fromAddr remote).1 } env
          ⟨hs.wellFormed, hs.coherent, hs.onFull⟩ (h.congr rfl rfl) _ remote
          fun hid hfilter => hV ⟨hid, hfilter⟩
      exact resolve_vouched ((hearResponse_evolves env s remote resp).advances.sane hs) hheard
        resp.tid
    | other => exact h

/-- The probe moves nodes to other buckets at most. -/
lemma Probed.vouched (hprobed : Probed s t) (h : AllVouched V s) : AllVouched V t := by
  refine h.of_table ?_ hprobed.socket
  rcases hprobed.table with hsame | ⟨id, hrebuilt⟩
  · exact hsame ▸ h.table
  · exact hrebuilt ▸ h.table.rebuildWithId id

/-! ## Steps and seeds -/

/-- What an input vouches for: the address that the application names, or the sender of a message
that is vouched for. -/
def Input.brings (env : Env) : Input → Ipv4Address → Prop
  | .recv _ remote msg, addr => addr = remote ∧ Vouches env remote msg
  | .addNode named, addr => addr = named
  | _, _ => False

/-- **Every step keeps vouched nodes**, if what its input brings in is vouched for. -/
theorem vouched_step (env : Env) (hs : Sane s) (h : AllVouched V s) {i : Input}
    (hV : ∀ addr, i.brings env addr → V (computePeerId env.blake2b addr) addr) :
    AllVouched V (s.step env i) := by
  cases i with
  | recv fromServer remote msg =>
    have hprobed := received_probed env s fromServer remote
    exact handleMessage_vouched env (hprobed.advances.sane hs) (hprobed.vouched h)
      fun hvouches => hV remote ⟨rfl, hvouches⟩
  | timeout ptr => exact onRequestTimeout_vouched hs h ptr
  | drainTick => exact h.quiets hs.wellFormed (onDrainTick_quiets hs.wellFormed) rfl
  | backgroundTick => exact h.congr (backgroundTick_ticked s).socket (backgroundTick_ticked s).table
  | probeTimeout => exact (finishFirewallProbe_probed env s).vouched h
  | request req timeoutOverrideMs retries =>
    exact h.request hs.wellFormed .other (fun state hstate => by simp at hstate) rfl h.table
  | cancel tid => exact h.quiets hs.wellFormed (cancelRequest_quiets hs.wellFormed tid) rfl
  | checkNode node => exact checkNode_vouched h hs.wellFormed node
  | addNode addr => exact tableAdd_vouched hs h ⟨addr, rfl, rfl, hV addr rfl⟩
  | setBootstrapped value => exact h.congr rfl rfl
  | close => exact h.quiets hs.wellFormed (close_quiets hs.wellFormed) rfl

/-- The seeds are vouched for. -/
lemma vouched_constructed (env : Env) (localId : NodeId) (firstTid : UInt16)
    {nodes : List Ipv4Address}
    (hV : ∀ addr ∈ nodes, V (computePeerId env.blake2b addr) addr) :
    Sane (constructed env localId firstTid nodes) ∧
      AllVouched V (constructed env localId firstTid nodes) := by
  refine List.foldlRecOn nodes.reverse _
    (motive := fun s => Sane s ∧ AllVouched V s) ⟨sane_init localId firstTid, ?_, ?_⟩
    fun s hs addr haddr => ?_
  · exact fun i n hn => by simp [init] at hn
  · exact fun r hr => by simp [init, RpcSocket.init, outstanding] at hr
  · exact ⟨(tableAdd_evolves s _).advances.sane hs.1, tableAdd_vouched hs.1 hs.2
      ⟨addr, rfl, rfl, hV addr (List.mem_reverse.1 haddr)⟩⟩

end RpcNode

end HyperDHT.Rpc

namespace HyperDHT.Handlers.HintedNode

open Compact Routing Rpc RpcNode

variable {env : Env}

/-- How an address may come to be known in a run: it was seeded, the application named it, or a
message arrived from it that claims the id of that address and passes the filter. -/
def Known (env : Env) (nodes : List Ipv4Address) (is : List Input) (addr : Ipv4Address) : Prop :=
  addr ∈ nodes ∨ .node (.addNode addr) ∈ is ∨
    ∃ fromServer msg, .node (.recv fromServer addr msg) ∈ is ∧ Vouches env addr msg

/-- What the table says of a known address: its id is the digest of the address. -/
def Identified (env : Env) (nodes : List Ipv4Address) (is : List Input) (id : NodeId)
    (addr : Ipv4Address) : Prop :=
  id = computePeerId env.blake2b addr ∧ Known env nodes is addr

/-- A step of a run keeps vouched nodes. -/
lemma vouched_step {s : HintedNode} {V : NodeId → Ipv4Address → Prop} (hs : s.node.Sane)
    (h : AllVouched V s.node) {i : Input}
    (hV : ∀ j addr, i = .node j → j.brings env addr → V (computePeerId env.blake2b addr) addr) :
    AllVouched V (s.step env i).node := by
  cases i with
  | node j => exact RpcNode.vouched_step env hs h fun addr hbrings => hV j addr rfl hbrings
  | downHint now source value =>
    rcases s.handleDownHint_cases env now source value with hsame | ⟨bytes, n, -, -, hcheck⟩
    · rw [step, hsame]
      exact h
    · rw [step, hcheck]
      have hhint : AllVouched V { s.node with
          table := s.node.table.modify (env.blake2b (bytes.take 6)) hinted } :=
        h.of_table (h.modify _ fun n => ⟨rfl, rfl⟩) rfl
      exact checkNode_vouched hhint hs.wellFormed _

/-- Every node of a run is vouched for by the run. -/
lemma vouched_run (env : Env) (localId : NodeId) (firstTid : UInt16) (nodes : List Ipv4Address)
    (is : List Input) :
    let s := Runs.run (step env) { node := constructed env localId firstTid nodes } is
    s.node.Sane ∧ AllVouched (Identified env nodes is) s.node := by
  have hinputs : Runs.EveryStep (step env) (fun _ i => i ∈ is)
      { node := constructed env localId firstTid nodes } is :=
    Runs.everyStep_iff_forall.2 fun before i after hsplit => by simp [hsplit]
  refine Runs.run_invariant_of_everyStep
    (P := fun s : HintedNode => s.node.Sane ∧ AllVouched (Identified env nodes is) s.node)
    (fun s i h hi => ⟨(step_advances env s i).sane h.1, vouched_step h.1 h.2 ?_⟩)
    (vouched_constructed env localId firstTid fun addr haddr => ⟨rfl, .inl haddr⟩) hinputs
  rintro j addr rfl hbrings
  refine ⟨rfl, .inr ?_⟩
  cases j with
  | recv fromServer remote msg =>
    obtain ⟨rfl, hvouches⟩ := hbrings
    exact .inr ⟨fromServer, msg, hi, hvouches⟩
  | addNode named =>
    obtain rfl := hbrings
    exact .inl hi
  | timeout | drainTick | backgroundTick | probeTimeout | request | cancel | checkNode
  | setBootstrapped | close => exact hbrings.elim

/-- **Where the nodes of the table come from**, in every run of a node that was constructed with a
filter and with seeds: a node of the table stands for an address, whose digest is its id; the address
was seeded, or named by the application, or a message came from there that claims this id, and then
neither the list nor the filter of the caller speaks against it; and no other node of the table
stands for the same address.

**Proof sketch.** A step brings in at most the node that its input vouches for, and a swap under way
carries one that was vouched for before. The table holds no id twice. -/
theorem table_provenance (env : Env) (userFilter : Option (NodeId → Ipv4Address → Bool))
    (localId : NodeId) (firstTid : UInt16) (nodes : List Ipv4Address) (is : List Input) :
    let start := constructed (env.filtered userFilter) localId firstTid nodes
    let table := (Runs.run (step (env.filtered userFilter)) { node := start } is).node.table
    ∀ i, ∀ n ∈ (table.buckets i).nodes, ∃ addr, n.host = addr.hostString ∧ n.port = addr.port ∧
      n.id = computePeerId env.blake2b addr ∧
      (addr ∈ nodes ∨ .node (.addNode addr) ∈ is ∨
        (∃ fromServer msg, .node (.recv fromServer addr msg) ∈ is ∧ msg.claimed = some n.id) ∧
          testnetBlocklist.any (blocks addr) = false ∧
          ∀ accept, userFilter = some accept → accept n.id addr = true) ∧
      ∀ j, ∀ m ∈ (table.buckets j).nodes, m.host = n.host → m.port = n.port → m = n := by
  obtain ⟨hsane, hvouched⟩ := vouched_run (env.filtered userFilter) localId firstTid nodes is
  intro start table i n hn
  obtain ⟨addr, hhost, hport, hid, hknown⟩ := hvouched.table i n hn
  refine ⟨addr, hhost, hport, hid, ?_, fun j m hm hmhost hmport => ?_⟩
  · rcases hknown with hseeded | hnamed | ⟨fromServer, msg, hmem, hclaimed, hfilter⟩
    · exact .inl hseeded
    · exact .inr (.inl hnamed)
    · rw [← hid] at hclaimed hfilter
      exact .inr (.inr ⟨⟨fromServer, msg, hmem, hclaimed⟩, filterNode_eq_true hfilter⟩)
  · obtain ⟨addr', hhost', hport', hid', -⟩ := hvouched.table j m hm
    have haddr : addr' = addr := Ipv4Address.hostString_and_port_eq_iff.1
      ⟨by rw [← hhost', hmhost, hhost], by rw [← hport', hmport, hport]⟩
    have hsame : m.id = n.id := by rw [hid', hid, haddr]
    have hget := (Table.get_eq_some_iff hsane.coherent n.id n).2 ⟨⟨i, hn⟩, rfl⟩
    rw [(Table.get_eq_some_iff hsane.coherent n.id m).2 ⟨⟨j, hm⟩, hsame⟩] at hget
    exact Option.some.inj hget

end HyperDHT.Handlers.HintedNode
