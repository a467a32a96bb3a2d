import HyperDHT.Rpc.Completion
import HyperDHT.Rpc.Swap

/-!
# Reports of unresponsive nodes

A peer may report a node as unresponsive (`handle_down_hint`, `rpc_handlers.cpp`). A node of the
routing table that is reported is pinged, and its answer decides whether it stays. The answer
refreshes the tick at which the node was seen, and the node is removed if this tick is not larger
than the one before the check: a node that was seen in the tick of its answer is removed.

## Main definitions

* `Handlers.HintedNode` — the node and the rate limit of the reports.
* `Handlers.HintedNode.handleDownHint` — the handler.
* `Handlers.Answered` — a check that a report started is answered.

## Main results

* `Handlers.survives_iff` — a live node survives the check exactly when it was seen in an earlier
  tick than that of its answer and is in the table, or finds room there, when it answers.
-/

set_option autoImplicit false

namespace HyperDHT.Handlers

open Compact Routing Rpc

/-! ## The handler -/

def maxChecks : ℤ := 10
def maxHintSources : ℕ := 4096

/-- The node, and the time of the last report of each source. -/
structure HintedNode where
  node : RpcNode
  downHintRate : List (List.Vector UInt8 4 × UInt64) := []

namespace HintedNode

/-- The source sent a report less than a second ago. -/
def rateLimited (s : HintedNode) (now : UInt64) (source : Ipv4Address) : Bool :=
  match s.downHintRate.lookup source.host with
  | none => false
  | some last => now - last < 1000

/-- The time of the report is kept; a map that grew too large is cleared. -/
def noteHint (s : HintedNode) (now : UInt64) (source : Ipv4Address) : HintedNode :=
  let rate := (source.host, now) :: s.downHintRate.filter (·.1 ≠ source.host)
  { s with downHintRate := if rate.length > maxHintSources then [] else rate }

def hinted : NodeUpdate := ⟨fun n => { n with downHints := n.downHints + 1 }, fun _ => rfl⟩

/-- A reported node of the table that was not pinged in this tick, or not reported before, is
checked. -/
def checkHinted (node : RpcNode) (target : NodeId) : RpcNode :=
  match node.table.get target with
  | none => node
  | some n =>
    if n.pinged < node.tick ∨ n.downHints = 0 then
      ({ node with table := node.table.modify target hinted }).checkNode (hinted.apply n)
    else node

/-- The handler of a report: the six bytes of an address. -/
def handleDownHint (env : Env) (s : HintedNode) (now : UInt64) (source : Ipv4Address)
    (value : Option (List UInt8)) : HintedNode :=
  match value with
  | none => s
  | some bytes =>
    if bytes.length < 6 then s
    else if s.rateLimited now source then s
    else
      let s := s.noteHint now source
      if s.node.checks ≥ maxChecks then s
      else { s with node := checkHinted s.node (env.blake2b (bytes.take 6)) }

/-! ## The node with its handler as a machine -/

/-- What may happen: anything that may happen to the node, or a report arrives. -/
inductive Input where
  | node (i : RpcNode.Input)
  | downHint (now : UInt64) (source : Ipv4Address) (value : Option (List UInt8))

/-- The node after an input. -/
def step (env : Env) (s : HintedNode) : Input → HintedNode
  | .node i => { s with node := s.node.step env i }
  | .downHint now source value => s.handleDownHint env now source value

/-- A fresh node. -/
def init (localId : NodeId) (firstTid : UInt16) : HintedNode where
  node := RpcNode.init localId firstTid

/-! ## What the handler does -/

variable {env : Env} {s : HintedNode}

lemma handleDownHint_cases (env : Env) (s : HintedNode) (now : UInt64) (source : Ipv4Address)
    (value : Option (List UInt8)) :
    (s.handleDownHint env now source value).node = s.node ∨
      ∃ bytes n, value = some bytes ∧ s.node.table.get (env.blake2b (bytes.take 6)) = some n ∧
        (s.handleDownHint env now source value).node =
          ({ s.node with table := s.node.table.modify (env.blake2b (bytes.take 6)) hinted }
            ).checkNode (hinted.apply n) := by
  unfold handleDownHint
  split
  · exact .inl rfl
  · next bytes =>
    split
    · exact .inl rfl
    · split
      · exact .inl rfl
      · have hnode : (s.noteHint now source).node = s.node := rfl
        dsimp only
        rw [hnode]
        split
        · exact .inl rfl
        · unfold checkHinted
          split
          · exact .inl rfl
          · next n hget =>
            split
            · exact .inr ⟨bytes, n, rfl, hget, rfl⟩
            · exact .inl rfl

lemma checkNode_hinted_evolves (node : RpcNode) (target : NodeId) (n : Node) :
    RpcNode.Evolves node
      (({ node with table := node.table.modify target hinted }).checkNode n) := by
  have hhint : RpcNode.Evolves node { node with table := node.table.modify target hinted } :=
    .of_op (.modify target hinted) trivial rfl rfl ⟨rfl, rfl, rfl, rfl⟩
  exact hhint.trans (RpcNode.checkNode_evolves _ n)

lemma step_advances (env : Env) (s : HintedNode) (i : Input) :
    RpcNode.Advances s.node (s.step env i).node := by
  cases i with
  | node i => exact RpcNode.step_advances env s.node i
  | downHint now source value =>
    rcases s.handleDownHint_cases env now source value with hsame | ⟨bytes, n, -, -, hcheck⟩
    · rw [step, hsame]
      exact (RpcNode.Evolves.refl _).advances
    · rw [step, hcheck]
      exact (checkNode_hinted_evolves s.node _ _).advances

lemma sane_logged_run (env : Env) (localId : NodeId) (firstTid : UInt16) (is : List Input) :
    (Runs.run (step env) (init localId firstTid) is).node.Sane ∧
      Logged (Runs.run (step env) (init localId firstTid) is).node.socket := by
  refine Runs.run_invariant (P := fun s : HintedNode => s.node.Sane ∧ Logged s.node.socket)
    (fun s i hs => ?_) ⟨RpcNode.sane_init localId firstTid, logged_init firstTid⟩ is
  have hadvances := step_advances env s i
  exact ⟨hadvances.sane hs.1, (hadvances.moves hs.1.wellFormed).logged hs.1.wellFormed hs.2⟩

lemma run_moves (env : Env) {s : HintedNode} (h : s.node.Sane) (is : List Input) :
    Moves s.node.socket (Runs.run (step env) s is).node.socket ∧
      (Runs.run (step env) s is).node.Sane := by
  refine Runs.run_invariant (P := fun t : HintedNode =>
    Moves s.node.socket t.node.socket ∧ t.node.Sane) (fun t i ht => ?_)
    ⟨(Quiets.refl _).moves, h⟩ is
  have hadvances := step_advances env t i
  exact ⟨ht.1.trans (hadvances.moves ht.2.wellFormed), hadvances.sane ht.2⟩

end HintedNode

/-! ## The answer to a check -/

/-- A node that is in the table, or finds room there. -/
def FindsRoom (t : Table) (id : NodeId) : Prop :=
  t.has id = true ∨ (id ≠ t.id ∧ RpcNode.bucketSize t id < K)

/-- A live node that answers is in the table exactly when it was or found room, and it was seen in
this tick; the request it answers still waits. -/
lemma hearResponse_has_iff {env : Env} {s : RpcNode} (h : s.Sane) {target : NodeId}
    {remote : Ipv4Address} {resp : Response} {r : InflightRequest NodeCallback}
    (hid : resp.id = some target) (haddr : computePeerId env.blake2b remote = target)
    (hfilter : env.filterAccept target remote = true)
    (hfind : s.socket.findInflight resp.tid = some r) :
    (s.hearResponse env remote resp).socket.findInflight resp.tid = some r ∧
      ((∃ n, (s.hearResponse env remote resp).table.get target = some n ∧ n.seen = s.tick) ∧
          FindsRoom s.table target ∨
        (s.hearResponse env remote resp).table.has target = false ∧
          ¬ FindsRoom s.table target) := by
  set sampled : RpcNode := { s with natSampler := (s.natSampler.add resp.fromAddr remote).1 }
    with hsampled
  have hheard : s.hearResponse env remote resp = sampled.addNodeFromNetwork env target remote := by
    simp [RpcNode.hearResponse, RpcNode.observe, hid, haddr, hsampled]
  have hsane : sampled.Sane := ⟨h.wellFormed, h.coherent, h.onFull⟩
  rw [hheard]
  rcases RpcNode.addNodeFromNetwork_cases hfilter sampled with ⟨hhas, heq⟩ | ⟨hnot, heq⟩
  · rw [heq]
    obtain ⟨n, hget⟩ := Option.isSome_iff_exists.1 hhas
    have hseen := Table.get_modify_self h.coherent (RpcNode.seenAt s.tick) hget
    exact ⟨hfind, .inl ⟨⟨_, hseen, rfl⟩, .inl hhas⟩⟩
  · rw [heq]
    rcases RpcNode.tableAdd_cases hsane.onFull _ with
      ⟨hown, hadd⟩ | ⟨hown, hnew, hroom, hok, hadd⟩ | ⟨hown, hwhy, idx, hadd⟩
    · rw [hadd]
      refine ⟨hfind, .inr ⟨hnot, ?_⟩⟩
      rintro (hin | ⟨hne, -⟩)
      · exact absurd hin (Bool.eq_false_iff.1 hnot)
      · exact hne hown
    · rw [hadd]
      exact ⟨hfind, .inl ⟨⟨_, Table.get_add_self h.coherent hok, rfl⟩, .inr ⟨hown, hroom⟩⟩⟩
    · -- the bucket is full, and the hook may have sent a ping
      rw [hadd]
      have hfull := hwhy.resolve_left (Bool.eq_false_iff.1 hnot)
      refine ⟨?_, .inr ⟨(RpcNode.hooked_has hsane idx _ target).trans hnot, ?_⟩⟩
      · unfold RpcNode.hooked
        rcases RpcNode.onBucketFull_cases _ idx _ with hsame | ⟨oldest, hswap⟩
        · rw [hsame]
          exact hfind
        · rw [hswap]
          exact (requestWith_requested _ _ _ _ _ _).findInflight h.wellFormed hfind
      · rintro (hin | ⟨-, hroom⟩)
        · exact absurd hin (Bool.eq_false_iff.1 hnot)
        · exact absurd hroom (not_lt.2 hfull)

lemma resolve_check {s : RpcNode} (h : WellFormed s.socket) {tid : UInt16}
    {r : InflightRequest NodeCallback} {state : CheckState}
    (hfind : s.socket.findInflight tid = some r) (hcallback : r.onResponse = some (.check state)) :
    (s.resolve tid).table =
      if s.stale state.targetId state.lastSeen then (s.table.remove state.targetId).1
      else s.table := by
  have hcompleted : (s.socket.onResponse tid).2 = some r := by
    rcases onResponse_cases h tid with ⟨hnone, -⟩ | ⟨b, hb, hfind', hsome⟩
    · have hr := (mem_of_findInflight hfind).1
      have hopen := h.open_of_mem (mem_outstanding.2 (.inl hr))
      rcases hnone with hclosing | hnone
      · simp [hopen] at hclosing
      · simp [hnone] at hfind
    · rw [hsome, ← Option.some.inj (hfind'.symm.trans hfind)]
  have hresolve : s.resolve tid =
      ({ s with socket := (s.socket.onResponse tid).1 }).runOnResponse (.check state) := by
    simp [RpcNode.resolve, hcompleted, hcallback]
  rw [hresolve, RpcNode.runOnResponse]
  dsimp only
  split
  · next hstale => rw [if_pos (show s.stale _ _ = true from hstale)]
  · next hstale => rw [if_neg (show ¬ s.stale _ _ = true from hstale)]

/-- **The answer to a check**: the node is in the table afterwards exactly when it was last seen,
before the check, in an earlier tick than this one, and is in the table or finds room there. -/
theorem answer_has_iff {env : Env} {s : RpcNode} (h : s.Sane) {state : CheckState}
    {remote : Ipv4Address} {resp : Response} {r : InflightRequest NodeCallback}
    (hid : resp.id = some state.targetId)
    (haddr : computePeerId env.blake2b remote = state.targetId)
    (hfilter : env.filterAccept state.targetId remote = true)
    (hfind : s.socket.findInflight resp.tid = some r)
    (hcallback : r.onResponse = some (.check state)) :
    ((s.hearResponse env remote resp).resolve resp.tid).table.has state.targetId = true ↔
      state.lastSeen < s.tick ∧ FindsRoom s.table state.targetId := by
  set heard := s.hearResponse env remote resp with hheard
  have hsane : heard.Sane := (RpcNode.hearResponse_evolves env s remote resp).advances.sane h
  obtain ⟨hfind', hcase⟩ := hearResponse_has_iff h hid haddr hfilter hfind
  rw [resolve_check hsane.wellFormed hfind' hcallback]
  rcases hcase with ⟨⟨n, hget, hseen⟩, hroom⟩ | ⟨hnot, hnoroom⟩
  · have hstale : heard.stale state.targetId state.lastSeen = decide (s.tick ≤ state.lastSeen) := by
      simp [RpcNode.stale, hheard, hget, hseen]
    rw [hstale]
    by_cases htick : s.tick ≤ state.lastSeen
    · rw [if_pos (decide_eq_true htick)]
      obtain ⟨hcoherent, hholds⟩ := Table.remove_spec hsane.coherent state.targetId
      rw [Table.has_iff_holds hcoherent, hholds]
      simp [UInt32.not_lt.2 htick]
    · rw [if_neg (by simpa using htick)]
      refine iff_of_true ?_ ⟨UInt32.not_le.1 htick, hroom⟩
      simp [Table.has, hheard, hget]
  · have hstale : heard.stale state.targetId state.lastSeen = false := by
      have hnone : heard.table.get state.targetId = none := by
        simpa [Table.has, Option.isSome_eq_false_iff] using hnot
      simp [RpcNode.stale, hnone]
    rw [hstale]
    exact iff_of_false (by simp [hheard, hnot]) fun hboth => hnoroom hboth.2

/-! ## From the report to the answer -/

/-- The id that a report names. -/
def hintTarget (env : Env) (bytes : List UInt8) : NodeId := env.blake2b (bytes.take 6)

/-- **A check is answered**: in state `s` a report names a node of the table and makes the node send
a check, after the inputs `js` the check is still in flight, and the response that matches it comes
from the address of the reported node, with its valid id, which the filter accepts. -/
structure Answered (env : Env) (s : HintedNode) (now : UInt64) (source : Ipv4Address)
    (bytes : List UInt8) (node : Node) (js : List HintedNode.Input) (remote : Ipv4Address)
    (resp : Response) : Prop where
  named : s.node.table.get (hintTarget env bytes) = some node
  checked : ∃ tid retries, .issued s.node.socket.nextPtr tid retries ∈
    (s.handleDownHint env now source (some bytes)).node.socket.log
  inflight : ∃ r, (Runs.run (HintedNode.step env) (s.handleDownHint env now source (some bytes))
    js).node.socket.findInflight resp.tid = some r ∧ r.ptr = s.node.socket.nextPtr
  address : computePeerId env.blake2b remote = hintTarget env bytes
  valid : resp.id = some (hintTarget env bytes)
  accepted : env.filterAccept (hintTarget env bytes) remote = true

lemma checkNode_callback {s : RpcNode} (h : s.Sane) (node : Node) :
    ∀ b ∈ (s.checkNode node).socket.outstanding, b.ptr = s.socket.nextPtr →
      b.onResponse = some (.check { targetId := node.id, lastSeen := node.seen }) ∧
        b.onTimeout = some (.check { targetId := node.id, lastSeen := node.seen }) := by
  intro b hb hptr
  have hresult := requestWith_requested s.socket (RpcNode.pingRequest node) 0 0
    (some (.check { targetId := node.id, lastSeen := node.seen }))
    (some (.check { targetId := node.id, lastSeen := node.seen }))
  have hold : ∀ c ∈ s.socket.outstanding, c.ptr ≠ s.socket.nextPtr := fun c hc =>
    (h.wellFormed.ptr_lt c hc).ne
  rcases hresult.outstanding_cases h.wellFormed with
    ⟨-, -, hout, -⟩ | ⟨-, -, r, -, hresponse, htimeout, -, -, hout⟩
  · exact absurd hptr (hold b (hout ▸ hb))
  · obtain ⟨c, hc, n, rfl⟩ := hout b hb
    rcases List.mem_cons.1 hc with rfl | hc
    · exact ⟨hresponse, htimeout⟩
    · exact absurd hptr (hold c hc)

lemma Answered.callback {env : Env} {s : HintedNode} {now : UInt64} {source remote : Ipv4Address}
    {bytes : List UInt8} {node : Node} {js : List HintedNode.Input} {resp : Response}
    (h : Answered env s now source bytes node js remote resp) (hs : s.node.Sane)
    (hlogged : Logged s.node.socket) :
    ∃ r, (Runs.run (HintedNode.step env) (s.handleDownHint env now source (some bytes))
        js).node.socket.findInflight resp.tid = some r ∧
      r.onResponse =
        some (.check { targetId := hintTarget env bytes, lastSeen := node.seen }) := by
  obtain ⟨r, hfind, hptr⟩ := h.inflight
  refine ⟨r, hfind, ?_⟩
  have hhinted : (s.handleDownHint env now source (some bytes)).node.Sane :=
    (HintedNode.step_advances env s (.downHint now source (some bytes))).sane hs
  have hmoves := (HintedNode.run_moves env hhinted js).1
  have hmem : r ∈ (Runs.run (HintedNode.step env) (s.handleDownHint env now source (some bytes))
      js).node.socket.outstanding := mem_outstanding.2 (.inl (mem_of_findInflight hfind).1)
  rcases s.handleDownHint_cases env now source (some bytes) with
    hsame | ⟨bytes', n, hbytes, hget, hcheck⟩
  · -- without a check no request was accepted
    obtain ⟨tid, retries, hissued⟩ := h.checked
    rw [hsame] at hissued
    exact absurd hissued (hlogged.not_mem_of_ptr rfl)
  · obtain rfl : bytes = bytes' := Option.some.inj hbytes
    obtain rfl : node = n := Option.some.inj (h.named.symm.trans hget)
    set hintedNode : RpcNode := { s.node with
      table := s.node.table.modify (env.blake2b (bytes.take 6)) HintedNode.hinted } with hnode
    have hhint : hintedNode.Sane :=
      (RpcNode.Evolves.of_op (.modify (env.blake2b (bytes.take 6)) HintedNode.hinted) trivial rfl
        rfl ⟨rfl, rfl, rfl, rfl⟩ : RpcNode.Evolves s.node hintedNode).advances.sane hs
    have hid : node.id = hintTarget env bytes :=
      ((Table.get_eq_some_iff hs.coherent _ _).1 hget).2
    have hlt : s.node.socket.nextPtr <
        (s.handleDownHint env now source (some bytes)).node.socket.nextPtr := by
      obtain ⟨tid, retries, hissued⟩ := h.checked
      have hlog : Logged (s.handleDownHint env now source (some bytes)).node.socket :=
        ((HintedNode.step_advances env s (.downHint now source (some bytes))).moves
          hs.wellFormed).logged hs.wellFormed hlogged
      exact hlog.numbered _ hissued _ rfl
    have hfirst := checkNode_callback hhint (HintedNode.hinted.apply node)
    rw [← hcheck, HintedNode.hinted.apply_id, hid] at hfirst
    exact (hmoves.callbacks hhinted.wellFormed hlt hfirst r hmem hptr).1

/-- **Exactly when a live node survives a check.** In every run, a node of the table that was
reported and answers the check that follows, from its own address, with its valid id and before the
timeout, is in the table after its answer if and only if it was last seen, when it was reported, in
an earlier tick than that of its answer, and at its answer is still in the table or finds room
there.

**Proof sketch.** The check carries the tick at which the node was last seen; the answer marks the
node as seen in the current tick and then compares the two. -/
theorem survives_iff (env : Env) (localId : NodeId) (firstTid : UInt16)
    (is js : List HintedNode.Input) (now : UInt64) (source remote : Ipv4Address)
    (bytes : List UInt8) (node : Node) (fromServer : Bool) (resp : Response)
    (h : Answered env (Runs.run (HintedNode.step env) (HintedNode.init localId firstTid) is) now
      source bytes node js remote resp) :
    let hintedAt := Runs.run (HintedNode.step env) (HintedNode.init localId firstTid) is
    let answeredAt := Runs.run (HintedNode.step env)
      (hintedAt.handleDownHint env now source (some bytes)) js
    (answeredAt.step env (.node (.recv fromServer remote (.response resp)))).node.table.has
        (hintTarget env bytes) = true ↔
      node.seen < answeredAt.node.tick ∧
        FindsRoom (answeredAt.node.received env fromServer remote).table (hintTarget env bytes) := by
  intro hintedAt answeredAt
  obtain ⟨hs, hlogged⟩ := HintedNode.sane_logged_run env localId firstTid is
  obtain ⟨r, hfind, hcallback⟩ := h.callback hs hlogged
  have hhinted := (HintedNode.step_advances env hintedAt (.downHint now source (some bytes))).sane hs
  have hanswered : answeredAt.node.Sane := (HintedNode.run_moves env hhinted js).2
  set received := answeredAt.node.received env fromServer remote with hreceived
  have hprobed : answeredAt.node.Probed received :=
    RpcNode.received_probed env answeredAt.node fromServer remote
  have hsane : received.Sane := hprobed.advances.sane hanswered
  have hsocket : received.socket = answeredAt.node.socket := hprobed.socket
  have htick : received.tick = answeredAt.node.tick := hprobed.tick
  have hfind' : received.socket.findInflight resp.tid = some r := hsocket ▸ hfind
  have hopen := hsane.wellFormed.open_of_mem
    (mem_outstanding.2 (.inl (mem_of_findInflight hfind').1))
  have hstep : (answeredAt.step env (.node (.recv fromServer remote (.response resp)))).node =
      (received.hearResponse env remote resp).resolve resp.tid := by
    simp [HintedNode.step, RpcNode.step, RpcNode.onRecv, RpcNode.handleMessage, ← hreceived, hopen]
  rw [hstep, ← htick]
  exact answer_has_iff hsane h.valid h.address h.accepted hfind' hcallback

/-! ## A check within a tick, and one across two ticks -/

def hintedPeer : Ipv4Address := .ofOctets 200 0 0 7 1
def reporter : Ipv4Address := .ofOctets 200 0 0 8 1

def hintedEntry : Node where
  id := computePeerId RpcNode.paddedDigest hintedPeer
  host := hintedPeer.hostString
  port := 1

def heardPeer : HintedNode :=
  Runs.run (HintedNode.step RpcNode.crowdedEnv) (HintedNode.init NodeId.zero 1)
    [.node (.recv false hintedPeer (.request (some hintedEntry.id)))]

def peerAnswer : Response := { tid := 1, id := some hintedEntry.id }

lemma answered_hintedPeer (js : List HintedNode.Input)
    (hinflight : ((Runs.run (HintedNode.step RpcNode.crowdedEnv)
      (heardPeer.handleDownHint RpcNode.crowdedEnv 0 reporter (some (peerIdBytes hintedPeer)))
        js).node.socket.findInflight 1).map (·.ptr) = some 0) :
    Answered RpcNode.crowdedEnv heardPeer 0 reporter (peerIdBytes hintedPeer) hintedEntry js
      hintedPeer peerAnswer where
  named := by decide +kernel
  checked := ⟨1, 0, by decide +kernel⟩
  inflight := Option.map_eq_some_iff.1 hinflight
  address := by decide +kernel
  valid := by decide +kernel
  accepted := rfl

/-- **A live node is removed**: a peer that was seen, reported and checked in one tick, and answers
in it, is not in the table after its answer. -/
theorem not_survives_within_tick :
    Answered RpcNode.crowdedEnv heardPeer 0 reporter (peerIdBytes hintedPeer) hintedEntry []
      hintedPeer peerAnswer ∧
    ((heardPeer.handleDownHint RpcNode.crowdedEnv 0 reporter
      (some (peerIdBytes hintedPeer))).step RpcNode.crowdedEnv
        (.node (.recv false hintedPeer (.response peerAnswer)))).node.table.has hintedEntry.id =
          false :=
  ⟨answered_hintedPeer [] (by decide +kernel), by decide +kernel⟩

/-- The same peer survives if a tick passes between the report and its answer. -/
theorem survives_next_tick :
    ((Runs.run (HintedNode.step RpcNode.crowdedEnv)
      (heardPeer.handleDownHint RpcNode.crowdedEnv 0 reporter (some (peerIdBytes hintedPeer)))
        [.node .backgroundTick]).step RpcNode.crowdedEnv
          (.node (.recv false hintedPeer (.response peerAnswer)))).node.table.has
            (hintTarget RpcNode.crowdedEnv (peerIdBytes hintedPeer)) = true :=
  (survives_iff RpcNode.crowdedEnv NodeId.zero 1
    [.node (.recv false hintedPeer (.request (some hintedEntry.id)))] [.node .backgroundTick] 0
    reporter hintedPeer (peerIdBytes hintedPeer) hintedEntry false peerAnswer
    (answered_hintedPeer _ (by decide +kernel))).2 ⟨by decide +kernel, .inl (by decide +kernel)⟩

end HyperDHT.Handlers
