import HyperDHT.Holepunch.Node
import HyperDHT.Lib.Runs

/-!
# What the sampler learns

The sampler of a node should learn from others under which address they see the node. A response says so,
and is sampled with its sender. But a server samples a message of a holepunch with the address of the client
for both, so that each client that comes over a relay adds its own address to those of the node.

## Main definitions

* `PunchNode.samples` — what the sampler is told by a step.
* `PunchNode.LearnsOwn` — the sampler is told how the sender of a message sees us.
* `PunchNode.Serves` — a server handles a message of a holepunch.

## Main results

* `PunchNode.natSampler_step` — the sampler after a step.
* `PunchNode.learnsOwn_iff` — the sampler learns our address alone exactly if no server handles a message of
  a holepunch, and then depends on the responses alone.
* `PunchNode.not_learnsOwn_sampledRun` — a client whose address becomes that of the node.
-/

set_option autoImplicit false

namespace HyperDHT

open Compact Routing Rpc Handlers Holepunch Runs

/-! ## What the RPC layer tells the sampler -/

namespace Rpc.RpcNode

variable {env : Env} {s : RpcNode}

@[simp] lemma natSampler_onBucketFull (bucketIdx : ℕ) (node : Node) :
    (s.onBucketFull bucketIdx node).natSampler = s.natSampler := by
  obtain heq | ⟨oldest, heq⟩ := onBucketFull_cases s bucketIdx node <;> rw [heq]
  rfl

@[simp] lemma natSampler_tableAdd (node : Node) : (s.tableAdd node).1.natSampler = s.natSampler := by
  unfold tableAdd
  dsimp only
  split
  · rfl
  · exact natSampler_onBucketFull _ _

@[simp] lemma natSampler_doSwap (state : SwapState) : (s.doSwap state).natSampler = s.natSampler := by
  simp [doSwap]

@[simp] lemma natSampler_runOnResponse (callback : NodeCallback) :
    (s.runOnResponse callback).natSampler = s.natSampler := by
  cases callback with
  | swap state =>
    unfold runOnResponse
    dsimp only
    split <;> simp
  | check state =>
    unfold runOnResponse
    dsimp only
    split <;> rfl
  | other => rfl

@[simp] lemma natSampler_runOnTimeout (callback : NodeCallback) :
    (s.runOnTimeout callback).natSampler = s.natSampler := by
  cases callback with
  | swap state => simp [runOnTimeout]
  | check state => rfl
  | other => rfl

@[simp] lemma natSampler_observe (id : Option NodeId) (remote : Ipv4Address) :
    (s.observe env id remote).natSampler = s.natSampler := by
  unfold observe addNodeFromNetwork
  split
  · rfl
  · split_ifs <;> simp

@[simp] lemma natSampler_resolve (tid : UInt16) : (s.resolve tid).natSampler = s.natSampler := by
  unfold resolve
  dsimp only
  split <;> simp

@[simp] lemma natSampler_finishFirewallProbe :
    (s.finishFirewallProbe env).natSampler = s.natSampler := by
  unfold finishFirewallProbe doPersistentTransition
  dsimp only
  split_ifs <;> rfl

@[simp] lemma natSampler_received (fromServer : Bool) (remote : Ipv4Address) :
    (s.received env fromServer remote).natSampler = s.natSampler := by
  unfold received countProbeReply
  dsimp only
  split_ifs <;> simp [noteReply]

lemma closing_received (fromServer : Bool) (remote : Ipv4Address) :
    (s.received env fromServer remote).socket.closing = s.socket.closing := by
  unfold received countProbeReply
  dsimp only
  split_ifs
  · rfl
  · unfold finishFirewallProbe doPersistentTransition
    dsimp only
    split_ifs <;> rfl
  · rfl
  · rfl

lemma natSampler_checkPersistent : s.checkPersistent.natSampler = s.natSampler := by
  unfold checkPersistent startFirewallProbe
  dsimp only
  split_ifs <;> rfl

@[simp] lemma natSampler_backgroundTick : s.backgroundTick.natSampler = s.natSampler := by
  unfold backgroundTick
  split
  · rfl
  · dsimp only
    split
    · rfl
    · split
      · exact natSampler_checkPersistent
      · rfl

/-- What the sampler is told: the address that a response names, and the sender of the response. -/
def reported (s : RpcNode) : Input → List (Ipv4Address × Ipv4Address)
  | .recv _ remote (.response resp) => if s.socket.closing then [] else [(resp.fromAddr, remote)]
  | _ => []

/-- The samples are taken one after the other. -/
def learn (sampler : NatSampler.State) (samples : List (Ipv4Address × Ipv4Address)) :
    NatSampler.State :=
  samples.foldl (fun sampler p => (sampler.add p.1 p.2).1) sampler

/-- **What the RPC layer tells the sampler**: what the responses report, and nothing else. -/
theorem natSampler_step (i : Input) :
    (s.step env i).natSampler = learn s.natSampler (s.reported i) := by
  cases i with
  | recv fromServer remote msg =>
    change (s.onRecv env fromServer remote msg).natSampler = _
    unfold onRecv handleMessage
    rw [closing_received]
    cases msg with
    | request id => split <;> simp [reported, learn]
    | response resp => split <;> simp_all [reported, learn, hearResponse]
    | other => split <;> simp [reported, learn]
  | timeout ptr =>
    change (s.onRequestTimeout ptr).natSampler = s.natSampler
    unfold onRequestTimeout
    dsimp only
    split <;> simp
  | drainTick => rfl
  | backgroundTick => exact natSampler_backgroundTick
  | probeTimeout => exact natSampler_finishFirewallProbe
  | request req timeoutOverrideMs retries => rfl
  | cancel tid => rfl
  | checkNode node => rfl
  | addNode addr => exact natSampler_tableAdd _
  | setBootstrapped value => rfl
  | close => rfl

end Rpc.RpcNode

open RpcNode

namespace PunchNode

variable {env : Rpc.Env} {s : PunchNode}

/-! ## What a node tells the sampler -/

/-- The samples that are taken in a step. -/
def samples (s : PunchNode) : Input → List (Ipv4Address × Ipv4Address)
  | .rpc i => s.rpc.reported i
  | .request _ _ req _ => (s.reaches req).toList.map fun handed => (handed.clientAddr, handed.clientAddr)
  | _ => []

lemma natSampler_seen (id : Option NodeId) (req : Incoming) :
    (s.seen env id req).rpc.natSampler = s.rpc.natSampler :=
  natSampler_step (.recv req.fromServer req.fromAddr (.request id))

lemma sampler_served {handed : Handed} (h : handed.server.Serves handed.value) (random : ℕ) :
    (s.served handed random).sampler = PunchServer.heard s.rpc.natSampler handed.clientAddr := by
  obtain ⟨hopen, hsome⟩ := h
  obtain ⟨conn, hconn⟩ := Option.isSome_iff_exists.1 hsome
  unfold served
  rw [PunchServer.onPeerHolepunch_of_lookup hopen hconn]

/-- The address of the client of a message of a holepunch that a server answers. -/
def client? (s : PunchNode) : Input → Option Ipv4Address
  | .request _ _ req _ => (s.reaches req).map (·.clientAddr)
  | _ => none

/-- A server answers a message of a holepunch. -/
def Serves (s : PunchNode) (i : Input) : Prop := (s.client? i).isSome = true

instance (s : PunchNode) (i : Input) : Decidable (s.Serves i) := inferInstanceAs (Decidable (_ = _))

lemma natSampler_step_of_not_serves {i : Input} (h : ¬ s.Serves i) :
    (step env s i).rpc.natSampler = learn s.rpc.natSampler (s.samples i) := by
  cases i with
  | clock ms => rfl
  | rpc i => exact RpcNode.natSampler_step i
  | request toAddr id req random =>
    have hnone : s.reaches req = none := by simpa [Serves, client?] using h
    change (s.onRequest env id req random).rpc.natSampler = _
    rw [onRequest_of_none hnone, natSampler_seen]
    simp [samples, hnone, learn]
  | listen target => rfl
  | server j i =>
    change (s.onServer j i).rpc.natSampler = _
    unfold onServer
    split <;> rfl
  | connect env => rfl
  | client k i => rfl
  | suspend =>
    change s.suspend.rpc.natSampler = _
    unfold suspend
    split <;> rfl
  | resume =>
    change s.resume.rpc.natSampler = _
    unfold resume
    split <;> rfl

/-- **What the sampler is told**: its state after a step comes from the samples of the step, and it may stop
to classify. -/
theorem natSampler_step (i : Input) :
    (step env s i).rpc.natSampler = learn s.rpc.natSampler (s.samples i) ∨
      (step env s i).rpc.natSampler = (learn s.rpc.natSampler (s.samples i)).freeze := by
  by_cases hserves : s.Serves i
  · cases i with
    | request toAddr id req random =>
      obtain ⟨handed, h⟩ : ∃ handed, s.reaches req = some handed := by
        simpa [Serves, client?, Option.isSome_iff_exists] using hserves
      change (s.onRequest env id req random).rpc.natSampler = _ ∨
        (s.onRequest env id req random).rpc.natSampler = _
      rw [onRequest_of_reaches h]
      dsimp only
      rw [sampler_served (reaches_spec h).2.2.2, natSampler_seen, PunchServer.heard_eq]
      simp only [samples, h, learn, Option.toList_some, List.map_cons, List.map_nil, List.foldl_cons,
        List.foldl_nil]
      split
      · exact .inr rfl
      · exact .inl rfl
    | _ => exact Bool.noConfusion hserves
  · exact .inl (natSampler_step_of_not_serves hserves)

/-! ## The sampler should learn our own address -/

/-- What the sender of a message reports: the address under which it sees us, and its own. -/
def report : Input → Option (Ipv4Address × Ipv4Address)
  | .rpc (.recv _ remote (.response resp)) => some (resp.fromAddr, remote)
  | .request toAddr _ req _ => some (toAddr, req.fromAddr)
  | _ => none

/-- The sampler learns our own address: what it is told in a step is what the sender of a message reports,
and not the address of a client. -/
def LearnsOwn (s : PunchNode) (i : Input) : Prop :=
  ∀ p ∈ s.samples i, report i = some p ∧ s.client? i ≠ some p.1

instance (s : PunchNode) (i : Input) : Decidable (s.LearnsOwn i) :=
  inferInstanceAs (Decidable (∀ p ∈ _, _))

lemma learnsOwn_step_iff (s : PunchNode) (i : Input) : s.LearnsOwn i ↔ ¬ s.Serves i := by
  cases i with
  | request toAddr id req random =>
    cases h : s.reaches req with
    | none => simp [LearnsOwn, Serves, samples, client?, h]
    | some handed => simp [LearnsOwn, Serves, samples, client?, h]
  | rpc i =>
    refine ⟨fun _ hserves => Bool.noConfusion hserves, fun _ p hp => ⟨?_, by simp [client?]⟩⟩
    cases i with
    | recv fromServer remote msg =>
      cases msg with
      | response resp =>
        simp only [samples, reported] at hp
        split at hp
        · simp at hp
        · rw [List.mem_singleton.1 hp]
          rfl
      | request id => exact absurd hp List.not_mem_nil
      | other => exact absurd hp List.not_mem_nil
    | _ => exact absurd hp List.not_mem_nil
  | _ => exact ⟨fun _ hserves => Bool.noConfusion hserves, fun _ p hp => absurd hp List.not_mem_nil⟩

/-- What is reported by a response. -/
def reportedIn (s : PunchNode) : Input → List (Ipv4Address × Ipv4Address)
  | .rpc i => s.rpc.reported i
  | _ => []

/-- What the responses of a run report. -/
def reports (env : Rpc.Env) : PunchNode → List Input → List (Ipv4Address × Ipv4Address)
  | _, [] => []
  | s, i :: is => s.reportedIn i ++ reports env (step env s i) is

lemma samples_of_not_serves {i : Input} (h : ¬ s.Serves i) : s.samples i = s.reportedIn i := by
  cases i with
  | request toAddr id req random =>
    have hnone : s.reaches req = none := by simpa [Serves, client?] using h
    simp [samples, reportedIn, hnone]
  | _ => rfl

lemma natSampler_run_of_not_serves {is : List Input}
    (h : EveryStep (step env) (fun s i => ¬ s.Serves i) s is) :
    (run (step env) s is).rpc.natSampler = learn s.rpc.natSampler (reports env s is) := by
  induction is generalizing s with
  | nil => rfl
  | cons i is ih =>
    rw [run_cons, ih h.2, natSampler_step_of_not_serves h.1, samples_of_not_serves h.1, reports]
    exact List.foldl_append.symm

/-- **The sampler learns our own address** in every step of a run exactly if no server answers a holepunch;
then it depends on the responses alone, whatever clients there are. -/
theorem learnsOwn_iff (env : Rpc.Env) (s : PunchNode) (is : List Input) :
    (EveryStep (step env) LearnsOwn s is ↔ EveryStep (step env) (fun s i => ¬ s.Serves i) s is) ∧
      (EveryStep (step env) (fun s i => ¬ s.Serves i) s is →
        (run (step env) s is).rpc.natSampler = learn s.rpc.natSampler (reports env s is)) := by
  refine ⟨?_, natSampler_run_of_not_serves⟩
  exact ⟨fun h => h.mono fun s i => (learnsOwn_step_iff s i).1,
    fun h => h.mono fun s i => (learnsOwn_step_iff s i).2⟩

/-! ## A client whose address becomes ours -/

def samplingEnv : Rpc.Env where
  blake2b _ := NodeId.zero
  filterAccept _ _ := true
  clientPort := 40001
  serverPort := 40002

def nodeAddr : Ipv4Address := .ofOctets 198 51 100 1 40001
def forwardingRelay : Ipv4Address := .ofOctets 192 0 2 7 49737
def forwardedClient : Ipv4Address := .ofOctets 203 0 113 5 50000

/-- A message of a holepunch, forwarded by the relay. -/
def forwarded (value : List UInt8) (hvalue : value.length ≤ maxBufferDecode) : Incoming where
  fromAddr := forwardingRelay
  command := cmdPeerHolepunch
  target := some NodeId.zero
  value := some value
  valueFits _ hv := Option.some.inj hv ▸ hvalue

def freshNode : PunchNode := init NodeId.zero 0 none 1 20000 1 false

def sampledRun : List Input := [
  .listen NodeId.zero,
  .server 0 (.openSession 7 none),
  .request nodeAddr none (forwarded (encodeHolepunchMsg {
    mode := modeFromRelay, id := 7, payload := [1], peerAddress := some forwardedClient })
      (by decide)) 0]

/-- **A client whose address becomes that of the node**, although its message cannot even be read. -/
theorem not_learnsOwn_sampledRun :
    ¬ EveryStep (step samplingEnv) LearnsOwn freshNode sampledRun ∧
      (run (step samplingEnv) freshNode sampledRun).rpc.natSampler.host = forwardedClient.hostString ∧
      (run (step samplingEnv) freshNode sampledRun).rpc.natSampler.port = forwardedClient.port := by
  decide +kernel

end PunchNode

end HyperDHT
