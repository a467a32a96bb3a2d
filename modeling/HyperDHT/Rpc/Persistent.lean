import HyperDHT.Rpc.Swap

/-!
# The id of a persistent node

A node that becomes persistent moves its traffic to the server socket and takes the id of its public
address. The address is the one the NAT sampler has learnt, and the firewall probe lets the
transition pass only if the port of that address is the local port of the client socket. So the id
is the digest of an address with the wrong port, and the receivers of its responses, which compare
the id with the digest of the address the response comes from, reject it.

## Main definitions

* `Rpc.RpcNode.IdFromClient` — what holds of a persistent node in every state.

## Main results

* `Rpc.RpcNode.step_abides` — a persistent node stays persistent, and keeps its id.
* `Rpc.RpcNode.idFromClient_run` — the id of a persistent node is the digest of an address with the
  port of the client socket, or with none.
* `Rpc.RpcNode.persistent_id_never_matches` — the id of a persistent node is never that of an address
  with the port it sends from.
-/

set_option autoImplicit false

namespace HyperDHT.Rpc.RpcNode

open Compact Routing

variable {env : Env} {s : RpcNode}

/-! ## The invariant -/

/-- A persistent node sends from the server socket, runs no probe, and has the id of an address
with the port of the client socket, or with port zero. -/
def IdFromClient (env : Env) (s : RpcNode) : Prop :=
  s.ephemeral = false → s.firewalled = false ∧ s.probeRunning = false ∧
    ∃ addr : Ipv4Address, (addr.port = 0 ∨ addr.port = env.clientPort) ∧
      s.table.id = computePeerId env.blake2b addr

lemma step_id {op : TableOp} (hop : KeepsId op) (t : Table) : (Routing.step t op).id = t.id := by
  cases op with
  | add node => exact Table.add_id t node
  | remove id => exact remove_id t id
  | rebuildWithId newId => exact hop.elim
  | modify id f =>
    simp only [Routing.step, Table.modify]
    split <;> rfl

lemma rebuildWithId_id (t : Table) (newId : NodeId) : (t.rebuildWithId newId).id = newId := by
  have hfold : ∀ (nodes : List Node) (table : Table),
      (nodes.foldl (fun t node => (t.add node).1) table).id = table.id := by
    intro nodes
    induction nodes with
    | nil => exact fun _ => rfl
    | cons node nodes ih => exact fun table => (ih (table.add node).1).trans (Table.add_id table node)
  exact hfold t.allNodes _

lemma Evolves.table_id {t : RpcNode} (h : Evolves s t) : t.table.id = s.table.id := by
  obtain ⟨ops, hkeep, htable⟩ := h.table
  rw [htable]
  clear htable
  generalize s.table = table
  induction ops generalizing table with
  | nil => rfl
  | cons op ops ih =>
    rw [Runs.run_cons, ih (fun op' hop => hkeep op' (List.mem_cons_of_mem op hop))]
    exact step_id (hkeep op List.mem_cons_self) table

lemma Evolves.idFromClient {t : RpcNode} (h : Evolves s t) (hs : IdFromClient env s) :
    IdFromClient env t := by
  intro hpersistent
  rw [h.mode.ephemeral] at hpersistent
  obtain ⟨hfirewalled, hprobe, haddr⟩ := hs hpersistent
  exact ⟨h.mode.firewalled.trans hfirewalled, h.mode.probeRunning.trans hprobe,
    h.table_id ▸ haddr⟩

lemma IdFromClient.congr {t : RpcNode} (hs : IdFromClient env s)
    (hephemeral : t.ephemeral = s.ephemeral) (hfirewalled : t.firewalled = s.firewalled)
    (hprobe : s.ephemeral = false → t.probeRunning = s.probeRunning) (htable : t.table = s.table) :
    IdFromClient env t := by
  intro hpersistent
  rw [hephemeral] at hpersistent
  obtain ⟨h₁, h₂, h₃⟩ := hs hpersistent
  exact ⟨hfirewalled.trans h₁, (hprobe hpersistent).trans h₂, htable ▸ h₃⟩

/-- **The transition** takes the port that the probe has compared with that of the client
socket. -/
lemma doPersistentTransition_idFromClient (hs : IdFromClient env s)
    (hport : s.natSampler.port = 0 ∨ s.natSampler.port = env.clientPort)
    (hprobe : s.probeRunning = false) : IdFromClient env (s.doPersistentTransition env) := by
  cases hephemeral : s.ephemeral with
  | false =>
    have hsame : s.doPersistentTransition env = s := by
      simp [doPersistentTransition, hephemeral]
    rwa [hsame]
  | true =>
    intro _
    set addr := Ipv4Address.fromString s.natSampler.host s.natSampler.port with haddr
    have haddrPort : addr.port = 0 ∨ addr.port = env.clientPort := by
      rcases Ipv4Address.fromString_port s.natSampler.host s.natSampler.port with heq | hzero
      · rw [haddr, heq]
        exact hport
      · exact .inl hzero
    have htransition : s.doPersistentTransition env = { s with
        ephemeral := false
        firewalled := false
        table := if computePeerId env.blake2b addr ≠ s.table.id
          then s.table.rebuildWithId (computePeerId env.blake2b addr) else s.table } := by
      simp [doPersistentTransition, hephemeral, haddr]
    rw [htransition]
    refine ⟨rfl, hprobe, addr, haddrPort, ?_⟩
    dsimp only
    split
    · exact rebuildWithId_id s.table _
    · next hsame => exact (not_not.1 hsame).symm

lemma finishFirewallProbe_idFromClient (hs : IdFromClient env s) :
    IdFromClient env (s.finishFirewallProbe env) := by
  cases hprobe : s.probeRunning with
  | false =>
    have hsame : s.finishFirewallProbe env = s := by simp [finishFirewallProbe, hprobe]
    rwa [hsame]
  | true =>
    -- a persistent node runs no probe
    have hephemeral : s.ephemeral = true := by
      cases heph : s.ephemeral with
      | true => rfl
      | false => simp [(hs heph).2.1] at hprobe
    have hended : ∀ firewalled, IdFromClient env
        { s with probeRunning := false, firewalled := firewalled } := by
      intro firewalled hpersistent
      simp [hephemeral] at hpersistent
    rcases finishFirewallProbe_cases env s with ⟨hnone, -⟩ | heq | ⟨hport, heq⟩
    · simp [hprobe] at hnone
    · rw [heq]
      exact hended true
    · rw [heq]
      exact doPersistentTransition_idFromClient (hended s.firewalled) hport rfl

lemma received_idFromClient (hs : IdFromClient env s) (fromServer : Bool) (remote : Ipv4Address) :
    IdFromClient env (s.received env fromServer remote) := by
  have hnoted : IdFromClient env (s.noteReply remote) := hs.congr rfl rfl (fun _ => rfl) rfl
  rcases received_cases env s fromServer remote with heq | heq | heq <;> rw [heq]
  · exact hs
  · exact hnoted
  · exact finishFirewallProbe_idFromClient hnoted

lemma backgroundTick_idFromClient (hs : IdFromClient env s) : IdFromClient env s.backgroundTick :=
  have h := backgroundTick_ticked s
  hs.congr h.ephemeral h.firewalled h.probeRunning h.table

/-- **Every step keeps the invariant.** -/
theorem idFromClient_step (hs : IdFromClient env s) (i : Input) :
    IdFromClient env (s.step env i) := by
  cases i with
  | recv fromServer remote msg =>
    exact (handleMessage_evolves env _ remote msg).idFromClient
      (received_idFromClient hs fromServer remote)
  | timeout ptr => exact (onRequestTimeout_evolves s ptr).idFromClient hs
  | drainTick => exact hs.congr rfl rfl (fun _ => rfl) rfl
  | backgroundTick => exact backgroundTick_idFromClient hs
  | probeTimeout => exact finishFirewallProbe_idFromClient hs
  | request req timeoutOverrideMs retries => exact hs.congr rfl rfl (fun _ => rfl) rfl
  | cancel tid => exact hs.congr rfl rfl (fun _ => rfl) rfl
  | checkNode node => exact (checkNode_evolves s node).idFromClient hs
  | addNode addr => exact (tableAdd_evolves s _).idFromClient hs
  | setBootstrapped value => exact hs.congr rfl rfl (fun _ => rfl) rfl
  | close =>
    refine hs.congr rfl rfl (fun hpersistent => ?_) rfl
    have hstopped := (hs hpersistent).2.1
    simp [step, close, hstopped]

/-- The id of a persistent node is the digest of an address with the port of the client socket, or
with none, in every state of every run. -/
theorem idFromClient_run (env : Env) (localId : NodeId) (firstTid : UInt16) (is : List Input) :
    IdFromClient env (Runs.run (step env) (init localId firstTid) is) :=
  @Runs.run_invariant _ _ (step env) (IdFromClient env) (fun _ i hs => idFromClient_step hs i)
    _ (by intro h; simp [init] at h) is

/-! ## Persistent nodes stay persistent -/

/-- A node that was persistent still is, under the same id. -/
structure Abides (s t : RpcNode) : Prop where
  ephemeral : s.ephemeral = false → t.ephemeral = false
  id : s.ephemeral = false → t.table.id = s.table.id

lemma Abides.trans {s t u : RpcNode} (h₁ : Abides s t) (h₂ : Abides t u) : Abides s u where
  ephemeral := fun h => h₂.ephemeral (h₁.ephemeral h)
  id := fun h => (h₂.id (h₁.ephemeral h)).trans (h₁.id h)

lemma Abides.of_eq {t : RpcNode} (hephemeral : t.ephemeral = s.ephemeral)
    (htable : t.table = s.table) : Abides s t :=
  ⟨fun h => hephemeral.trans h, fun _ => by rw [htable]⟩

lemma Evolves.abides {t : RpcNode} (h : Evolves s t) : Abides s t :=
  ⟨fun hpersistent => h.mode.ephemeral.trans hpersistent, fun _ => h.table_id⟩

lemma finishFirewallProbe_abides (env : Env) (s : RpcNode) :
    Abides s (s.finishFirewallProbe env) := by
  rcases finishFirewallProbe_cases env s with ⟨-, heq⟩ | heq | ⟨-, heq⟩
  · rw [heq]
    exact .of_eq rfl rfl
  · rw [heq]
    exact .of_eq rfl rfl
  · -- only an ephemeral node makes the transition
    have hsame : s.ephemeral = false → s.finishFirewallProbe env = { s with probeRunning := false } :=
      fun hpersistent => by rw [heq]; simp [doPersistentTransition, hpersistent]
    exact ⟨fun h => by rw [hsame h]; exact h, fun h => by rw [hsame h]⟩

lemma received_abides (env : Env) (s : RpcNode) (fromServer : Bool) (remote : Ipv4Address) :
    Abides s (s.received env fromServer remote) := by
  rcases received_cases env s fromServer remote with heq | heq | heq <;> rw [heq]
  · exact .of_eq rfl rfl
  · exact .of_eq rfl rfl
  · exact Abides.trans (t := s.noteReply remote) (.of_eq rfl rfl) (finishFirewallProbe_abides env _)

lemma onRecv_abides (env : Env) (s : RpcNode) (fromServer : Bool) (remote : Ipv4Address)
    (msg : Message) : Abides s (s.onRecv env fromServer remote msg) :=
  (received_abides env s fromServer remote).trans (handleMessage_evolves env _ remote msg).abides

/-- **A persistent node stays persistent**, and keeps its id. -/
theorem step_abides (env : Env) (s : RpcNode) (i : Input) : Abides s (s.step env i) := by
  cases i with
  | recv fromServer remote msg => exact onRecv_abides env s fromServer remote msg
  | timeout ptr => exact (onRequestTimeout_evolves s ptr).abides
  | backgroundTick =>
    have h := backgroundTick_ticked s
    exact .of_eq h.ephemeral h.table
  | probeTimeout => exact finishFirewallProbe_abides env s
  | checkNode node => exact (checkNode_evolves s node).abides
  | addNode addr => exact (tableAdd_evolves s _).abides
  | _ => exact .of_eq rfl rfl

/-! ## The theorem -/

/-- **The id of a persistent node is never accepted.** If the two sockets are bound to different
ports, the server socket to one that is not zero, and different addresses have different digests,
then in every state of every run in which the node is persistent, its id is not that of an address
with the port of the socket it sends from, whatever the host of the address.

**Proof sketch.** A persistent node sends from the server socket, and its id is the digest of an
address with the port of the client socket or with port zero. -/
theorem persistent_id_never_matches (env : Env) (hports : env.serverPort ≠ env.clientPort)
    (hbound : env.serverPort ≠ 0)
    (hdigest : Set.InjOn env.blake2b { bytes | bytes.length = 6 })
    (localId : NodeId) (firstTid : UInt16) (is : List Input)
    (hpersistent : (Runs.run (step env) (init localId firstTid) is).ephemeral = false)
    (publicHost : List.Vector UInt8 4) :
    (Runs.run (step env) (init localId firstTid) is).table.id ≠
      computePeerId env.blake2b
        ⟨publicHost, activePort env (Runs.run (step env) (init localId firstTid) is)⟩ := by
  obtain ⟨hfirewalled, -, addr, hport, hid⟩ := idFromClient_run env localId firstTid is hpersistent
  intro hmatch
  have hactive : activePort env (Runs.run (step env) (init localId firstTid) is) =
      env.serverPort := by
    simp [activePort, hfirewalled]
  rw [hid, hactive] at hmatch
  have hsame : addr = ⟨publicHost, env.serverPort⟩ :=
    peerIdBytes_injective (hdigest (by simp [peerIdBytes]) (by simp [peerIdBytes]) hmatch)
  rw [hsame] at hport
  exact hport.elim hbound hports

/-- **A message leaves a persistent node persistent.** -/
theorem onRecv_ephemeral (hs : s.ephemeral = false) (fromServer : Bool) (remote : Ipv4Address)
    (msg : Message) : (s.onRecv env fromServer remote msg).ephemeral = false := by
  have hreceived : (s.received env fromServer remote).ephemeral = false :=
    (received_probed env s fromServer remote).ephemeral hs
  exact (handleMessage_evolves env _ remote msg).mode.ephemeral.trans hreceived

/-! ## A node that becomes persistent -/

/-- The public address of the node, behind a NAT that preserves the port of the client socket. -/
def publicAddr : Ipv4Address := .ofOctets 1 2 3 4 1000

/-- A response of the `n`-th peer, which sees the node under its public address. -/
def sampleFrom (n : ℕ) : Input :=
  let addr : Ipv4Address := .ofOctets 200 0 0 (UInt8.ofNat n) 1
  .recv false addr (.response
    { fromAddr := publicAddr, id := some (computePeerId paddedDigest addr) })

def persistentRun : List Input :=
  [sampleFrom 0, sampleFrom 1, sampleFrom 2] ++ List.replicate 240 .backgroundTick ++
    [.recv true (.ofOctets 200 0 0 0 1) .other]

lemma paddedDigest_injOn : Set.InjOn paddedDigest { bytes | bytes.length = 6 } := by
  intro a ha b hb hab
  have hbytes : (a ++ List.replicate 32 0).take 32 = (b ++ List.replicate 32 0).take 32 :=
    congrArg (fun id : NodeId => id.bytes.toList) hab
  have hsix := congrArg (List.take 6) hbytes
  simp only [List.take_take] at hsix
  rw [List.take_append_of_le_length (by simp_all), List.take_append_of_le_length (by simp_all)]
    at hsix
  rwa [List.take_of_length_le (by simp_all), List.take_of_length_le (by simp_all)] at hsix

set_option maxRecDepth 10000 in
/-- **A persistent node with the wrong id**: it sends from port 2000 of its public host and has the
id of port 1000. -/
theorem persistentRun_id_mismatch :
    (Runs.run (step crowdedEnv) (init NodeId.zero 1) persistentRun).ephemeral = false ∧
      (Runs.run (step crowdedEnv) (init NodeId.zero 1) persistentRun).table.id ≠
        computePeerId crowdedEnv.blake2b ⟨publicAddr.host, activePort crowdedEnv
          (Runs.run (step crowdedEnv) (init NodeId.zero 1) persistentRun)⟩ := by
  decide +kernel

set_option maxRecDepth 10000 in
theorem persistent_id_never_matches_persistentRun :
    (Runs.run (step crowdedEnv) (init NodeId.zero 1) persistentRun).table.id ≠
      computePeerId crowdedEnv.blake2b ⟨publicAddr.host, activePort crowdedEnv
        (Runs.run (step crowdedEnv) (init NodeId.zero 1) persistentRun)⟩ :=
  persistent_id_never_matches crowdedEnv (by decide) (by decide) paddedDigest_injOn NodeId.zero 1
    persistentRun (by decide +kernel) publicAddr.host

end HyperDHT.Rpc.RpcNode
