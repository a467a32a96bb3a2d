import HyperDHT.Rpc.Node

/-!
# Ping-and-swap

When a bucket is full, the node pings its oldest entry and swaps it for the new one if the ping is
not answered in time, or if the answer does not show that the entry was seen since. By then the
table may have changed: the new node may have been inserted by another swap or another path, and
then the old node is lost and the hook for full buckets is called for a node that is present.

## Main definitions

* `Rpc.RpcNode.KeepsCapacity` — what a recorded event must satisfy.
* `Rpc.RpcNode.CleanSwap` — the state of the table in which a swap exchanges its two nodes.
* `Rpc.RpcNode.SwapsCleanly` — the condition on a step.

## Main results

* `Rpc.RpcNode.doSwap_keepsCapacity_iff` — one swap.
* `Rpc.RpcNode.keepsCapacity_iff_swapsCleanly` — swaps lose no capacity, and the hook is called for
  absent nodes of full buckets only, in exactly the runs whose steps meet the condition.
-/

set_option autoImplicit false

namespace HyperDHT.Rpc.RpcNode

open Compact Routing

variable {env : Env} {s : RpcNode}

/-! ## Sizes -/

lemma size_add (t : Table) (node : Node) :
    (t.add node).1.size = t.size + if (t.add node).2 then 1 else 0 := by
  unfold Table.add
  split
  · rfl
  · split
    · rfl
    · split
      · rfl
      · split <;> rfl

lemma size_remove (t : Table) (id : NodeId) :
    (t.remove id).1.size = t.size - if (t.remove id).2 then 1 else 0 := by
  unfold Table.remove
  split
  · rfl
  · split <;> rfl

lemma size_modify (t : Table) (id : NodeId) (f : NodeUpdate) :
    (t.modify id f).size = t.size := by
  unfold Table.modify
  split <;> rfl

lemma remove_snd (t : Table) (id : NodeId) : (t.remove id).2 = t.has id := by
  unfold Table.remove Table.has Table.get
  split
  · rfl
  · next idx _ =>
    have hget : ((t.buckets idx).get id).isSome = (t.buckets idx).hasId id := rfl
    cases hhas : (t.buckets idx).hasId id with
    | true => simp [Bucket.remove, hhas, hget]
    | false => simp [Bucket.remove, hhas, hget]

lemma size_pos_of_has {t : Table} (h : t.Coherent) {id : NodeId} (hhas : t.has id = true) :
    0 < t.size := by
  obtain ⟨i, n, hn, -⟩ := (Table.has_iff_holds h id).1 hhas
  rw [h.size_eq]
  have hbucket : 0 < (t.buckets i).nodes.length := List.length_pos_of_mem hn
  exact hbucket.trans_le (Finset.single_le_sum (f := fun j => (t.buckets j).nodes.length)
    (fun j _ => Nat.zero_le _) (Finset.mem_univ i))

lemma bucketSize_le {t : Table} (h : t.Coherent) (id : NodeId) : bucketSize t id ≤ K := by
  unfold bucketSize
  split
  · exact Nat.zero_le _
  · exact (h.valid _).length_le

lemma not_has_own {t : Table} (h : t.Coherent) : t.has t.id = false := by
  cases hhas : t.has t.id with
  | false => rfl
  | true =>
    obtain ⟨i, n, hn, hid⟩ := (Table.has_iff_holds h t.id).1 hhas
    exact absurd hid (h.own_id_absent i n hn)

@[simp] lemma remove_id (t : Table) (id : NodeId) : (t.remove id).1.id = t.id := by
  unfold Table.remove
  split
  · rfl
  · split <;> rfl

/-! ## The law and the condition -/

/-- What a recorded event must satisfy: the hook is called for an absent node whose bucket holds
`K` nodes; a swap that removes its old node inserts its new one, and the table does not shrink. -/
def KeepsCapacity : TableEvent → Prop
  | .full _ present bucketSize => present = false ∧ bucketSize = K
  | .swapped _ removed inserted before after => (removed = true → inserted = true) ∧ before ≤ after

instance : DecidablePred KeepsCapacity
  | .full _ present bucketSize => inferInstanceAs (Decidable (present = false ∧ bucketSize = K))
  | .swapped _ removed inserted before after =>
    inferInstanceAs (Decidable ((removed = true → inserted = true) ∧ before ≤ after))

/-- Every recorded event satisfies it. -/
def NoCapacityLost (s : RpcNode) : Prop := ∀ e ∈ s.events, KeepsCapacity e

instance (s : RpcNode) : Decidable (NoCapacityLost s) :=
  inferInstanceAs (Decidable (∀ e ∈ s.events, KeepsCapacity e))

/-- A table in which the swap exchanges its two nodes: once the old node is out, the new one is
not in the table and, if the old one was, it is not the own id and its bucket has room. -/
def CleanSwap (t : Table) (state : SwapState) : Prop :=
  (t.remove state.oldId).1.has state.newNode.id = false ∧
    (t.has state.oldId = true → state.newNode.id ≠ t.id ∧
      bucketSize (t.remove state.oldId).1 state.newNode.id < K)

/-- A swap that a step carries out meets a clean table, and the application names no node that is
in the table already. -/
def SwapsCleanly (env : Env) (s : RpcNode) : Input → Prop
  | .timeout ptr => ∀ state,
      (s.socket.onRequestTimeout ptr).2.bind (·.onTimeout) = some (.swap state) →
        CleanSwap s.table state
  | .recv fromServer remote (.response resp) =>
    -- the state in which the response is matched: its sender has been observed
    let heard := (s.received env fromServer remote).hearResponse env remote resp
    s.socket.closing = true ∨ ∀ state,
      (heard.socket.onResponse resp.tid).2.bind (·.onResponse) = some (.swap state) →
        heard.stale state.oldId state.lastSeen = true → CleanSwap heard.table state
  | .addNode addr => s.table.has (computePeerId env.blake2b addr) = false
  | _ => True

/-! ## The hook and one swap -/

lemma repingAndSwap_events (s : RpcNode) (newNode oldest : Node) :
    (s.repingAndSwap newNode oldest).events = s.events := rfl

lemma onBucketFull_events (s : RpcNode) (bucketIdx : ℕ) (newNode : Node) :
    (s.onBucketFull bucketIdx newNode).events = s.events := by
  rcases s.onBucketFull_cases bucketIdx newNode with hsame | ⟨oldest, hswap⟩
  · rw [hsame]
  · rw [hswap, repingAndSwap_events]

lemma onBucketFull_size (s : RpcNode) (bucketIdx : ℕ) (newNode : Node) :
    (s.onBucketFull bucketIdx newNode).table.size = s.table.size := by
  rcases s.onBucketFull_cases bucketIdx newNode with hsame | ⟨oldest, hswap⟩
  · rw [hsame]
  · rw [hswap]
    exact size_modify _ _ _

lemma hooked_events (s : RpcNode) (bucketIdx : ℕ) (node : Node) :
    (s.hooked bucketIdx node).events =
      s.events ++ [.full node (s.table.has node.id) (bucketSize s.table node.id)] :=
  onBucketFull_events _ _ _

lemma hooked_size (s : RpcNode) (bucketIdx : ℕ) (node : Node) :
    (s.hooked bucketIdx node).table.size = s.table.size :=
  onBucketFull_size _ _ _

lemma hooked_has (h : Sane s) (bucketIdx : ℕ) (node : Node) (id : NodeId) :
    (s.hooked bucketIdx node).table.has id = s.table.has id := by
  have hcoherent : Table.Coherent
      { s.table with fullCalls := s.table.fullCalls ++ [(bucketIdx, node)] } :=
    ⟨h.coherent.valid, h.coherent.placed, h.coherent.size_eq⟩
  unfold hooked
  rcases onBucketFull_cases _ bucketIdx node with hsame | ⟨oldest, hswap⟩
  · rw [hsame]
    rfl
  · rw [hswap, Bool.eq_iff_iff]
    obtain ⟨hcoherent', hholds⟩ := Table.modify_spec hcoherent oldest.id (pingedAt s.tick)
    rw [Table.has_iff_holds h.coherent]
    exact (Table.has_iff_holds hcoherent' id).trans (hholds id)

lemma tableAdd_noCapacityLost_iff (h : Sane s) (hs : NoCapacityLost s) (node : Node) :
    NoCapacityLost (s.tableAdd node).1 ↔ s.table.has node.id = false := by
  rcases tableAdd_cases h.onFull node with
    ⟨hown, hadd⟩ | ⟨-, hnew, -, -, hadd⟩ | ⟨-, hwhy, idx, hadd⟩
  · rw [hadd, hown]
    exact iff_of_true hs (not_has_own h.coherent)
  · rw [hadd]
    exact iff_of_true hs hnew
  · have hle := bucketSize_le h.coherent node.id
    rw [hadd]
    simp only [NoCapacityLost, hooked_events, List.mem_append, List.mem_singleton]
    constructor
    · intro hall
      exact (hall _ (.inr rfl)).1
    · rintro hnew e (he | rfl)
      · exact hs e he
      · refine ⟨hnew, ?_⟩
        have := hwhy.resolve_left (by simp [hnew])
        omega

/-- **One swap** keeps the law exactly when it meets a clean table.

**Proof sketch.** The old node goes away if it is there; then the new one is the own id, or is
inserted, or is refused and the hook is called. -/
theorem doSwap_keepsCapacity_iff (h : Sane s) (hs : NoCapacityLost s) (state : SwapState) :
    NoCapacityLost (s.doSwap state) ↔ CleanSwap s.table state := by
  set mid : RpcNode := { s with table := (s.table.remove state.oldId).1 } with hmid
  have hremove : Evolves s mid := removeNode_evolves state.oldId rfl rfl ⟨rfl, rfl, rfl, rfl⟩
  have hsane : Sane mid := hremove.advances.sane h
  have hmid_size : mid.table.size = s.table.size - if s.table.has state.oldId then 1 else 0 := by
    rw [hmid, ← remove_snd]
    exact size_remove s.table state.oldId
  have hpos : s.table.has state.oldId = true → 0 < s.table.size := size_pos_of_has h.coherent
  have hevents : (s.doSwap state).events = (mid.tableAdd state.newNode).1.events ++
      [.swapped state (s.table.has state.oldId) (mid.tableAdd state.newNode).2 s.table.size
        (mid.tableAdd state.newNode).1.table.size] := by
    rw [← remove_snd]
    rfl
  have hclean : CleanSwap s.table state ↔ mid.table.has state.newNode.id = false ∧
      (s.table.has state.oldId = true → state.newNode.id ≠ mid.table.id ∧
        bucketSize mid.table state.newNode.id < K) := by
    rw [hmid, CleanSwap, remove_id]
  have hsplit : NoCapacityLost (s.doSwap state) ↔
      NoCapacityLost (mid.tableAdd state.newNode).1 ∧
        (s.table.has state.oldId = true → (mid.tableAdd state.newNode).2 = true) ∧
          s.table.size ≤ (mid.tableAdd state.newNode).1.table.size := by
    simp only [NoCapacityLost, hevents, List.mem_append, List.mem_singleton]
    constructor
    · intro hall
      exact ⟨fun e he => hall e (.inl he), hall _ (.inr rfl)⟩
    · rintro ⟨hold, hnew⟩ e (he | rfl)
      · exact hold e he
      · exact hnew
  rw [hsplit, hclean, tableAdd_noCapacityLost_iff hsane hs]
  refine and_congr_right fun hnew => ?_
  rcases tableAdd_cases hsane.onFull state.newNode with
    ⟨hown, hadd⟩ | ⟨hown, -, hroom, hok, hadd⟩ | ⟨hown, hwhy, idx, hadd⟩
  · -- the own id is not inserted, so nothing may have been removed
    rw [hadd, hmid_size]
    cases hold : s.table.has state.oldId with
    | true => simp [hown]
    | false => simp
  · rw [hadd]
    have hsize : (mid.table.add state.newNode).1.size = mid.table.size + 1 := by
      rw [size_add, hok]
      rfl
    refine iff_of_true ⟨fun _ => rfl, ?_⟩ fun _ => ⟨hown, hroom⟩
    simp only [hsize, hmid_size]
    split <;> omega
  · -- the node is absent, so its bucket is full
    have hfull := hwhy.resolve_left (by simp [hnew])
    rw [hadd, hooked_size, hmid_size]
    cases hold : s.table.has state.oldId with
    | true => simp [not_lt.2 hfull]
    | false => simp

/-! ## Every step -/

lemma noCapacityLost_of_events {t : RpcNode} (hs : NoCapacityLost s) (h : t.events = s.events) :
    NoCapacityLost t := by
  unfold NoCapacityLost
  rw [h]
  exact hs

lemma observe_noCapacityLost (h : Sane s) (hs : NoCapacityLost s) (id : Option NodeId)
    (remote : Ipv4Address) : NoCapacityLost (s.observe env id remote) := by
  unfold observe
  split
  · exact hs
  · split
    · unfold addNodeFromNetwork
      split
      · exact hs
      · split
        · exact hs
        · next id _ _ hnew => exact (tableAdd_noCapacityLost_iff h hs _).2 (by simpa using hnew)
    · exact hs

lemma onRequestTimeout_noCapacityLost_iff (h : Sane s) (hs : NoCapacityLost s) (ptr : ℕ) :
    NoCapacityLost (s.onRequestTimeout ptr) ↔ SwapsCleanly env s (.timeout ptr) := by
  set result := s.socket.onRequestTimeout ptr with hresult
  have hsane : ∀ n, Sane { s with socket := result.1, repinging := n } := fun n =>
    ⟨(onRequestTimeout_quiets h.wellFormed ptr).wellFormed h.wellFormed, h.coherent, h.onFull⟩
  simp only [SwapsCleanly, s.onRequestTimeout_eq, ← hresult]
  cases result.2.bind (·.onTimeout) with
  | none => exact iff_of_true hs (by simp)
  | some callback =>
    cases callback with
    | swap state =>
      have hswap := doSwap_keepsCapacity_iff (hsane (s.repinging - 1)) hs state
      simpa [runOnTimeout] using hswap
    | check state => exact iff_of_true hs (by simp)
    | other => exact iff_of_true hs (by simp)

lemma resolve_noCapacityLost_iff (h : Sane s) (hs : NoCapacityLost s) (tid : UInt16) :
    NoCapacityLost (s.resolve tid) ↔ ∀ state,
      (s.socket.onResponse tid).2.bind (·.onResponse) = some (.swap state) →
        s.stale state.oldId state.lastSeen = true → CleanSwap s.table state := by
  set result := s.socket.onResponse tid with hresult
  have hsane : ∀ n, Sane { s with socket := result.1, repinging := n } := fun n =>
    ⟨(onResponse_quiets h.wellFormed tid).wellFormed h.wellFormed, h.coherent, h.onFull⟩
  rw [s.resolve_eq, ← hresult]
  cases result.2.bind (·.onResponse) with
  | none => exact iff_of_true hs (by simp)
  | some callback =>
    cases callback with
    | swap state =>
      have hswap := doSwap_keepsCapacity_iff (hsane (s.repinging - 1)) hs state
      have hstale : ({ s with socket := result.1, repinging := s.repinging - 1 } : RpcNode).stale
          state.oldId state.lastSeen = s.stale state.oldId state.lastSeen := rfl
      simp only [runOnResponse, hstale]
      cases hseen : s.stale state.oldId state.lastSeen with
      | true => simpa [hseen] using hswap
      | false =>
        refine iff_of_true hs fun state' heq hseen' => ?_
        obtain rfl : state = state' := by simpa using heq
        simp [hseen] at hseen'
    | check state =>
      refine iff_of_true ?_ (by simp)
      simp only [runOnResponse]
      split <;> exact hs
    | other => exact iff_of_true hs (by simp)

/-- **One step** of the node keeps the law exactly when it meets the condition. -/
theorem noCapacityLost_step_iff (h : Sane s) (hs : NoCapacityLost s) (i : Input) :
    NoCapacityLost (s.step env i) ↔ SwapsCleanly env s i := by
  cases i with
  | recv fromServer remote msg =>
    have hprobed := received_probed env s fromServer remote
    have hreceived := hprobed.advances.sane h
    have hkept := noCapacityLost_of_events hs hprobed.events
    have hclosing : (s.received env fromServer remote).socket.closing = s.socket.closing :=
      congrArg RpcSocket.closing hprobed.socket
    simp only [step, onRecv, handleMessage, hclosing]
    cases hopen : s.socket.closing with
    | true =>
      simp only [if_true]
      refine iff_of_true hkept ?_
      cases msg <;> simp [SwapsCleanly, hopen]
    | false =>
      cases msg with
      | request id => exact iff_of_true (observe_noCapacityLost hreceived hkept id remote) trivial
      | response resp =>
        have hheard : Sane ((s.received env fromServer remote).hearResponse env remote resp) :=
          (hearResponse_evolves env _ remote resp).advances.sane hreceived
        have hgood : NoCapacityLost
            ((s.received env fromServer remote).hearResponse env remote resp) :=
          @observe_noCapacityLost env { s.received env fromServer remote with
            natSampler := ((s.received env fromServer remote).natSampler.add resp.fromAddr
              remote).1 } ⟨hreceived.wellFormed, hreceived.coherent, hreceived.onFull⟩
            hkept resp.id remote
        simpa [SwapsCleanly, hopen] using resolve_noCapacityLost_iff hheard hgood resp.tid
      | other => exact iff_of_true hkept trivial
  | timeout ptr => exact onRequestTimeout_noCapacityLost_iff h hs ptr
  | drainTick => exact iff_of_true hs trivial
  | backgroundTick =>
    exact iff_of_true (noCapacityLost_of_events hs (backgroundTick_ticked s).events) trivial
  | probeTimeout =>
    exact iff_of_true (noCapacityLost_of_events hs (finishFirewallProbe_probed env s).events) trivial
  | request req timeoutOverrideMs retries => exact iff_of_true hs trivial
  | cancel tid => exact iff_of_true hs trivial
  | checkNode node => exact iff_of_true hs trivial
  | addNode addr => exact tableAdd_noCapacityLost_iff h hs _
  | setBootstrapped value => exact iff_of_true hs trivial
  | close => exact iff_of_true hs trivial

/-! ## The theorem -/

/-- **Exactly when ping-and-swap loses no capacity.** In every state of a run every completed swap
that removed its old node inserted its new one, the table shrank in none of them, and the hook for
full buckets was called only for absent nodes of buckets with `K` nodes, if and only if every swap
the run carried out met a clean table and the application named no node that was there.

**Proof sketch.** Peers are added only if they are absent, so the hook is called for them as it
should be. A swap keeps the law exactly when the table is clean. -/
theorem keepsCapacity_iff_swapsCleanly (env : Env) (localId : NodeId) (firstTid : UInt16)
    (is : List Input) :
    Runs.EveryState (step env) NoCapacityLost (init localId firstTid) is ↔
      Runs.EveryStep (step env) (SwapsCleanly env) (init localId firstTid) is :=
  Runs.everyState_iff_everyStep (fun s i => sane_step env s i)
    (fun _ i h hs => noCapacityLost_step_iff h hs i) (sane_init localId firstTid)
    (by simp [NoCapacityLost, init])

/-! ## Two swaps for one new node -/

/-- A digest that pads its input with zeros, so that the addresses of one network share a
bucket. -/
def paddedDigest (bytes : List UInt8) : NodeId :=
  ⟨⟨(bytes ++ List.replicate 32 0).take 32, by simp⟩⟩

def crowdedEnv : Env where
  blake2b := paddedDigest
  filterAccept := fun _ _ => true
  clientPort := 1000
  serverPort := 2000

/-- A request arrives from the `n`-th address of the network, with its id. -/
def hear (n : ℕ) : Input :=
  let addr : Ipv4Address := .ofOctets 200 0 0 (UInt8.ofNat n) 1
  .recv false addr (.request (some (computePeerId paddedDigest addr)))

/-- Twenty peers fill a bucket; in the next tick two requests of another one start two swaps for
it, and the pings of both time out. -/
def twoSwaps : List Input :=
  (List.range 20).map hear ++
    [.setBootstrapped true, .backgroundTick, hear 20, hear 20, .timeout 0, .timeout 1]

/-- **Two swaps for one node lose a slot**: the second one removes its old node, finds the new one
in the table, and calls the hook for it. -/
theorem not_keepsCapacity_twoSwaps : ¬ Runs.EveryState (step crowdedEnv) NoCapacityLost
    (init NodeId.zero 1) twoSwaps := by
  intro h
  have hlost : ¬ NoCapacityLost (Runs.run (step crowdedEnv) (init NodeId.zero 1) twoSwaps) := by
    decide +kernel
  exact hlost h.run

end HyperDHT.Rpc.RpcNode
