import HyperDHT.Handlers.DownHint
import HyperDHT.Rpc.Ages

/-!
# A live node survives ping-and-swap

The node that a ping-and-swap would evict is pinged, and its answer marks it as seen in the current
tick before the swap compares this with the tick remembered when the ping was sent. The remembered
one is smaller, because the hook selects only nodes that were not pinged in the tick, so a node that
answers is kept. The answer has to be what completes the ping: a response is matched by its
transaction id alone, and one that comes from another host first has the swap carried out.

## Main definitions

* `Handlers.TickAdvances` — the tick counter does not wrap around.
* `Handlers.CarriesOutSwap` — a step carries out the swap of a ping.
* `Handlers.SwapAnswered` — a node answers the ping that was sent to it.

## Main results

* `Handlers.aged_step` — every step keeps the ticks of the nodes in order.
* `Handlers.live_node_survives` — the ticks are in order in every state, and a swap whose ping the
  node answers is carried out in no step of the run.
-/

set_option autoImplicit false

namespace HyperDHT.Handlers

open scoped List
open Compact Routing Rpc RpcSocket RpcNode

variable {env : Env} {s : HintedNode}

/-! ## Every step keeps the ticks in order -/

/-- The tick counter does not wrap around in this step. -/
def TickAdvances (s : HintedNode) : HintedNode.Input → Prop
  | .node .backgroundTick => s.node.tick < s.node.tick + 1
  | _ => True

instance (s : HintedNode) : DecidablePred (TickAdvances s)
  | .node .backgroundTick => inferInstanceAs (Decidable (s.node.tick < s.node.tick + 1))
  | .node (.recv ..) | .node (.timeout _) | .node .drainTick | .node .probeTimeout
  | .node (.request ..) | .node (.cancel _) | .node (.checkNode _) | .node (.addNode _)
  | .node (.setBootstrapped _) | .node .close | .downHint .. => .isTrue trivial

lemma startFirewallProbe_tick (node : RpcNode) : node.startFirewallProbe.tick = node.tick := by
  unfold startFirewallProbe
  split <;> rfl

lemma checkPersistent_tick (node : RpcNode) : node.checkPersistent.tick = node.tick := by
  unfold checkPersistent
  split
  · rfl
  · split
    · rfl
    · split
      · rfl
      · dsimp only
        split
        · exact startFirewallProbe_tick _
        · rfl

lemma backgroundTick_tick (node : RpcNode) :
    node.backgroundTick.tick = node.tick ∨ node.backgroundTick.tick = node.tick + 1 := by
  unfold backgroundTick
  split
  · exact .inl rfl
  · dsimp only
    split
    · exact .inr rfl
    · split
      · exact .inr (checkPersistent_tick _)
      · exact .inr rfl

lemma backgroundTick_aged {node : RpcNode} (h : Aged node) (hwrap : node.tick < node.tick + 1) :
    Aged node.backgroundTick := by
  have hticked := backgroundTick_ticked node
  have hle : node.tick ≤ node.backgroundTick.tick := by
    rcases backgroundTick_tick node with heq | heq
    · exact heq ▸ UInt32.le_refl _
    · exact heq ▸ UInt32.le_of_lt hwrap
  refine ⟨fun i n hn => ?_, fun r hr => ?_⟩
  · rw [hticked.table] at hn
    exact (h.table i n hn).mono hle
  · rw [hticked.socket] at hr
    exact (h.swaps r hr).mono hle

/-- **Every step keeps the ticks in order.** -/
theorem aged_step (env : Env) (hs : s.node.Sane) (h : Aged s.node) {i : HintedNode.Input}
    (hwrap : TickAdvances s i) : Aged (s.step env i).node := by
  cases i with
  | node i =>
    cases i with
    | recv fromServer remote msg =>
      have hprobed := received_probed env s.node fromServer remote
      exact handleMessage_aged env (hprobed.advances.sane hs) (hprobed.aged h) remote msg
    | timeout ptr => exact onRequestTimeout_aged hs h ptr
    | drainTick => exact h.quiets hs.wellFormed (onDrainTick_quiets hs.wellFormed) rfl rfl
    | backgroundTick => exact backgroundTick_aged h hwrap
    | probeTimeout => exact (finishFirewallProbe_probed env s.node).aged h
    | request req timeoutOverrideMs retries =>
      exact h.request hs.wellFormed .other (fun state hstate => by simp at hstate) rfl h.table rfl
    | cancel tid => exact h.quiets hs.wellFormed (cancelRequest_quiets hs.wellFormed tid) rfl rfl
    | checkNode node => exact checkNode_aged h hs.wellFormed node
    | addNode addr => exact tableAdd_aged hs h ⟨UInt32.le_refl _, UInt32.zero_le⟩
    | setBootstrapped value => exact h.congr rfl rfl rfl
    | close => exact h.quiets hs.wellFormed (close_quiets hs.wellFormed) rfl rfl
  | downHint now source value =>
    rcases s.handleDownHint_cases env now source value with hsame | ⟨bytes, n, -, -, hcheck⟩
    · rw [HintedNode.step, hsame]
      exact h
    · rw [HintedNode.step, hcheck]
      have hhint : Aged { s.node with
          table := s.node.table.modify (env.blake2b (bytes.take 6)) HintedNode.hinted } :=
        h.of_table (h.table.modify _ fun n hn => ⟨hn.seen_le, hn.pinged_le⟩) rfl rfl
      exact checkNode_aged hhint hs.wellFormed _

lemma aged_run (env : Env) (localId : NodeId) (firstTid : UInt16) {is : List HintedNode.Input}
    (hticks : Runs.EveryStep (HintedNode.step env) TickAdvances (HintedNode.init localId firstTid)
      is) :
    Aged (Runs.run (HintedNode.step env) (HintedNode.init localId firstTid) is).node := by
  refine (Runs.run_invariant_of_everyStep (P := fun s => s.node.Sane ∧ Aged s.node)
    (fun s i h hwrap => ?_) ⟨sane_init localId firstTid, ?_, ?_⟩ hticks).2
  · exact ⟨(HintedNode.step_advances env s i).sane h.1, aged_step env h.1 h.2 hwrap⟩
  · exact fun i n hn => by simp [HintedNode.init, RpcNode.init] at hn
  · exact fun r hr => by
      simp [HintedNode.init, RpcNode.init, RpcSocket.init, outstanding] at hr

/-! ## The swap of a ping -/

/-- The state in which a response is matched: its sender has been observed. -/
def heardBy (env : Env) (s : HintedNode) (fromServer : Bool) (remote : Ipv4Address)
    (resp : Response) : RpcNode :=
  (s.node.received env fromServer remote).hearResponse env remote resp

/-- The step carries out the swap whose ping is the request object `ptr`: the ping times out, or a
response is matched to it and the old node is in the table and was not seen since. -/
def CarriesOutSwap (env : Env) (s : HintedNode) (ptr : ℕ) : HintedNode.Input → Prop
  | .node (.timeout timer) => ∃ r state, (s.node.socket.onRequestTimeout timer).2 = some r ∧
      r.ptr = ptr ∧ r.onTimeout = some (.swap state)
  | .node (.recv fromServer remote (.response resp)) =>
    s.node.socket.closing = false ∧
      ∃ r state, ((heardBy env s fromServer remote resp).socket.onResponse resp.tid).2 = some r ∧
        r.ptr = ptr ∧ r.onResponse = some (.swap state) ∧
          (heardBy env s fromServer remote resp).stale state.oldId state.lastSeen = true
  | _ => False

lemma gone_of_completed {κ : Type} {s : RpcSocket κ} {r : InflightRequest κ} {e : Event}
    (h : WellFormed s) (hr : r ∈ s.inflight) :
    Gone [r.ptr] { s.destroyRequest r with log := s.log ++ [e] } := by
  have hnodup := ((destroyRequest_outstanding h hr).map (·.ptr)).nodup_iff.2 h.nodup
  rw [List.map_cons, List.nodup_cons] at hnodup
  intro ptr hptr
  obtain rfl := List.mem_singleton.1 hptr
  refine ⟨?_, fun b hb heq => hnodup.1 (heq ▸ List.mem_map_of_mem hb)⟩
  have hlt := h.ptr_lt r (mem_outstanding.2 (.inl hr))
  unfold destroyRequest
  split <;> exact hlt

lemma resolve_gone {node : RpcNode} (h : node.Sane) {tid : UInt16}
    {r : InflightRequest NodeCallback} (hr : (node.socket.onResponse tid).2 = some r) :
    Gone [r.ptr] (node.resolve tid).socket := by
  have hquiets := onResponse_quiets h.wellFormed tid
  have hgone : Gone [r.ptr] (node.socket.onResponse tid).1 := by
    rcases onResponse_cases h.wellFormed tid with ⟨-, hnone⟩ | ⟨b, hb, -, hsome⟩
    · simp [hnone] at hr
    · obtain rfl : b = r := by simpa [hsome] using hr
      rw [hsome]
      exact gone_of_completed h.wellFormed hb
  unfold resolve
  dsimp only
  split
  · exact hgone
  · have hwf := hquiets.wellFormed h.wellFormed
    exact (((runOnResponse_evolves _ _).moves hwf).gone hwf hgone).1

lemma onRequestTimeout_gone {node : RpcNode} (h : node.Sane) {ptr : ℕ}
    {r : InflightRequest NodeCallback} (hr : (node.socket.onRequestTimeout ptr).2 = some r) :
    Gone [r.ptr] (node.onRequestTimeout ptr).socket := by
  have hquiets := onRequestTimeout_quiets h.wellFormed ptr
  have hgone : Gone [r.ptr] (node.socket.onRequestTimeout ptr).1 := by
    rcases onRequestTimeout_cases h.wellFormed ptr with
      ⟨-, hnone⟩ | ⟨b, hb, -, ⟨-, hretry⟩ | ⟨-, hgive⟩⟩
    · simp [hnone] at hr
    · simp [hretry] at hr
    · obtain rfl : b = r := by simpa [hgive] using hr
      rw [hgive]
      exact gone_of_completed h.wellFormed hb
  unfold RpcNode.onRequestTimeout
  dsimp only
  split
  · exact hgone
  · have hwf := hquiets.wellFormed h.wellFormed
    exact (((runOnTimeout_evolves _ _).moves hwf).gone hwf hgone).1

lemma heardBy_moves (env : Env) (hs : s.node.Sane) (fromServer : Bool) (remote : Ipv4Address)
    (resp : Response) :
    (heardBy env s fromServer remote resp).Sane ∧
      Moves s.node.socket (heardBy env s fromServer remote resp).socket := by
  have hprobed := received_probed env s.node fromServer remote
  have hsane := hprobed.advances.sane hs
  have hheard := hearResponse_evolves env (s.node.received env fromServer remote) remote resp
  have hmoves := hheard.moves hsane.wellFormed
  rw [hprobed.socket] at hmoves
  exact ⟨hheard.advances.sane hsane, hmoves⟩

lemma step_response (env : Env) (hopen : s.node.socket.closing = false) (fromServer : Bool)
    (remote : Ipv4Address) (resp : Response) :
    (s.step env (.node (.recv fromServer remote (.response resp)))).node =
      (heardBy env s fromServer remote resp).resolve resp.tid := by
  have hsocket := (received_probed env s.node fromServer remote).socket
  simp [HintedNode.step, RpcNode.step, onRecv, handleMessage, heardBy, hsocket, hopen]

lemma not_carriesOut_of_gone (hs : s.node.Sane) {ptr : ℕ} (hgone : Gone [ptr] s.node.socket)
    (i : HintedNode.Input) : ¬ CarriesOutSwap env s ptr i := by
  intro hcarries
  cases i with
  | downHint now source value => exact hcarries
  | node i =>
    cases i with
    | timeout timer =>
      obtain ⟨r, state, hr, hptr, -⟩ := hcarries
      rcases onRequestTimeout_cases hs.wellFormed timer with
        ⟨-, hnone⟩ | ⟨b, hb, -, ⟨-, hretry⟩ | ⟨-, hgive⟩⟩
      · simp [hnone] at hr
      · simp [hretry] at hr
      · obtain rfl : b = r := by simpa [hgive] using hr
        exact (hgone ptr (by simp)).2 b (mem_outstanding.2 (.inl hb)) hptr
    | recv fromServer remote msg =>
      cases msg with
      | response resp =>
        obtain ⟨-, r, state, hr, hptr, -⟩ := hcarries
        obtain ⟨hsane, hmoves⟩ := heardBy_moves env hs fromServer remote resp
        have hgone' := (hmoves.gone hs.wellFormed hgone).1
        rcases onResponse_cases hsane.wellFormed resp.tid with ⟨-, hnone⟩ | ⟨b, hb, -, hsome⟩
        · simp [hnone] at hr
        · obtain rfl : b = r := by simpa [hsome] using hr
          exact (hgone' ptr (by simp)).2 b (mem_outstanding.2 (.inl hb)) hptr
      | request id => exact hcarries
      | other => exact hcarries
    | _ => exact hcarries

lemma gone_of_carriesOut (hs : s.node.Sane) {ptr : ℕ} {i : HintedNode.Input}
    (hcarries : CarriesOutSwap env s ptr i) : Gone [ptr] (s.step env i).node.socket := by
  cases i with
  | downHint now source value => exact hcarries.elim
  | node i =>
    cases i with
    | timeout timer =>
      obtain ⟨r, state, hr, rfl, -⟩ := hcarries
      exact onRequestTimeout_gone hs hr
    | recv fromServer remote msg =>
      cases msg with
      | response resp =>
        obtain ⟨hopen, r, state, hr, rfl, -⟩ := hcarries
        rw [step_response env hopen]
        exact resolve_gone (heardBy_moves env hs fromServer remote resp).1 hr
      | request id => exact hcarries.elim
      | other => exact hcarries.elim
    | _ => exact hcarries.elim

/-! ## The answer -/

/-- **A node answers the ping of a swap**: the response is matched to the ping `r` of the swap
`state`, which is in flight, and comes from the address of the node, with its valid id, which the
filter accepts. -/
structure SwapAnswered (env : Env) (s : HintedNode) (r : InflightRequest NodeCallback)
    (state : SwapState) (remote : Ipv4Address) (resp : Response) : Prop where
  inflight : s.node.socket.findInflight resp.tid = some r
  callback : r.onResponse = some (.swap state)
  address : computePeerId env.blake2b remote = state.oldId
  valid : resp.id = some state.oldId
  accepted : env.filterAccept state.oldId remote = true

lemma SwapAnswered.heard {r : InflightRequest NodeCallback} {state : SwapState}
    {remote : Ipv4Address} {resp : Response} (h : SwapAnswered env s r state remote resp)
    (hs : s.node.Sane) (hlt : state.lastSeen < s.node.tick) (fromServer : Bool) :
    (heardBy env s fromServer remote resp).socket.findInflight resp.tid = some r ∧
      (heardBy env s fromServer remote resp).stale state.oldId state.lastSeen = false ∧
        ((s.node.received env fromServer remote).table.has state.oldId = true →
          (heardBy env s fromServer remote resp).table.has state.oldId = true) := by
  have hprobed := received_probed env s.node fromServer remote
  have hsane := hprobed.advances.sane hs
  have hfind : (s.node.received env fromServer remote).socket.findInflight resp.tid = some r := by
    rw [hprobed.socket]
    exact h.inflight
  obtain ⟨hfind', hcase⟩ := hearResponse_has_iff hsane h.valid h.address h.accepted hfind
  refine ⟨hfind', ?_⟩
  rcases hcase with ⟨⟨n, hget, hseen⟩, -⟩ | ⟨hnot, hnoroom⟩
  · have hgot : (heardBy env s fromServer remote resp).table.get state.oldId = some n := hget
    refine ⟨?_, fun _ => by simp [Table.has, hgot]⟩
    simp only [stale, hgot, hseen, hprobed.tick]
    exact decide_eq_false (UInt32.not_le.2 hlt)
  · have habsent : (heardBy env s fromServer remote resp).table.has state.oldId = false := hnot
    have hnone : (heardBy env s fromServer remote resp).table.get state.oldId = none := by
      simpa [Table.has, Option.isSome_eq_false_iff] using habsent
    exact ⟨by simp [stale, hnone], fun hhas => absurd (.inl hhas) hnoroom⟩

lemma onResponse_snd {κ : Type} {s : RpcSocket κ} (h : WellFormed s) {tid : UInt16}
    {r : InflightRequest κ} (hfind : s.findInflight tid = some r) :
    (s.onResponse tid).2 = some r := by
  have hopen := h.open_of_mem (mem_outstanding.2 (.inl (mem_of_findInflight hfind).1))
  rcases onResponse_cases h tid with ⟨hclosing | hnone, -⟩ | ⟨b, -, hb, hsome⟩
  · simp [hopen] at hclosing
  · simp [hnone] at hfind
  · rw [hsome, ← Option.some.inj (hb.symm.trans hfind)]

lemma SwapAnswered.step {r : InflightRequest NodeCallback} {state : SwapState}
    {remote : Ipv4Address} {resp : Response} (h : SwapAnswered env s r state remote resp)
    (hs : s.node.Sane) (hlt : state.lastSeen < s.node.tick) (fromServer : Bool) :
    ¬ CarriesOutSwap env s r.ptr (.node (.recv fromServer remote (.response resp))) ∧
    Gone [r.ptr] (s.step env (.node (.recv fromServer remote (.response resp)))).node.socket ∧
      ((s.node.received env fromServer remote).table.has state.oldId = true →
        (s.step env (.node (.recv fromServer remote (.response resp)))).node.table.has
          state.oldId = true) := by
  have hopen := hs.wellFormed.open_of_mem (mem_outstanding.2 (.inl (mem_of_findInflight h.inflight).1))
  obtain ⟨hsane, -⟩ := heardBy_moves env hs fromServer remote resp
  obtain ⟨hfind, hstale, hkept⟩ := h.heard hs hlt fromServer
  have hcompleted := onResponse_snd hsane.wellFormed hfind
  refine ⟨?_, ?_, fun hhas => ?_⟩
  · rintro ⟨-, b, state', hb, -, hcallback, hstale'⟩
    obtain rfl : r = b := Option.some.inj (hcompleted.symm.trans hb)
    have hstate : state = state' :=
      NodeCallback.swap.inj (Option.some.inj (h.callback.symm.trans hcallback))
    rw [← hstate, hstale] at hstale'
    simp at hstale'
  · rw [step_response env hopen]
    exact resolve_gone hsane hcompleted
  · have hresolved : ((heardBy env s fromServer remote resp).resolve resp.tid).table =
        (heardBy env s fromServer remote resp).table := by
      have hfresh : ∀ socket n, ({ heardBy env s fromServer remote resp with
          socket := socket, repinging := n } : RpcNode).stale state.oldId state.lastSeen = false :=
        fun _ _ => hstale
      simp [resolve, hcompleted, h.callback, runOnResponse, hfresh]
    rw [step_response env hopen, hresolved]
    exact hkept hhas

lemma gone_run (hs : s.node.Sane) {ptrs : List ℕ} {i : HintedNode.Input}
    (hgone : Gone ptrs (s.step env i).node.socket) (later : List HintedNode.Input) :
    Gone ptrs (Runs.run (HintedNode.step env) s (i :: later)).node.socket := by
  have hnext := (HintedNode.step_advances env s i).sane hs
  have hmoves := (HintedNode.run_moves env hnext later).1
  exact (hmoves.gone hnext.wellFormed hgone).1

/-- **A live node survives ping-and-swap.** In every run in which the tick counter does not wrap
around, the nodes of the table satisfy `seen ≤ pinged ≤ tick_`. And if the node that was selected
for a ping-and-swap answers the ping, from its address and with its valid id, then no step of the
run, before, at or after the answer, carries out that swap; the node is in the table after its
answer if it was there when the answer arrived.

**Proof sketch.** The swap remembers an earlier tick than that in which the answer marks the node as
seen. A swap that was carried out before would have ended the ping. -/
theorem live_node_survives (env : Env) (localId : NodeId) (firstTid : UInt16)
    (is : List HintedNode.Input)
    (hticks : Runs.EveryStep (HintedNode.step env) TickAdvances (HintedNode.init localId firstTid)
      is) :
    let run := Runs.run (HintedNode.step env) (HintedNode.init localId firstTid)
    AllNodes (InOrder (run is).node.tick) (run is).node.table ∧
    ∀ r state fromServer remote resp ks, SwapAnswered env (run is) r state remote resp →
      (∀ before i after,
        is ++ .node (.recv fromServer remote (.response resp)) :: ks = before ++ i :: after →
          ¬ CarriesOutSwap env (run before) r.ptr i) ∧
      (((run is).node.received env fromServer remote).table.has state.oldId = true →
        ((run is).step env (.node (.recv fromServer remote (.response resp)))).node.table.has
          state.oldId = true) := by
  intro run
  have haged := aged_run env localId firstTid hticks
  refine ⟨haged.table, fun r state fromServer remote resp ks hanswer => ?_⟩
  have hsane : ∀ js, (run js).node.Sane := fun js =>
    (HintedNode.sane_logged_run env localId firstTid js).1
  have hr := (mem_of_findInflight hanswer.inflight).1
  have hmem := mem_outstanding.2 (.inl hr)
  have hlt := (haged.swaps r hmem state (.inl hanswer.callback)).lastSeen_lt
  obtain ⟨hnot, hgone, hkept⟩ := hanswer.step (hsane is) hlt fromServer
  refine ⟨fun before i after hsplit => ?_, hkept⟩
  set answer : HintedNode.Input := .node (.recv fromServer remote (.response resp))
  have hrun : ∀ js later, run (js ++ later) = Runs.run (HintedNode.step env) (run js) later :=
    fun js later => Runs.run_append (HintedNode.step env) _ js later
  rcases List.append_eq_append_iff.1 hsplit with ⟨later, rfl, hlater⟩ | ⟨later, rfl, hlater⟩
  · cases later with
    | nil =>
      -- the step of the answer
      rw [List.append_nil]
      obtain ⟨rfl, -⟩ := List.cons.inj hlater
      exact hnot
    | cons first later =>
      -- a step after the answer
      obtain ⟨rfl, -⟩ := List.cons.inj hlater
      have hgone' := gone_run (hsane is) hgone later
      rw [← hrun] at hgone'
      exact not_carriesOut_of_gone (hsane _) hgone' i
  · cases later with
    | nil =>
      -- the step of the answer again
      rw [List.append_nil] at hnot
      obtain ⟨rfl, -⟩ := List.cons.inj hlater
      exact hnot
    | cons first later =>
      -- a step before the answer
      obtain ⟨rfl, -⟩ := List.cons.inj hlater
      intro hcarries
      have hgone' := gone_run (hsane before) (gone_of_carriesOut (hsane before) hcarries) later
      rw [← hrun] at hgone'
      exact (hgone' r.ptr (by simp)).2 r hmem rfl

/-! ## An answer in time, and one after a stranger's -/

/-- Twenty peers fill a bucket; in the next tick a request of another one starts a swap, and the
first peer is pinged. -/
def selecting : List HintedNode.Input :=
  ((List.range 20).map hear ++ [.setBootstrapped true, .backgroundTick, hear 20]).map .node

def firstPeer : Ipv4Address := .ofOctets 200 0 0 0 1
def firstAnswer : Response := { tid := 1, id := some (computePeerId paddedDigest firstPeer) }

def stranger : Ipv4Address := .ofOctets 9 9 9 9 9
def strangersAnswer : HintedNode.Input := .node (.recv false stranger (.response { tid := 1 }))

def firstSwap : SwapState where
  newNode := {
    id := computePeerId paddedDigest (.ofOctets 200 0 0 20 1)
    host := (.ofOctets 200 0 0 20 1 : Ipv4Address).hostString
    port := 1, added := 1, pinged := 1, seen := 1 }
  oldId := computePeerId paddedDigest firstPeer
  lastSeen := 0

lemma firstSwap_inflight : ∃ r,
    (Runs.run (HintedNode.step crowdedEnv) (HintedNode.init NodeId.zero 1) selecting
      ).node.socket.findInflight 1 = some r ∧
    (r.ptr, r.tid, r.onResponse, r.onTimeout) =
      (0, 1, some (.swap firstSwap), some (.swap firstSwap)) := by
  have hfound : ((Runs.run (HintedNode.step crowdedEnv) (HintedNode.init NodeId.zero 1) selecting
      ).node.socket.findInflight 1).map (fun r => (r.ptr, r.tid, r.onResponse, r.onTimeout)) =
        some (0, 1, some (.swap firstSwap), some (.swap firstSwap)) := by
    decide +kernel
  exact Option.map_eq_some_iff.1 hfound

/-- The first peer is in the table after its answer. -/
theorem live_node_survives_selecting :
    ((Runs.run (HintedNode.step crowdedEnv) (HintedNode.init NodeId.zero 1) selecting).step
      crowdedEnv (.node (.recv false firstPeer (.response firstAnswer)))).node.table.has
        firstSwap.oldId = true := by
  obtain ⟨r, hfind, hr⟩ := firstSwap_inflight
  simp only [Prod.mk.injEq] at hr
  have hanswered : SwapAnswered crowdedEnv
      (Runs.run (HintedNode.step crowdedEnv) (HintedNode.init NodeId.zero 1) selecting) r firstSwap
      firstPeer firstAnswer := ⟨hfind, hr.2.2.1, rfl, rfl, rfl⟩
  have hsurvives := live_node_survives crowdedEnv NodeId.zero 1 selecting (by decide +kernel)
  exact (hsurvives.2 r firstSwap false firstPeer firstAnswer [] hanswered).2 (by decide +kernel)

/-- The survival of a node that answers the ping sent to it before the ping times out, whatever
else arrives in the meantime. -/
def SurvivesAnyInterleaving (env : Env) (localId : NodeId) (firstTid : UInt16) : Prop :=
  let run := Runs.run (HintedNode.step env) (HintedNode.init localId firstTid)
  ∀ is js r state fromServer remote resp,
    Runs.EveryStep (HintedNode.step env) TickAdvances (HintedNode.init localId firstTid)
      (is ++ js) →
    r ∈ (run is).node.socket.inflight → r.onResponse = some (.swap state) →
    (∀ i ∈ js, i ≠ .node (.timeout r.ptr)) → resp.tid = r.tid → resp.id = some state.oldId →
    computePeerId env.blake2b remote = state.oldId → env.filterAccept state.oldId remote = true →
      ∀ before i after,
        is ++ js ++ [.node (.recv fromServer remote (.response resp))] = before ++ i :: after →
          ¬ CarriesOutSwap env (run before) r.ptr i

/-- **A stranger's response evicts a live node**: it carries the id of the ping, so it completes the
ping, and the node, which was not seen since, is swapped out before its own answer arrives. -/
theorem not_survivesAnyInterleaving : ¬ SurvivesAnyInterleaving crowdedEnv NodeId.zero 1 := by
  intro h
  obtain ⟨r, hfind, hr⟩ := firstSwap_inflight
  simp only [Prod.mk.injEq] at hr
  obtain ⟨hptr, htid, hresponse, -⟩ := hr
  have hnot := h selecting [strangersAnswer] r firstSwap false firstPeer firstAnswer
    (by decide +kernel) (mem_of_findInflight hfind).1 hresponse
    (by simp [strangersAnswer]) htid.symm rfl rfl rfl selecting strangersAnswer
    [.node (.recv false firstPeer (.response firstAnswer))] (by simp)
  have hheard : ((heardBy crowdedEnv (Runs.run (HintedNode.step crowdedEnv)
      (HintedNode.init NodeId.zero 1) selecting) false stranger { tid := 1 }).socket.onResponse 1
        ).2.map (fun r => (r.ptr, r.onResponse)) = some (0, some (.swap firstSwap)) := by
    decide +kernel
  obtain ⟨b, hb, heq⟩ := Option.map_eq_some_iff.1 hheard
  obtain ⟨hbptr, hbresponse⟩ := Prod.mk.inj heq
  refine hnot ⟨by decide +kernel, b, firstSwap, hb, hbptr.trans hptr.symm, hbresponse, ?_⟩
  decide +kernel

end HyperDHT.Handlers
