import HyperDHT.Rpc.Eviction

/-!
# The ticks of a node

Each node of the routing table carries the tick at which it was last seen and the tick at which it
was last pinged. They are in order: `seen ≤ pinged ≤ tick_`. The node a ping-and-swap was started
for was not pinged in that tick, so the tick at which it was last seen, which the swap remembers, is
smaller than every later tick.

## Main definitions

* `Routing.AllNodes` — a property of all nodes of a table.
* `Rpc.InOrder`, `Rpc.SwapInOrder` — the ticks of a node, and of a swap under way.
* `Rpc.RpcNode.Aged` — the ticks of the table and of the swaps under way are in order.

## Main results

* `Routing.AllNodes.add`, `Routing.AllNodes.modify`, … — the calls of the table keep such a property.
* `Rpc.RpcNode.handleMessage_aged`, `Rpc.RpcNode.onRequestTimeout_aged`, … — the parts of the node
  keep the ticks in order.
-/

set_option autoImplicit false

namespace HyperDHT.Routing

/-! ## Properties of all nodes -/

/-- Every node of the table has the property. -/
def AllNodes (P : Node → Prop) (t : Table) : Prop := ∀ i, ∀ n ∈ (t.buckets i).nodes, P n

variable {P : Node → Prop} {t : Table}

lemma AllNodes.update (h : AllNodes P t) {i : Fin idBits} {b : Bucket} {size : ℕ}
    (hb : ∀ n ∈ b.nodes, P n) :
    AllNodes P { t with buckets := Function.update t.buckets i b, size } := by
  intro j n hn
  rcases eq_or_ne j i with rfl | hj
  · simp only [Function.update_self] at hn
    exact hb n hn
  · simp only [Function.update_of_ne hj] at hn
    exact h j n hn

lemma AllNodes.add (h : AllNodes P t) {node : Node} (hnode : P node) :
    AllNodes P (t.add node).1 := by
  unfold Table.add
  split
  · exact h
  · split
    · exact h
    · next i _ =>
      split
      · refine h.update fun n hn => ?_
        unfold Bucket.add at hn
        split at hn
        · exact h i n hn
        · split at hn
          · exact h i n hn
          · rcases List.eq_or_mem_of_mem_insertIdx hn with rfl | hold
            · exact hnode
            · exact h i n hold
      · split <;> exact h

lemma AllNodes.remove (h : AllNodes P t) (id : NodeId) : AllNodes P (t.remove id).1 := by
  unfold Table.remove
  split
  · exact h
  · next i _ =>
    split
    · refine h.update fun n hn => ?_
      unfold Bucket.remove at hn
      split at hn
      · exact h i n (List.mem_of_mem_eraseIdx hn)
      · exact h i n hn
    · exact h

lemma AllNodes.modify (h : AllNodes P t) (id : NodeId) {f : NodeUpdate}
    (hf : ∀ n, P n → P (f.apply n)) : AllNodes P (t.modify id f) := by
  unfold Table.modify
  split
  · exact h
  · next i _ =>
    refine h.update fun n hn => ?_
    unfold Bucket.modify at hn
    split at hn
    · obtain ⟨j, hj⟩ := List.mem_iff_getElem?.1 hn
      rw [List.getElem?_modify] at hj
      obtain ⟨m, hm, rfl⟩ := Option.map_eq_some_iff.1 hj
      have hold := h i m (List.mem_of_getElem? hm)
      split
      · exact hf m hold
      · exact hold
    · exact h i n hn

lemma AllNodes.rebuildWithId (h : AllNodes P t) (newId : NodeId) :
    AllNodes P (t.rebuildWithId newId) := by
  have hfold : ∀ (l : List Node) (t : Table), AllNodes P t → (∀ n ∈ l, P n) →
      AllNodes P (l.foldl (fun t node => (t.add node).1) t) := by
    intro l
    induction l with
    | nil => exact fun t ht _ => ht
    | cons a l ih =>
      intro t ht hl
      exact ih _ (ht.add (hl a List.mem_cons_self)) fun n hn => hl n (List.mem_cons_of_mem a hn)
  refine hfold t.allNodes _ (fun i n hn => by simp at hn) fun n hn => ?_
  obtain ⟨i, hi⟩ := (Table.mem_allNodes t n).1 hn
  exact h i n hi

end HyperDHT.Routing

namespace HyperDHT.Rpc

open Compact Routing RpcSocket

/-! ## Ticks in order -/

/-- The node was last seen no later than last pinged, and that not later than now. -/
structure InOrder (tick : UInt32) (n : Node) : Prop where
  seen_le : n.seen ≤ n.pinged
  pinged_le : n.pinged ≤ tick

/-- The new node of a swap is in order, and the old one was last seen in an earlier tick. -/
structure SwapInOrder (tick : UInt32) (state : SwapState) : Prop where
  newNode : InOrder tick state.newNode
  lastSeen_lt : state.lastSeen < tick

/-- The callbacks of the request, if it belongs to a swap, are in order. -/
def RequestInOrder (tick : UInt32) (r : InflightRequest NodeCallback) : Prop :=
  ∀ state, r.onResponse = some (.swap state) ∨ r.onTimeout = some (.swap state) →
    SwapInOrder tick state

variable {tick : UInt32}

lemma inOrder_pingedAt (n : Node) (h : InOrder tick n) :
    InOrder tick ((RpcNode.pingedAt tick).apply n) :=
  ⟨UInt32.le_trans h.seen_le h.pinged_le, UInt32.le_refl tick⟩

lemma inOrder_seenAt (n : Node) : InOrder tick ((RpcNode.seenAt tick).apply n) :=
  ⟨UInt32.le_refl tick, UInt32.le_refl tick⟩

lemma InOrder.mono {tick' : UInt32} {n : Node} (h : InOrder tick n) (hle : tick ≤ tick') :
    InOrder tick' n :=
  ⟨h.seen_le, UInt32.le_trans h.pinged_le hle⟩

lemma RequestInOrder.mono {tick' : UInt32} {r : InflightRequest NodeCallback}
    (h : RequestInOrder tick r) (hle : tick ≤ tick') : RequestInOrder tick' r := fun state hstate =>
  ⟨(h state hstate).newNode.mono hle, UInt32.lt_of_lt_of_le (h state hstate).lastSeen_lt hle⟩

namespace RpcNode

/-- **The ticks are in order**: those of the nodes of the table, and those of the swaps under
way. -/
structure Aged (s : RpcNode) : Prop where
  table : AllNodes (InOrder s.tick) s.table
  swaps : ∀ r ∈ s.socket.outstanding, RequestInOrder s.tick r

variable {env : Env} {s t : RpcNode}

lemma Aged.congr (h : Aged s) (hsocket : t.socket = s.socket) (htable : t.table = s.table)
    (htick : t.tick = s.tick) : Aged t where
  table := by
    rw [htick, htable]
    exact h.table
  swaps := by
    rw [htick, hsocket]
    exact h.swaps

lemma Aged.of_table (h : Aged s) (htable : AllNodes (InOrder s.tick) t.table)
    (hsocket : t.socket = s.socket) (htick : t.tick = s.tick) : Aged t where
  table := by
    rw [htick]
    exact htable
  swaps := by
    rw [htick, hsocket]
    exact h.swaps

lemma Aged.quiets (h : Aged s) (hwf : WellFormed s.socket) (hquiets : Quiets s.socket t.socket)
    (htable : t.table = s.table) (htick : t.tick = s.tick) : Aged t where
  table := by
    rw [htick, htable]
    exact h.table
  swaps r hr := by
    obtain ⟨b, hb, n, rfl⟩ := hquiets.exists_outstanding hwf hr
    rw [htick]
    exact h.swaps b hb

lemma Aged.request (h : Aged s) (hwf : WellFormed s.socket) {req : Request}
    {timeoutOverrideMs : UInt64} {retries : ℕ} (callback : NodeCallback)
    (hcallback : ∀ state, callback = .swap state → SwapInOrder s.tick state)
    (hsocket : t.socket = (s.socket.requestWith req timeoutOverrideMs retries (some callback)
      (some callback)).1)
    (htable : AllNodes (InOrder s.tick) t.table) (htick : t.tick = s.tick) : Aged t where
  table := by
    rw [htick]
    exact htable
  swaps r hr := by
    rw [htick]
    rw [hsocket] at hr
    have hrequested := requestWith_requested s.socket req timeoutOverrideMs retries (some callback)
      (some callback)
    rcases hrequested.outstanding_cases hwf with
      ⟨-, -, hout, -⟩ | ⟨-, -, b, -, hresponse, htimeout, -, -, hout⟩
    · exact h.swaps r (hout ▸ hr)
    · obtain ⟨c, hc, n, rfl⟩ := hout r hr
      rcases List.mem_cons.1 hc with rfl | hc
      · intro state hstate
        simp only [hresponse, htimeout, or_self, Option.some.injEq] at hstate
        exact hcallback state hstate
      · exact h.swaps c hc

/-- **Starting a swap keeps the order**: the old node was not pinged in this tick, so it was seen in
an earlier one. -/
lemma repingAndSwap_aged (h : Aged s) (hwf : WellFormed s.socket) {newNode oldest : Node}
    (hnew : InOrder s.tick newNode) (hold : InOrder s.tick oldest) (hpinged : oldest.pinged ≠ s.tick) :
    Aged (s.repingAndSwap newNode oldest) := by
  refine h.request hwf (.swap { newNode, oldId := oldest.id, lastSeen := oldest.seen })
    (fun state hstate => ?_) rfl (h.table.modify oldest.id inOrder_pingedAt) rfl
  obtain rfl := NodeCallback.swap.inj hstate
  exact ⟨hnew, UInt32.lt_of_le_of_lt hold.seen_le
    (UInt32.lt_of_le_of_ne hold.pinged_le hpinged)⟩

lemma checkNode_aged (h : Aged s) (hwf : WellFormed s.socket) (node : Node) :
    Aged (s.checkNode node) :=
  h.request hwf (.check { targetId := node.id, lastSeen := node.seen })
    (fun state hstate => by simp at hstate) rfl (h.table.modify node.id inOrder_pingedAt) rfl

lemma tableAdd_aged (hs : Sane s) (h : Aged s) {node : Node} (hnode : InOrder s.tick node) :
    Aged (s.tableAdd node).1 := by
  cases hdisplaced : s.displaced node with
  | none =>
    rcases tableAdd_eq hs.onFull node with ⟨-, heq⟩ | ⟨i, hvictim, heq⟩
    · rw [heq]
      exact h.of_table (h.table.add hnode) rfl rfl
    · have hnone : (s.refused i node).swapVictim i = none := hvictim.symm.trans hdisplaced
      have hhooked : s.hooked i node = (s.refused i node).onBucketFull i node := rfl
      rw [heq, hhooked, onBucketFull_eq, hnone]
      exact h.of_table h.table rfl rfl
  | some oldest =>
    obtain ⟨i, heq⟩ := tableAdd_some hs.onFull hdisplaced
    obtain ⟨-, hpinged, j, hmem⟩ := displaced_spec hdisplaced
    have hrefused : Aged (s.refused i node) := h.of_table h.table rfl rfl
    rw [heq]
    exact repingAndSwap_aged hrefused hs.wellFormed hnode (h.table j oldest hmem) hpinged

lemma doSwap_aged (hs : Sane s) (h : Aged s) {state : SwapState}
    (hstate : SwapInOrder s.tick state) : Aged (s.doSwap state) := by
  have hremove : Evolves s { s with table := (s.table.remove state.oldId).1 } :=
    removeNode_evolves state.oldId rfl rfl ⟨rfl, rfl, rfl, rfl⟩
  have hremoved : Aged { s with table := (s.table.remove state.oldId).1 } :=
    h.of_table (h.table.remove state.oldId) rfl rfl
  exact (tableAdd_aged (hremove.advances.sane hs) hremoved hstate.newNode).congr rfl rfl rfl

lemma observe_aged (env : Env) (hs : Sane s) (h : Aged s) (id : Option NodeId)
    (remote : Ipv4Address) : Aged (s.observe env id remote) := by
  unfold observe
  split
  · exact h
  · split
    · unfold addNodeFromNetwork
      split
      · exact h
      · split
        · exact h.of_table (h.table.modify _ fun n _ => inOrder_seenAt n) rfl rfl
        · exact tableAdd_aged hs h ⟨UInt32.le_refl _, UInt32.le_refl _⟩
    · exact h

lemma hearResponse_aged (env : Env) (hs : Sane s) (h : Aged s) (remote : Ipv4Address)
    (resp : Response) : Aged (s.hearResponse env remote resp) :=
  @observe_aged { s with natSampler := (s.natSampler.add resp.fromAddr remote).1 } env
    ⟨hs.wellFormed, hs.coherent, hs.onFull⟩ (h.congr rfl rfl rfl) resp.id remote

lemma runOnResponse_aged (hs : Sane s) (h : Aged s) {callback : NodeCallback}
    (hcallback : ∀ state, callback = .swap state → SwapInOrder s.tick state) :
    Aged (s.runOnResponse callback) := by
  cases callback with
  | swap state =>
    have hcounted : Aged { s with repinging := s.repinging - 1 } := h.congr rfl rfl rfl
    have hsane : Sane { s with repinging := s.repinging - 1 } :=
      ⟨hs.wellFormed, hs.coherent, hs.onFull⟩
    unfold runOnResponse
    dsimp only
    split
    · exact doSwap_aged hsane hcounted (hcallback state rfl)
    · exact hcounted
  | check state =>
    unfold runOnResponse
    dsimp only
    split
    · exact h.of_table (h.table.remove state.targetId) rfl rfl
    · exact h.congr rfl rfl rfl
  | other => exact h

lemma runOnTimeout_aged (hs : Sane s) (h : Aged s) {callback : NodeCallback}
    (hcallback : ∀ state, callback = .swap state → SwapInOrder s.tick state) :
    Aged (s.runOnTimeout callback) := by
  cases callback with
  | swap state =>
    exact doSwap_aged (s := { s with repinging := s.repinging - 1 })
      ⟨hs.wellFormed, hs.coherent, hs.onFull⟩ (h.congr rfl rfl rfl) (hcallback state rfl)
  | check state => exact h.of_table (h.table.remove state.targetId) rfl rfl
  | other => exact h

lemma resolve_aged (hs : Sane s) (h : Aged s) (tid : UInt16) : Aged (s.resolve tid) := by
  have hquiets := onResponse_quiets hs.wellFormed tid
  have hmatched : Aged { s with socket := (s.socket.onResponse tid).1 } :=
    h.quiets hs.wellFormed hquiets rfl rfl
  have hsane : Sane { s with socket := (s.socket.onResponse tid).1 } :=
    ⟨hquiets.wellFormed hs.wellFormed, hs.coherent, hs.onFull⟩
  unfold resolve
  dsimp only
  split
  · exact hmatched
  · next callback hcompleted =>
    refine runOnResponse_aged hsane hmatched ?_
    rintro state rfl
    obtain ⟨r, hr, hresponse⟩ := Option.bind_eq_some_iff.1 hcompleted
    rcases onResponse_cases hs.wellFormed tid with ⟨-, hnone⟩ | ⟨b, hb, -, hsome⟩
    · simp [hnone] at hr
    · obtain rfl : b = r := by simpa [hsome] using hr
      exact h.swaps b (mem_outstanding.2 (.inl hb)) state (.inl hresponse)

lemma onRequestTimeout_aged (hs : Sane s) (h : Aged s) (ptr : ℕ) :
    Aged (s.onRequestTimeout ptr) := by
  have hquiets := onRequestTimeout_quiets hs.wellFormed ptr
  have hmatched : Aged { s with socket := (s.socket.onRequestTimeout ptr).1 } :=
    h.quiets hs.wellFormed hquiets rfl rfl
  have hsane : Sane { s with socket := (s.socket.onRequestTimeout ptr).1 } :=
    ⟨hquiets.wellFormed hs.wellFormed, hs.coherent, hs.onFull⟩
  unfold onRequestTimeout
  dsimp only
  split
  · exact hmatched
  · next callback hcompleted =>
    refine runOnTimeout_aged hsane hmatched ?_
    rintro state rfl
    obtain ⟨r, hr, htimeout⟩ := Option.bind_eq_some_iff.1 hcompleted
    rcases onRequestTimeout_cases hs.wellFormed ptr with
      ⟨-, hnone⟩ | ⟨b, hb, -, ⟨-, hretry⟩ | ⟨-, hgive⟩⟩
    · simp [hnone] at hr
    · simp [hretry] at hr
    · obtain rfl : b = r := by simpa [hgive] using hr
      exact h.swaps b (mem_outstanding.2 (.inl hb)) state (.inr htimeout)

lemma handleMessage_aged (env : Env) (hs : Sane s) (h : Aged s) (remote : Ipv4Address)
    (msg : Message) : Aged (s.handleMessage env remote msg) := by
  unfold handleMessage
  split
  · exact h
  · cases msg with
    | request id => exact observe_aged env hs h id remote
    | response resp =>
      exact resolve_aged ((hearResponse_evolves env s remote resp).advances.sane hs)
        (hearResponse_aged env hs h remote resp) resp.tid
    | other => exact h

lemma Probed.aged (hprobed : Probed s t) (h : Aged s) : Aged t := by
  refine h.of_table ?_ hprobed.socket hprobed.tick
  rcases hprobed.table with hsame | ⟨id, hrebuilt⟩
  · rw [hsame]
    exact h.table
  · rw [hrebuilt]
    exact h.table.rebuildWithId id

end RpcNode

end HyperDHT.Rpc
