import HyperDHT.Handlers.DownHint
import HyperDHT.Rpc.Eviction

/-!
# The budgets of pings

`reping_and_swap` and `check_node` count the pings they start in `repinging_` and `checks_`, and the
callbacks of the pings count them off. The counters are incremented before `request`, which may
refuse the ping without running a callback; and a ping that is cancelled runs none either. So the
counters never fall below the number of outstanding pings, and they are exact in exactly the runs in
which no ping is refused or cancelled.

## Main definitions

* `Rpc.RpcNode.countPings` — the outstanding pings of a kind.
* `Rpc.RpcNode.BudgetsExact` — the counters count what is outstanding.
* `Rpc.RpcNode.Drift` — what a part of the code does to the difference.
* `Handlers.PingsAdmitted` — the condition on a step.

## Main results

* `Handlers.step_drift` — what one step does.
* `Handlers.budgetsExact_iff_pingsAdmitted` — the counters are exact in every open state of exactly
  the runs whose steps meet the condition.
-/

set_option autoImplicit false

namespace HyperDHT.Rpc

open scoped List
open Compact Routing RpcSocket

/-! ## Outstanding pings -/

/-- The callback of a ping of `reping_and_swap`. -/
def NodeCallback.isSwap : NodeCallback → Bool
  | .swap _ => true
  | _ => false

/-- The callback of a ping of `check_node`. -/
def NodeCallback.isCheck : NodeCallback → Bool
  | .check _ => true
  | _ => false

/-- The request is a ping of one of the two. -/
def InflightRequest.isPing (r : InflightRequest NodeCallback) : Bool :=
  r.onResponse.any fun callback => callback.isSwap || callback.isCheck

/-- Both callbacks of a request are of one kind and share their state. -/
def Paired (s : RpcSocket NodeCallback) : Prop :=
  ∀ r ∈ s.outstanding, r.onTimeout = r.onResponse

/-- The number of callbacks of a kind. -/
def countCallbacks (kind : NodeCallback → Bool) (l : List (Option NodeCallback)) : ℕ :=
  l.countP fun callback => callback.any kind

namespace RpcNode

/-- The number of outstanding pings of a kind. -/
def countPings (kind : NodeCallback → Bool) (s : RpcNode) : ℕ :=
  countCallbacks kind (s.socket.outstanding.map (·.onResponse))

/-- **The counters count what is outstanding**; so no more than three swaps are under way, and with
nothing outstanding both budgets are free again. -/
structure BudgetsExact (s : RpcNode) : Prop where
  repinging_eq : s.repinging = s.countPings NodeCallback.isSwap
  checks_eq : s.checks = s.countPings NodeCallback.isCheck
  repinging_le : s.repinging ≤ maxRepinging
  idle : s.socket.outstanding = [] → s.repinging = 0 ∧ s.checks = 0 ∧
    ¬ s.repinging ≥ maxRepinging ∧ ¬ s.checks ≥ Handlers.maxChecks

/-- The pings that `repinging_` counts and that are not outstanding. -/
def swapExcess (s : RpcNode) : ℤ := s.repinging - s.countPings NodeCallback.isSwap

/-- The pings that `checks_` counts and that are not outstanding. -/
def checkExcess (s : RpcNode) : ℤ := s.checks - s.countPings NodeCallback.isCheck

/-- **What a part of the code does to the budgets**: the counters may only move away upwards from
what is outstanding, and they do not exactly if `p`. -/
structure Drift (s t : RpcNode) (p : Prop) : Prop where
  swaps : s.swapExcess ≤ t.swapExcess
  checks : s.checkExcess ≤ t.checkExcess
  exact_iff : t.swapExcess = s.swapExcess ∧ t.checkExcess = s.checkExcess ↔ p
  repinging_le : s.repinging ≤ maxRepinging → t.repinging ≤ maxRepinging
  closing : t.socket.closing = s.socket.closing
  paired : Paired s.socket → Paired t.socket

variable {env : Env} {s t : RpcNode} {p q : Prop}

lemma Drift.trans {u : RpcNode} (h₁ : Drift s t p) (h₂ : Drift t u q) : Drift s u (p ∧ q) where
  swaps := h₁.swaps.trans h₂.swaps
  checks := h₁.checks.trans h₂.checks
  exact_iff := by
    rw [← h₁.exact_iff, ← h₂.exact_iff]
    have hswaps₁ := h₁.swaps
    have hswaps₂ := h₂.swaps
    have hchecks₁ := h₁.checks
    have hchecks₂ := h₂.checks
    omega
  repinging_le h := h₂.repinging_le (h₁.repinging_le h)
  closing := h₂.closing.trans h₁.closing
  paired h := h₂.paired (h₁.paired h)

lemma Drift.congr (h : Drift s t p) (hpq : p ↔ q) : Drift s t q :=
  ⟨h.swaps, h.checks, h.exact_iff.trans hpq, h.repinging_le, h.closing, h.paired⟩

lemma SameBudget.drift (h : SameBudget s t) : Drift s t True := by
  have hswap : t.swapExcess = s.swapExcess := by
    simp only [swapExcess, countPings, h.socket, h.repinging]
  have hcheck : t.checkExcess = s.checkExcess := by
    simp only [checkExcess, countPings, h.socket, h.checks]
  exact ⟨hswap.ge, hcheck.ge, iff_of_true ⟨hswap, hcheck⟩ trivial,
    fun hle => h.repinging.trans_le hle, congrArg RpcSocket.closing h.socket,
    fun hpaired => h.socket ▸ hpaired⟩

/-! ### Requests that come and go -/

lemma countCallbacks_perm {kind : NodeCallback → Bool} {l l' : List (Option NodeCallback)}
    (h : l ~ l') : countCallbacks kind l = countCallbacks kind l' :=
  h.countP_eq _

lemma countCallbacks_cons (kind : NodeCallback → Bool) (callback : Option NodeCallback)
    (l : List (Option NodeCallback)) :
    countCallbacks kind (callback :: l) =
      countCallbacks kind l + if callback.any kind then 1 else 0 :=
  List.countP_cons

/-- What a callback counts for. -/
def NodeCallback.weight (kind : NodeCallback → Bool) (callback : NodeCallback) : ℤ :=
  if kind callback then 1 else 0

lemma request_drift (h : WellFormed s.socket) {req : Request} {timeoutOverrideMs : UInt64}
    {retries : ℕ} (callback : NodeCallback)
    (hsocket : t.socket = (s.socket.requestWith req timeoutOverrideMs retries (some callback)
      (some callback)).1)
    (hrepinging : t.repinging = s.repinging + NodeCallback.weight NodeCallback.isSwap callback)
    (hchecks : t.checks = s.checks + NodeCallback.weight NodeCallback.isCheck callback)
    (hle : t.repinging ≤ maxRepinging ∨ callback.isSwap = false) :
    Drift s t ((callback.isSwap || callback.isCheck) = true → ¬ s.socket.Refuses) := by
  have hrequested := requestWith_requested s.socket req timeoutOverrideMs retries (some callback)
    (some callback)
  have hnonneg : ∀ kind, 0 ≤ NodeCallback.weight kind callback := fun kind => by
    unfold NodeCallback.weight
    split <;> omega
  have hrepinging_le : s.repinging ≤ maxRepinging → t.repinging ≤ maxRepinging := by
    rcases hle with hle | hother
    · exact fun _ => hle
    · rw [hrepinging, NodeCallback.weight, hother]
      simp
  have hclosing : t.socket.closing = s.socket.closing := by
    rw [hsocket]
    exact hrequested.closing_eq
  have hpaired : Paired s.socket → Paired t.socket := by
    intro hpaired b hb
    rw [hsocket] at hb
    rcases hrequested.outstanding_cases h with
      ⟨-, -, hout, -⟩ | ⟨-, -, r, -, hresponse, htimeout, -, -, hout⟩
    · exact hpaired b (hout ▸ hb)
    · obtain ⟨c, hc, n, rfl⟩ := hout b hb
      rcases List.mem_cons.1 hc with rfl | hc
      · exact htimeout.trans hresponse.symm
      · exact hpaired c hc
  rcases hrequested.map_outstanding (·.onResponse) (fun _ => rfl) h with
    ⟨hrefuses, hout⟩ | ⟨hadmits, r, hresponse, hout⟩
  · -- refused: what was counted is not outstanding
    have hcount : ∀ kind, t.countPings kind = s.countPings kind := fun kind => by
      rw [countPings, hsocket, hout, countPings]
    have hswap : t.swapExcess = s.swapExcess + NodeCallback.weight NodeCallback.isSwap callback := by
      rw [swapExcess, swapExcess, hcount, hrepinging]
      omega
    have hcheck : t.checkExcess =
        s.checkExcess + NodeCallback.weight NodeCallback.isCheck callback := by
      rw [checkExcess, checkExcess, hcount, hchecks]
      omega
    refine ⟨by have := hnonneg NodeCallback.isSwap; omega,
      by have := hnonneg NodeCallback.isCheck; omega, ?_, hrepinging_le, hclosing, hpaired⟩
    rw [hswap, hcheck]
    cases callback <;> simp [NodeCallback.weight, NodeCallback.isSwap, NodeCallback.isCheck, hrefuses]
  · have hcount : ∀ kind, (t.countPings kind : ℤ) =
        s.countPings kind + NodeCallback.weight kind callback := fun kind => by
      rw [countPings, hsocket, countCallbacks_perm hout, countCallbacks_cons, hresponse, countPings,
        NodeCallback.weight]
      simp
    have hswap : t.swapExcess = s.swapExcess := by
      rw [swapExcess, swapExcess, hcount, hrepinging]
      omega
    have hcheck : t.checkExcess = s.checkExcess := by
      rw [checkExcess, checkExcess, hcount, hchecks]
      omega
    exact ⟨hswap.ge, hcheck.ge, iff_of_true ⟨hswap, hcheck⟩ fun _ => hadmits, hrepinging_le,
      hclosing, hpaired⟩

lemma countPings_resolved {r : InflightRequest NodeCallback}
    (hout : r :: t.socket.outstanding ~ s.socket.outstanding) (kind : NodeCallback → Bool) :
    s.countPings kind = t.countPings kind + if r.onResponse.any kind then 1 else 0 := by
  rw [countPings, countCallbacks_perm (hout.symm.map _), List.map_cons, countCallbacks_cons,
    countPings]

lemma dropped_drift {r : InflightRequest NodeCallback}
    (hout : r :: t.socket.outstanding ~ s.socket.outstanding)
    (hclosing : t.socket.closing = s.socket.closing) (hrepinging : t.repinging = s.repinging)
    (hchecks : t.checks = s.checks) : Drift s t (r.isPing = false) := by
  have hswap := countPings_resolved hout NodeCallback.isSwap
  have hcheck := countPings_resolved hout NodeCallback.isCheck
  have hswapped : t.swapExcess =
      s.swapExcess + if r.onResponse.any NodeCallback.isSwap then 1 else 0 := by
    rw [swapExcess, swapExcess, hswap, hrepinging]
    split <;> push_cast <;> omega
  have hchecked : t.checkExcess =
      s.checkExcess + if r.onResponse.any NodeCallback.isCheck then 1 else 0 := by
    rw [checkExcess, checkExcess, hcheck, hchecks]
    split <;> push_cast <;> omega
  refine ⟨?_, ?_, ?_, fun hle => hrepinging.trans_le hle, hclosing,
    fun hpaired b hb => hpaired b (hout.subset (List.mem_cons_of_mem r hb))⟩
  · rw [hswapped]
    split <;> omega
  · rw [hchecked]
    split <;> omega
  · rw [hswapped, hchecked, InflightRequest.isPing]
    cases r.onResponse with
    | none => simp
    | some callback =>
      cases callback <;> simp [NodeCallback.isSwap, NodeCallback.isCheck]

lemma completed_drift {r : InflightRequest NodeCallback} {callback : NodeCallback}
    (hout : r :: t.socket.outstanding ~ s.socket.outstanding)
    (hclosing : t.socket.closing = s.socket.closing) (hcallback : r.onResponse = some callback)
    (hrepinging : t.repinging = s.repinging - NodeCallback.weight NodeCallback.isSwap callback)
    (hchecks : t.checks = s.checks - NodeCallback.weight NodeCallback.isCheck callback) :
    Drift s t True := by
  have hcount : ∀ kind, (s.countPings kind : ℤ) =
      t.countPings kind + NodeCallback.weight kind callback := fun kind => by
    rw [countPings_resolved hout kind, hcallback, NodeCallback.weight]
    simp
  have hswap : t.swapExcess = s.swapExcess := by
    rw [swapExcess, swapExcess, hcount, hrepinging]
    omega
  have hcheck : t.checkExcess = s.checkExcess := by
    rw [checkExcess, checkExcess, hcount, hchecks]
    omega
  refine ⟨hswap.ge, hcheck.ge, iff_of_true ⟨hswap, hcheck⟩ trivial, fun hle => ?_, hclosing,
    fun hpaired b hb => hpaired b (hout.subset (List.mem_cons_of_mem r hb))⟩
  rw [hrepinging, NodeCallback.weight]
  split <;> omega

/-! ## The parts of the node -/

/-- A ping that adding the node starts is not refused. -/
def AddAdmitted (s : RpcNode) (node : Node) : Prop :=
  (s.displaced node).isSome = true → ¬ s.socket.Refuses

/-- A ping that carrying out the swap starts is not refused. -/
def SwapAdmitted (s : RpcNode) (state : SwapState) : Prop :=
  ({ s with table := (s.table.remove state.oldId).1 } : RpcNode).AddAdmitted state.newNode

/-- A ping that observing the sender starts is not refused. -/
def ObserveAdmitted (env : Env) (s : RpcNode) (id : Option NodeId) (remote : Ipv4Address) : Prop :=
  ∀ known, id = some known → known = computePeerId env.blake2b remote →
    env.filterAccept known remote = true → s.table.has known = false →
      s.AddAdmitted {
        id := known, host := remote.hostString, port := remote.port
        added := s.tick, pinged := s.tick, seen := s.tick }

/-- A ping that matching the response starts is not refused. -/
def ResolveAdmitted (s : RpcNode) (tid : UInt16) : Prop :=
  ∀ state, (s.socket.onResponse tid).2.bind (·.onResponse) = some (.swap state) →
    s.stale state.oldId state.lastSeen = true →
      ({ s with
        socket := (s.socket.onResponse tid).1
        repinging := s.repinging - 1 } : RpcNode).SwapAdmitted state

/-- A ping that the timeout of a request starts is not refused. -/
def TimeoutAdmitted (s : RpcNode) (ptr : ℕ) : Prop :=
  ∀ state, (s.socket.onRequestTimeout ptr).2.bind (·.onTimeout) = some (.swap state) →
    ({ s with
      socket := (s.socket.onRequestTimeout ptr).1
      repinging := s.repinging - 1 } : RpcNode).SwapAdmitted state

lemma repingAndSwap_drift (h : WellFormed s.socket) (hbudget : s.repinging < maxRepinging)
    (newNode oldest : Node) : Drift s (s.repingAndSwap newNode oldest) (¬ s.socket.Refuses) := by
  have hdrift : Drift s (s.repingAndSwap newNode oldest) _ :=
    request_drift h (.swap { newNode, oldId := oldest.id, lastSeen := oldest.seen }) rfl
      rfl (Int.add_zero _).symm (.inl (Int.add_one_le_iff.2 hbudget))
  exact hdrift.congr (by simp [NodeCallback.isSwap])

lemma checkNode_drift (h : WellFormed s.socket) (node : Node) :
    Drift s (s.checkNode node) (¬ s.socket.Refuses) := by
  have hdrift : Drift s (s.checkNode node) _ :=
    request_drift h (.check { targetId := node.id, lastSeen := node.seen }) rfl
      (Int.add_zero _).symm rfl (.inr rfl)
  exact hdrift.congr (by simp [NodeCallback.isCheck])

lemma tableAdd_drift (h : Sane s) (node : Node) :
    Drift s (s.tableAdd node).1 (s.AddAdmitted node) := by
  cases hdisplaced : s.displaced node with
  | none =>
    refine (tableAdd_none h.onFull hdisplaced).drift.congr (iff_of_true trivial ?_)
    simp [AddAdmitted, hdisplaced]
  | some oldest =>
    obtain ⟨i, heq⟩ := tableAdd_some h.onFull hdisplaced
    have hsame : SameBudget s (s.refused i node) := ⟨rfl, rfl, rfl⟩
    have hreping : Drift (s.refused i node) ((s.refused i node).repingAndSwap node oldest)
        (¬ s.socket.Refuses) :=
      repingAndSwap_drift (s := s.refused i node) h.wellFormed (displaced_spec hdisplaced).1 node
        oldest
    rw [heq]
    refine (hsame.drift.trans hreping).congr ?_
    simp [AddAdmitted, hdisplaced]

lemma remove_sane (h : Sane s) (id : NodeId) :
    Sane ({ s with table := (s.table.remove id).1 } : RpcNode) := by
  have hremove : Evolves s { s with table := (s.table.remove id).1 } :=
    removeNode_evolves id rfl rfl ⟨rfl, rfl, rfl, rfl⟩
  exact hremove.advances.sane h

lemma doSwap_drift (h : Sane s) (state : SwapState) :
    Drift s (s.doSwap state) (s.SwapAdmitted state) := by
  have hremoved : SameBudget s { s with table := (s.table.remove state.oldId).1 } := ⟨rfl, rfl, rfl⟩
  have hadded := tableAdd_drift (remove_sane h state.oldId) state.newNode
  have hlogged : SameBudget
      (({ s with table := (s.table.remove state.oldId).1 } : RpcNode).tableAdd state.newNode).1
      (s.doSwap state) := ⟨rfl, rfl, rfl⟩
  exact ((hremoved.drift.trans hadded).trans hlogged.drift).congr (by simp [SwapAdmitted])

lemma observe_drift (h : Sane s) (id : Option NodeId) (remote : Ipv4Address) :
    Drift s (s.observe env id remote) (ObserveAdmitted env s id remote) := by
  have hquiet : SameBudget s s := ⟨rfl, rfl, rfl⟩
  unfold observe
  split
  · exact hquiet.drift.congr (by simp [ObserveAdmitted])
  · next known =>
    split
    · next hvalid =>
      unfold addNodeFromNetwork
      split
      · next hfilter =>
        refine hquiet.drift.congr (iff_of_true trivial ?_)
        rintro _ ⟨⟩ - haccept
        simp [haccept] at hfilter
      · next hfilter =>
        have haccept : env.filterAccept known remote = true := by simpa using hfilter
        split
        · next hhas =>
          have hseen : SameBudget s { s with table := s.table.modify known (seenAt s.tick) } :=
            ⟨rfl, rfl, rfl⟩
          refine hseen.drift.congr (iff_of_true trivial ?_)
          rintro _ ⟨⟩ - - hnew
          simp [hhas] at hnew
        · next hhas =>
          have hnew : s.table.has known = false := by simpa using hhas
          refine (tableAdd_drift h _).congr ⟨fun hadd => ?_, fun hall => ?_⟩
          · rintro _ ⟨⟩ - - -
            exact hadd
          · exact hall known rfl hvalid haccept hnew
    · next hinvalid =>
      refine hquiet.drift.congr (iff_of_true trivial ?_)
      rintro _ ⟨⟩ hvalid
      exact absurd hvalid hinvalid

lemma countedOff_sane {socket : RpcSocket NodeCallback} (h : Sane s) (hwf : WellFormed socket)
    (n m : ℤ) : Sane ({ s with socket := socket, repinging := n, checks := m } : RpcNode) :=
  ⟨hwf, h.coherent, h.onFull⟩

lemma resolve_drift (h : Sane s) (tid : UInt16) :
    Drift s (s.resolve tid) (s.ResolveAdmitted tid) := by
  have hwf := (onResponse_quiets h.wellFormed tid).wellFormed h.wellFormed
  have hstep := s.resolve_eq tid
  rcases onResponse_cases h.wellFormed tid with ⟨-, hnone⟩ | ⟨r, hr, -, hsome⟩
  · have hsame : SameBudget s s := ⟨rfl, rfl, rfl⟩
    rw [hstep, hnone]
    exact hsame.drift.congr (by simp [ResolveAdmitted, hnone])
  · have hout : r :: (s.socket.onResponse tid).1.outstanding ~ s.socket.outstanding := by
      rw [hsome]
      exact destroyRequest_outstanding h.wellFormed hr
    have hclosing : (s.socket.onResponse tid).1.closing = s.socket.closing := by
      rw [hsome]
      exact destroyRequest_closing _ r
    have hcompleted : (s.socket.onResponse tid).2 = some r := by rw [hsome]
    rw [hstep, hcompleted, Option.bind_some]
    unfold ResolveAdmitted
    rw [hcompleted, Option.bind_some]
    cases hcallback : r.onResponse with
    | none =>
      have hdropped : Drift s { s with socket := (s.socket.onResponse tid).1 } _ :=
        dropped_drift hout hclosing rfl rfl
      exact hdropped.congr (by simp [InflightRequest.isPing, hcallback])
    | some callback =>
      cases callback with
      | swap state =>
        have hoff : Drift s { s with
            socket := (s.socket.onResponse tid).1, repinging := s.repinging - 1 } True :=
          completed_drift hout hclosing hcallback rfl (Int.sub_zero _).symm
        simp only [runOnResponse, Option.some.injEq, NodeCallback.swap.injEq, forall_eq']
        split
        · next hstale =>
          refine (hoff.trans (doSwap_drift (countedOff_sane h hwf _ _) state)).congr ?_
          rw [true_and]
          exact ⟨fun hadmitted _ => hadmitted, fun hall => hall hstale⟩
        · next hseen =>
          exact hoff.congr (iff_of_true trivial fun hstale => absurd hstale hseen)
      | check state =>
        have hoff : Drift s { s with
            socket := (s.socket.onResponse tid).1, checks := s.checks - 1 } True :=
          completed_drift hout hclosing hcallback (Int.sub_zero _).symm rfl
        have hremoved : SameBudget
            { s with socket := (s.socket.onResponse tid).1, checks := s.checks - 1 }
            { s with
              socket := (s.socket.onResponse tid).1, checks := s.checks - 1
              table := (s.table.remove state.targetId).1 } := ⟨rfl, rfl, rfl⟩
        simp only [runOnResponse]
        split
        · exact (hoff.trans hremoved.drift).congr (by simp)
        · exact hoff.congr (by simp)
      | other =>
        have hoff : Drift s { s with socket := (s.socket.onResponse tid).1 } True :=
          completed_drift hout hclosing hcallback (Int.sub_zero _).symm (Int.sub_zero _).symm
        exact hoff.congr (by simp)

lemma transmitted_drift
    (hout : t.socket.outstanding.map (fun r => (r.onResponse, r.onTimeout)) =
      s.socket.outstanding.map fun r => (r.onResponse, r.onTimeout))
    (hclosing : t.socket.closing = s.socket.closing) (hrepinging : t.repinging = s.repinging)
    (hchecks : t.checks = s.checks) : Drift s t True := by
  have hresponses : t.socket.outstanding.map (·.onResponse) =
      s.socket.outstanding.map (·.onResponse) := by
    have hfirst := congrArg (List.map Prod.fst) hout
    rw [List.map_map, List.map_map] at hfirst
    exact hfirst
  have hswap : t.swapExcess = s.swapExcess := by
    rw [swapExcess, swapExcess, countPings, countPings, hresponses, hrepinging]
  have hcheck : t.checkExcess = s.checkExcess := by
    rw [checkExcess, checkExcess, countPings, countPings, hresponses, hchecks]
  refine ⟨hswap.ge, hcheck.ge, iff_of_true ⟨hswap, hcheck⟩ trivial,
    fun hle => hrepinging.trans_le hle, hclosing, fun hpaired b hb => ?_⟩
  have hmem : (b.onResponse, b.onTimeout) ∈
      t.socket.outstanding.map fun r => (r.onResponse, r.onTimeout) :=
    List.mem_map_of_mem hb
  rw [hout] at hmem
  obtain ⟨c, hc, heq⟩ := List.mem_map.1 hmem
  obtain ⟨hresponse, htimeout⟩ := Prod.mk.inj heq
  rw [← hresponse, ← htimeout]
  exact hpaired c hc

lemma onRequestTimeout_drift (h : Sane s) (hpaired : Paired s.socket) (ptr : ℕ) :
    Drift s (s.onRequestTimeout ptr) (s.TimeoutAdmitted ptr) := by
  have hwf := (onRequestTimeout_quiets h.wellFormed ptr).wellFormed h.wellFormed
  have hstep := s.onRequestTimeout_eq ptr
  rcases onRequestTimeout_cases h.wellFormed ptr with
    ⟨-, hnone⟩ | ⟨r, hr, -, ⟨-, hretry⟩ | ⟨-, hgive⟩⟩
  · have hsame : SameBudget s s := ⟨rfl, rfl, rfl⟩
    rw [hstep, hnone]
    exact hsame.drift.congr (by simp [TimeoutAdmitted, hnone])
  · have hsent : Drift s { s with socket := s.socket.sendNow r } True :=
      transmitted_drift (sendNow_map_outstanding _ (fun _ => rfl) h.wellFormed hr)
        (sendNow_closing _ r) rfl rfl
    rw [hstep, hretry]
    exact hsent.congr (by simp [TimeoutAdmitted, hretry])
  · have hout : r :: (s.socket.onRequestTimeout ptr).1.outstanding ~ s.socket.outstanding := by
      rw [hgive]
      exact destroyRequest_outstanding h.wellFormed hr
    have hclosing : (s.socket.onRequestTimeout ptr).1.closing = s.socket.closing := by
      rw [hgive]
      exact destroyRequest_closing _ r
    have hcompleted : (s.socket.onRequestTimeout ptr).2 = some r := by rw [hgive]
    have hsame : r.onTimeout = r.onResponse := hpaired r (mem_outstanding.2 (.inl hr))
    rw [hstep, hcompleted, Option.bind_some, hsame]
    unfold TimeoutAdmitted
    rw [hcompleted, Option.bind_some, hsame]
    cases hcallback : r.onResponse with
    | none =>
      have hdropped : Drift s { s with socket := (s.socket.onRequestTimeout ptr).1 } _ :=
        dropped_drift hout hclosing rfl rfl
      exact hdropped.congr (by simp [InflightRequest.isPing, hcallback])
    | some callback =>
      cases callback with
      | swap state =>
        have hoff : Drift s { s with
            socket := (s.socket.onRequestTimeout ptr).1, repinging := s.repinging - 1 } True :=
          completed_drift hout hclosing hcallback rfl (Int.sub_zero _).symm
        simp only [runOnTimeout, Option.some.injEq, NodeCallback.swap.injEq, forall_eq']
        exact (hoff.trans (doSwap_drift (countedOff_sane h hwf _ _) state)).congr (iff_of_eq (true_and _))
      | check state =>
        have hoff : Drift s { s with
            socket := (s.socket.onRequestTimeout ptr).1, checks := s.checks - 1 } True :=
          completed_drift hout hclosing hcallback (Int.sub_zero _).symm rfl
        have hremoved : SameBudget
            { s with socket := (s.socket.onRequestTimeout ptr).1, checks := s.checks - 1 }
            (({ s with socket := (s.socket.onRequestTimeout ptr).1 } : RpcNode).runOnTimeout
              (.check state)) := ⟨rfl, rfl, rfl⟩
        exact (hoff.trans hremoved.drift).congr (by simp)
      | other =>
        have hoff : Drift s { s with socket := (s.socket.onRequestTimeout ptr).1 } True :=
          completed_drift hout hclosing hcallback (Int.sub_zero _).symm (Int.sub_zero _).symm
        exact hoff.congr (by simp)

/-- A cancelled request is not a ping. -/
def CancelAdmitted (s : RpcNode) (tid : UInt16) : Prop :=
  ∀ r, s.socket.findInflight tid = some r → r.isPing = false

lemma cancel_drift (h : Sane s) (tid : UInt16) :
    Drift s { s with socket := (s.socket.cancelRequest tid).1 } (s.CancelAdmitted tid) := by
  unfold CancelAdmitted
  cases hfind : s.socket.findInflight tid with
  | none =>
    have hsame : SameBudget s { s with socket := (s.socket.cancelRequest tid).1 } :=
      ⟨by simp [cancelRequest, hfind], rfl, rfl⟩
    exact hsame.drift.congr (by simp)
  | some r =>
    have hr := (mem_of_findInflight hfind).1
    have hcancel : (s.socket.cancelRequest tid).1 =
        { s.socket.destroyRequest r with log := s.socket.log ++ [.cancelled r.ptr] } := by
      simp [cancelRequest, hfind]
    have hdropped : Drift s { s with socket := (s.socket.cancelRequest tid).1 } _ :=
      dropped_drift (r := r) (by rw [hcancel]; exact destroyRequest_outstanding h.wellFormed hr)
        (by rw [hcancel]; exact destroyRequest_closing _ r) rfl rfl
    exact hdropped.congr (by simp)

lemma drainTick_drift (h : Sane s) : Drift s { s with socket := s.socket.onDrainTick } True :=
  transmitted_drift (onDrainTick_map_outstanding _ (fun _ => rfl) h.wellFormed)
    (onDrainTick_closing _) rfl rfl

lemma hearResponse_drift (env : Env) (h : Sane s) (remote : Ipv4Address) (resp : Response) :
    Drift s (s.hearResponse env remote resp)
      (ObserveAdmitted env { s with
        natSampler := (s.natSampler.add resp.fromAddr remote).1 } resp.id remote) := by
  have hsampled : SameBudget s { s with natSampler := (s.natSampler.add resp.fromAddr remote).1 } :=
    ⟨rfl, rfl, rfl⟩
  have hsane : Sane { s with natSampler := (s.natSampler.add resp.fromAddr remote).1 } :=
    ⟨h.wellFormed, h.coherent, h.onFull⟩
  exact (hsampled.drift.trans (observe_drift hsane resp.id remote)).congr (iff_of_eq (true_and _))

end RpcNode

end HyperDHT.Rpc

namespace HyperDHT.Handlers

open Compact Routing Rpc RpcSocket

variable {env : Env} {s : HintedNode}

/-! ## Every step -/

/-- The report makes the handler check a node. -/
def HintedNode.startsCheck (env : Env) (s : HintedNode) (now : UInt64) (source : Ipv4Address)
    (value : Option (List UInt8)) : Prop :=
  ∃ bytes n, value = some bytes ∧ 6 ≤ bytes.length ∧ s.rateLimited now source = false ∧
    s.node.checks < maxChecks ∧ s.node.table.get (env.blake2b (bytes.take 6)) = some n ∧
      (n.pinged < s.node.tick ∨ n.downHints = 0)

/-- **No ping is lost by the step**: of an open socket, no ping that the step starts is refused,
and it does not cancel a ping. -/
def PingsAdmitted (env : Env) (s : HintedNode) (i : HintedNode.Input) : Prop :=
  s.node.socket.closing = false →
    match i with
    | .node (.recv fromServer remote (.request id)) =>
      (s.node.received env fromServer remote).ObserveAdmitted env id remote
    | .node (.recv fromServer remote (.response resp)) =>
      let received := s.node.received env fromServer remote
      ({ received with natSampler := (received.natSampler.add resp.fromAddr remote).1 } : RpcNode
        ).ObserveAdmitted env resp.id remote ∧
      (received.hearResponse env remote resp).ResolveAdmitted resp.tid
    | .node (.timeout ptr) => s.node.TimeoutAdmitted ptr
    | .node (.cancel tid) => s.node.CancelAdmitted tid
    | .node (.checkNode _) => ¬ s.node.socket.Refuses
    | .node (.addNode addr) => s.node.AddAdmitted {
        id := computePeerId env.blake2b addr, host := addr.hostString, port := addr.port
        added := s.node.tick }
    | .downHint now source value => s.startsCheck env now source value → ¬ s.node.socket.Refuses
    | _ => True

lemma handleDownHint_startsCheck (env : Env) (s : HintedNode) (now : UInt64)
    (source : Ipv4Address) (value : Option (List UInt8)) :
    (¬ s.startsCheck env now source value ∧
      (s.handleDownHint env now source value).node = s.node) ∨
    (s.startsCheck env now source value ∧ ∃ target n,
      (s.handleDownHint env now source value).node =
        ({ s.node with table := s.node.table.modify target HintedNode.hinted } : RpcNode
          ).checkNode n) := by
  unfold HintedNode.handleDownHint HintedNode.startsCheck
  split
  · exact .inl ⟨by simp, rfl⟩
  · next bytes =>
    split
    · next hshort => exact .inl ⟨by rintro ⟨_, n, ⟨⟩, hlong, -⟩; omega, rfl⟩
    · split
      · next hlimited => exact .inl ⟨by rintro ⟨_, n, ⟨⟩, -, hfree, -⟩; simp [hlimited] at hfree, rfl⟩
      · next hlong hfree =>
        have hnode : (s.noteHint now source).node = s.node := rfl
        dsimp only
        rw [hnode]
        split
        · next hbusy => exact .inl ⟨by rintro ⟨_, n, ⟨⟩, -, -, hidle, -⟩; omega, rfl⟩
        · next hidle =>
          unfold HintedNode.checkHinted
          split
          · next hnone => exact .inl ⟨by rintro ⟨_, n, ⟨⟩, -, -, -, hget, -⟩; simp [hnone] at hget, rfl⟩
          · next n hget =>
            split
            · next hdue =>
              exact .inr ⟨⟨bytes, n, rfl, not_lt.1 hlong, by simpa using hfree, not_le.1 hidle, hget,
                hdue⟩, _, _, rfl⟩
            · next hdue =>
              refine .inl ⟨?_, rfl⟩
              rintro ⟨_, m, ⟨⟩, -, -, -, hget', hdue'⟩
              obtain rfl : n = m := Option.some.inj (hget.symm.trans hget')
              exact hdue hdue'

/-! ### Parts that send nothing -/

lemma finishFirewallProbe_sameBudget (env : Env) (node : RpcNode) :
    node.SameBudget (node.finishFirewallProbe env) := by
  rcases RpcNode.finishFirewallProbe_cases env node with ⟨-, heq⟩ | heq | ⟨-, heq⟩ <;> rw [heq]
  · exact ⟨rfl, rfl, rfl⟩
  · exact ⟨rfl, rfl, rfl⟩
  · unfold RpcNode.doPersistentTransition
    split <;> exact ⟨rfl, rfl, rfl⟩

lemma received_sameBudget (env : Env) (node : RpcNode) (fromServer : Bool) (remote : Ipv4Address) :
    node.SameBudget (node.received env fromServer remote) := by
  rcases RpcNode.received_cases env node fromServer remote with heq | heq | heq <;> rw [heq]
  · exact ⟨rfl, rfl, rfl⟩
  · exact ⟨rfl, rfl, rfl⟩
  · have h := finishFirewallProbe_sameBudget env (node.noteReply remote)
    exact ⟨h.socket, h.repinging, h.checks⟩

lemma startFirewallProbe_sameBudget (node : RpcNode) :
    node.SameBudget node.startFirewallProbe := by
  unfold RpcNode.startFirewallProbe
  split <;> exact ⟨rfl, rfl, rfl⟩

lemma checkPersistent_sameBudget (node : RpcNode) : node.SameBudget node.checkPersistent := by
  unfold RpcNode.checkPersistent
  split
  · exact ⟨rfl, rfl, rfl⟩
  · split
    · exact ⟨rfl, rfl, rfl⟩
    · split
      · exact ⟨rfl, rfl, rfl⟩
      · dsimp only
        split
        · have h := startFirewallProbe_sameBudget { node with
            stableTicks := stableTicksMore, lastNatHost := node.natSampler.host }
          exact ⟨h.socket, h.repinging, h.checks⟩
        · exact ⟨rfl, rfl, rfl⟩

lemma backgroundTick_sameBudget (node : RpcNode) : node.SameBudget node.backgroundTick := by
  unfold RpcNode.backgroundTick
  split
  · exact ⟨rfl, rfl, rfl⟩
  · dsimp only
    split
    · exact ⟨rfl, rfl, rfl⟩
    · split
      · have h := checkPersistent_sameBudget { node with
          tick := node.tick + 1
          refreshTicks := if node.refreshTicks - 1 ≤ 0 then refreshTicksMax else node.refreshTicks - 1
          stableTicks := node.stableTicks - 1 }
        exact ⟨h.socket, h.repinging, h.checks⟩
      · exact ⟨rfl, rfl, rfl⟩

lemma recv_drift (h : s.node.Sane) (hopen : s.node.socket.closing = false) (fromServer : Bool)
    (remote : Ipv4Address) (msg : RpcNode.Message) :
    s.node.Drift (s.node.onRecv env fromServer remote msg)
      (PingsAdmitted env s (.node (.recv fromServer remote msg))) := by
  have hsame := received_sameBudget env s.node fromServer remote
  have hsane := (RpcNode.received_probed env s.node fromServer remote).advances.sane h
  have hclosing : (s.node.received env fromServer remote).socket.closing = false :=
    (congrArg RpcSocket.closing hsame.socket).trans hopen
  simp only [RpcNode.onRecv, RpcNode.handleMessage, hclosing, Bool.false_eq_true, if_false,
    PingsAdmitted, hopen, true_imp_iff]
  cases msg with
  | request id =>
    exact (hsame.drift.trans (RpcNode.observe_drift hsane id remote)).congr (iff_of_eq (true_and _))
  | response resp =>
    have hheard := RpcNode.hearResponse_drift env hsane remote resp
    have hmatched := RpcNode.resolve_drift
      ((RpcNode.hearResponse_evolves env _ remote resp).advances.sane hsane) resp.tid
    exact (hsame.drift.trans (hheard.trans hmatched)).congr (iff_of_eq (true_and _))
  | other => exact hsame.drift

/-- **One step of an open socket** lets the counters drift exactly if it loses a ping. -/
theorem step_drift (env : Env) (h : s.node.Sane) (hpaired : Paired s.node.socket)
    (hopen : s.node.socket.closing = false) {i : HintedNode.Input} (hi : i ≠ .node .close) :
    s.node.Drift (s.step env i).node (PingsAdmitted env s i) := by
  have hrest : ∀ {t : RpcNode} {p : Prop}, s.node.Drift t p →
      s.node.Drift t (s.node.socket.closing = false → p) := fun hdrift =>
    hdrift.congr (by simp [hopen])
  cases i with
  | node i =>
    cases i with
    | recv fromServer remote msg => exact recv_drift h hopen fromServer remote msg
    | timeout ptr => exact hrest (RpcNode.onRequestTimeout_drift h hpaired ptr)
    | drainTick => exact hrest (RpcNode.drainTick_drift h)
    | backgroundTick => exact hrest (backgroundTick_sameBudget s.node).drift
    | probeTimeout => exact hrest (finishFirewallProbe_sameBudget env s.node).drift
    | request req timeoutOverrideMs retries =>
      have hsent : s.node.Drift (s.step env (.node (.request req timeoutOverrideMs retries))).node _ :=
        RpcNode.request_drift h.wellFormed .other rfl (Int.add_zero _).symm (Int.add_zero _).symm (.inr rfl)
      exact hrest (hsent.congr (by simp [NodeCallback.isSwap, NodeCallback.isCheck]))
    | cancel tid => exact hrest (RpcNode.cancel_drift h tid)
    | checkNode node => exact hrest (RpcNode.checkNode_drift h.wellFormed node)
    | addNode addr => exact hrest (RpcNode.tableAdd_drift h _)
    | setBootstrapped value =>
      have hsame : s.node.SameBudget (s.step env (.node (.setBootstrapped value))).node :=
        ⟨rfl, rfl, rfl⟩
      exact hrest hsame.drift
    | close => exact absurd rfl hi
  | downHint now source value =>
    rcases handleDownHint_startsCheck env s now source value with
      ⟨hidle, hsame⟩ | ⟨hstarts, target, n, hcheck⟩
    · have hquiet : s.node.SameBudget s.node := ⟨rfl, rfl, rfl⟩
      rw [HintedNode.step, hsame]
      exact hrest (hquiet.drift.congr (by simp [hidle]))
    · have hhint : s.node.SameBudget
          { s.node with table := s.node.table.modify target HintedNode.hinted } := ⟨rfl, rfl, rfl⟩
      have hchecked := RpcNode.checkNode_drift
        (s := { s.node with table := s.node.table.modify target HintedNode.hinted }) h.wellFormed n
      rw [HintedNode.step, hcheck]
      exact hrest ((hhint.drift.trans hchecked).congr (by simp [hstarts]))

/-! ## Runs -/

/-- The node is sane, and while its socket is open the callbacks are paired and no more than three
swaps are counted. -/
structure Budgeted (s : HintedNode) : Prop where
  sane : s.node.Sane
  paired : s.node.socket.closing = false → Paired s.node.socket
  repinging_le : s.node.socket.closing = false → s.node.repinging ≤ maxRepinging

lemma closing_step (env : Env) (i : HintedNode.Input) (h : s.node.Sane)
    (hclosed : s.node.socket.closing = true) : (s.step env i).node.socket.closing = true :=
  ((HintedNode.step_advances env s i).moves h.wellFormed).closing hclosed

lemma close_step (env : Env) (s : HintedNode) :
    (s.step env (.node .close)).node.socket.closing = true := by
  change s.node.socket.close.closing = true
  unfold RpcSocket.close
  split
  · next hclosed => exact hclosed
  · obtain ⟨w, hw⟩ := foldl_destroyRequest s.node.socket.inflight
      { s.node.socket with closing := true }
    rw [destroyAll, hw]

lemma open_before {i : HintedNode.Input} (h : s.node.Sane)
    (hopen : (s.step env i).node.socket.closing = false) :
    s.node.socket.closing = false ∧ i ≠ .node .close := by
  constructor
  · cases hclosing : s.node.socket.closing with
    | false => rfl
    | true => rw [closing_step env i h hclosing] at hopen; exact hopen
  · rintro rfl
    rw [close_step] at hopen
    simp at hopen

lemma budgeted_step (i : HintedNode.Input) (h : Budgeted s) : Budgeted (s.step env i) := by
  have hdrift : (s.step env i).node.socket.closing = false →
      s.node.socket.closing = false ∧ s.node.Drift (s.step env i).node (PingsAdmitted env s i) := by
    intro hopen
    obtain ⟨hbefore, hi⟩ := open_before h.sane hopen
    exact ⟨hbefore, step_drift env h.sane (h.paired hbefore) hbefore hi⟩
  refine ⟨(HintedNode.step_advances env s i).sane h.sane, fun hopen => ?_, fun hopen => ?_⟩
  · obtain ⟨hbefore, hstep⟩ := hdrift hopen
    exact hstep.paired (h.paired hbefore)
  · obtain ⟨hbefore, hstep⟩ := hdrift hopen
    exact hstep.repinging_le (h.repinging_le hbefore)

lemma budgeted_init (localId : NodeId) (firstTid : UInt16) :
    Budgeted (HintedNode.init localId firstTid) where
  sane := RpcNode.sane_init localId firstTid
  paired _ := by simp [Paired, HintedNode.init, RpcNode.init, RpcSocket.init, outstanding]
  repinging_le _ := by simp [HintedNode.init, RpcNode.init, maxRepinging]

lemma budgetsExact_iff (h : s.node.repinging ≤ maxRepinging) :
    s.node.BudgetsExact ↔ s.node.swapExcess = 0 ∧ s.node.checkExcess = 0 := by
  constructor
  · intro hexact
    exact ⟨sub_eq_zero.2 hexact.repinging_eq, sub_eq_zero.2 hexact.checks_eq⟩
  · rintro ⟨hswap, hcheck⟩
    have hrepinging := sub_eq_zero.1 hswap
    have hchecks := sub_eq_zero.1 hcheck
    refine ⟨hrepinging, hchecks, h, fun hidle => ?_⟩
    have hnone : ∀ kind, s.node.countPings kind = 0 := fun kind => by
      simp [RpcNode.countPings, hidle, countCallbacks]
    rw [hrepinging, hchecks, hnone, hnone]
    simp [maxRepinging, maxChecks]

/-- The counters are exact while the socket is open. -/
def BudgetsHold (s : HintedNode) : Prop :=
  s.node.socket.closing = false → s.node.BudgetsExact

lemma budgetsHold_step_iff (h : Budgeted s) (hs : BudgetsHold s) (i : HintedNode.Input) :
    BudgetsHold (s.step env i) ↔ PingsAdmitted env s i := by
  cases hopen : s.node.socket.closing with
  | true =>
    have hclosed := closing_step env i h.sane hopen
    exact iff_of_true (fun hfalse => by simp [hclosed] at hfalse)
      (fun hfalse => by simp [hopen] at hfalse)
  | false =>
    by_cases hi : i = .node .close
    · subst hi
      have hclosed := close_step env s
      exact iff_of_true (fun hfalse => by simp [hclosed] at hfalse) fun _ => trivial
    · have hdrift := step_drift env h.sane (h.paired hopen) hopen hi
      have hle := hdrift.repinging_le (h.repinging_le hopen)
      obtain ⟨hswap, hcheck⟩ := (budgetsExact_iff (h.repinging_le hopen)).1 (hs hopen)
      rw [BudgetsHold, hdrift.closing, budgetsExact_iff hle, ← hdrift.exact_iff, hswap, hcheck]
      simp [hopen]

/-- **Exactly when the budgets do not leak.** In every state of a run in which the socket is open,
`repinging_` is the number of outstanding pings of ping-and-swap and at most three, `checks_` is
that of the outstanding checks, and both are zero when nothing is outstanding — if and only if no
ping that a step of the run starts is refused, and no cancellation hits a ping.

**Proof sketch.** Each part of the code moves the counters away from the outstanding pings by the
pings it loses, and never back. -/
theorem budgetsExact_iff_pingsAdmitted (env : Env) (localId : NodeId) (firstTid : UInt16)
    (is : List HintedNode.Input) :
    Runs.EveryState (HintedNode.step env) BudgetsHold (HintedNode.init localId firstTid) is ↔
      Runs.EveryStep (HintedNode.step env) (PingsAdmitted env) (HintedNode.init localId firstTid)
        is := by
  refine Runs.everyState_iff_everyStep (fun s i h => budgeted_step i h)
    (fun s i h hs => budgetsHold_step_iff h hs i) (budgeted_init localId firstTid) fun _ => ?_
  refine (budgetsExact_iff ?_).2 ⟨rfl, rfl⟩
  simp [HintedNode.init, RpcNode.init, maxRepinging]

/-! ## A full queue -/

def otherRequest : HintedNode.Input := .node (.request { toAddr := hintedPeer } 0 0)

lemma queue_run (env : Env) (n : ℕ) {s : HintedNode} (hopen : s.node.socket.closing = false)
    (hfull : s.node.socket.congestion.isFull = true)
    (hroom : s.node.socket.pending.length + n ≤ maxPending) :
    let t := Runs.run (HintedNode.step env) s (List.replicate n otherRequest)
    t.node.socket.closing = false ∧ t.node.socket.congestion.isFull = true ∧
      t.node.socket.pending.length = s.node.socket.pending.length + n := by
  induction n generalizing s with
  | zero => exact ⟨hopen, hfull, rfl⟩
  | succ n ih =>
    have hqueued : ((s.step env otherRequest).node.socket.closing = false ∧
        (s.step env otherRequest).node.socket.congestion = s.node.socket.congestion) ∧
          (s.step env otherRequest).node.socket.pending.length =
            s.node.socket.pending.length + 1 := by
      have hshort : ¬ s.node.socket.pending.length ≥ maxPending := by omega
      simp [HintedNode.step, otherRequest, RpcNode.step, requestWith, hopen, allocTid, submit, hfull,
        hshort]
    obtain ⟨⟨hopen', hcongestion⟩, hlength⟩ := hqueued
    have hrest := ih hopen' (hcongestion ▸ hfull) (by omega)
    rw [List.replicate_succ, Runs.run_cons]
    exact ⟨hrest.1, hrest.2.1, by rw [hrest.2.2, hlength]; omega⟩

def fullWindow : List HintedNode.Input :=
  .node (.recv false hintedPeer (.request (some hintedEntry.id))) :: List.replicate 80 otherRequest

/-- **A refused ping leaks a slot**: 640 more requests fill the queue, and the check of a node that
follows is counted and refused. -/
theorem not_budgetsExact_of_crowdedQueue :
    ¬ Runs.EveryState (HintedNode.step RpcNode.crowdedEnv) BudgetsHold
      (HintedNode.init NodeId.zero 1)
      ((fullWindow ++ List.replicate 640 otherRequest) ++ [.node (.checkNode hintedEntry)]) := by
  intro h
  set full := Runs.run (HintedNode.step RpcNode.crowdedEnv) (HintedNode.init NodeId.zero 1)
    fullWindow with hfull
  have hwindow : full.node.socket.closing = false ∧ full.node.socket.congestion.isFull = true ∧
      full.node.socket.pending.length = 0 := by
    rw [hfull]
    decide +kernel
  obtain ⟨hopen, hcongested, hlength⟩ :=
    queue_run RpcNode.crowdedEnv 640 hwindow.1 hwindow.2.1 (by rw [hwindow.2.2]; decide)
  have hsane := (HintedNode.sane_logged_run RpcNode.crowdedEnv NodeId.zero 1
    (fullWindow ++ List.replicate 640 otherRequest)).1
  have hbefore := h.of_append.run
  have hafter := h.run
  rw [Runs.run_append, Runs.run_cons, Runs.run_nil] at hafter
  rw [Runs.run_append, ← hfull] at hsane hbefore hafter
  rw [hwindow.2.2] at hlength
  generalize Runs.run (HintedNode.step RpcNode.crowdedEnv) full (List.replicate 640 otherRequest) = s
    at *
  -- the check is refused, so the counters cannot be exact both before and after it
  have hrefuses : s.node.socket.Refuses := .inr ⟨hcongested, by rw [hlength]; decide⟩
  have hdrift := RpcNode.checkNode_drift hsane.wellFormed hintedEntry
  have hexact := hbefore hopen
  have hexact' := hafter (hdrift.closing.trans hopen)
  obtain ⟨hswap, hcheck⟩ := (budgetsExact_iff hexact.repinging_le).1 hexact
  obtain ⟨hswap', hcheck'⟩ := (budgetsExact_iff hexact'.repinging_le).1 hexact'
  exact hdrift.exact_iff.1 ⟨hswap'.trans hswap.symm, hcheck'.trans hcheck.symm⟩ hrefuses

end HyperDHT.Handlers
