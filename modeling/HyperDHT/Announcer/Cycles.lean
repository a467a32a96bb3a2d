import HyperDHT.Announcer.Queries
import HyperDHT.Lib.Runs
import HyperDHT.Rpc.Swap

/-!
# One cycle at a time

While an announcer is not stopped, at most one of its queries may have announcements made, and the
announcer points to it. The network coming back breaks this: `notify_online` lets go of the query and
starts another one, but visits that are in flight hold on to the first, which goes on reporting.

## Main definitions

* `Announcer.CanCommit` — a query that may still have an announcement made.
* `Announcer.OneCycle` — there is at most one such query, and the announcer says which.
* `Announcer.Superseded` — a query from before the network came back is not heard any more.
* `Announcer.Interrupts` — the network comes back while a cycle is under way.

## Main results

* `Announcer.canCommit_iff` — those queries are the ones that have not called `on_done_`.
* `Announcer.oneCycle_iff` — there is one cycle at a time in exactly the runs in which the network
  never comes back while a cycle is under way.
-/

set_option autoImplicit false

namespace HyperDHT.Announcer

open Compact Handlers Query Routing Rpc Ops

variable {c : Config} {net : Net} {s : Announcer}

/-! ## Runs -/

def CycleInput : Type := { i : Input // i.isStop = false }

/-- The announcer after such an input. -/
def cycleStep (c : Config) (s : Announcer) (i : CycleInput) : Announcer := s.step c i.1

/-- The query that an input is about. -/
def Input.query? : Input → Option ℕ
  | .response _ number _ _ | .timeout _ number _ => some number
  | _ => none

/-- A query that may still have an announcement made: there is a response that it commits to. -/
def CanCommit (c : Config) (s : Announcer) (number : ℕ) : Prop :=
  ∃ net k resp, (s.step c (.response net number k resp)).announcing ≠ s.announcing

/-- **One cycle**: the query that may still have announcements made is the one that the announcer
points to, and it does so while there is one. -/
structure OneCycle (c : Config) (s : Announcer) : Prop where
  current : ∀ number, s.CanCommit c number →
    s.updating = true ∧ s.currentQuery = some number
  updating : s.updating = true → ∃ number, s.currentQuery = some number ∧ s.CanCommit c number

/-- An input is not heeded: it leaves the announcer as it is, but for one of its queries. -/
def Unheeded (c : Config) (s : Announcer) (i : Input) : Prop :=
  ∃ queries, queries.length = s.queries.length ∧ s.step c i = { s with queries := queries }

/-- What happens to a query that was started before the network came back is not heeded. -/
def Superseded (c : Config) (s : Announcer) (i : CycleInput) (s' : Announcer) (j : CycleInput) :
    Prop :=
  ∀ net number, i.1 = .notifyOnline net → s.running = true → j.1.query? = some number →
    number < s.queries.length → s'.Unheeded c j.1

/-- The network comes back. -/
def Input.isNotifyOnline : Input → Bool
  | .notifyOnline _ => true
  | _ => false

/-- The network comes back while a cycle is under way. -/
def Interrupts (s : Announcer) (i : CycleInput) : Prop :=
  i.1.isNotifyOnline = true ∧ s.running = true ∧ s.updating = true

instance (s : Announcer) (i : CycleInput) : Decidable (Interrupts s i) :=
  inferInstanceAs (Decidable (_ ∧ _))

/-! ## Queries that may have announcements made -/

lemma reply_mem_repliesOf {w : Walk} {k : ℕ} {node : PendingNode} (hw : w.Reporting)
    (hk : w.outstanding[k]? = some node) (hfired : w.query.pendingDoneFired = false)
    (blake2b : List UInt8 → NodeId) (env : Query.Env) (resp : Response) :
    replyOf node resp ∈ repliesOf (w.newEvents (w.step blake2b (.response env k resp))) :=
  List.mem_filterMap.2 ⟨_, hw.reply_mem blake2b env hk hfired resp, rfl⟩

/-- **The queries that may have announcements made** by an announcer that was not stopped are those
that have not called `on_done_`. -/
theorem canCommit_iff (hkept : s.Kept) (halive : s.alive = true) {number : ℕ} :
    s.CanCommit c number ↔ s.Live number := by
  constructor
  · rintro ⟨net, k, resp, hcommit⟩
    rw [step] at hcommit
    cases hw : s.queries[number]? with
    | none => simp [walk, hw] at hcommit
    | some w =>
      refine ⟨w, hw, ?_⟩
      by_contra hfired
      simp [hear_of_fired hkept hw (by simpa using hfired)] at hcommit
  · rintro ⟨w, hw, hfired⟩
    obtain ⟨hreporting, hstarted⟩ := hkept.get hw
    obtain ⟨node, rest, hvisits⟩ :=
      List.exists_cons_of_ne_nil (hreporting.outstanding_ne_nil hstarted hfired)
    have hk : w.outstanding[0]? = some node := by rw [hvisits]; rfl
    let net : Net := { table := { id := NodeId.zero } }
    let resp : Response := { token := some (List.Vector.replicate 32 0) }
    refine ⟨net, 0, resp, ?_⟩
    have hreply := reply_mem_repliesOf hreporting hk hfired c.blake2b net.env resp
    rw [step, (walk_announces hkept halive hw net _).1]
    intro hsame
    have hnone := List.filter_eq_nil_iff.1 (List.append_right_eq_self.1 hsame) _ hreply
    exact hnone rfl

/-! ## What keeps one cycle -/

/-- No query goes on but the one that the announcer points to. -/
def Alone (s : Announcer) : Prop :=
  ∀ number, s.Live number → s.updating = true ∧ s.currentQuery = some number

lemma oneCycle_iff_alone (hkept : s.Kept) (halive : s.alive = true) :
    s.OneCycle c ↔ s.Alone ∧ s.Pointed := by
  constructor
  · intro h
    refine ⟨fun number hlive => h.current number ((canCommit_iff hkept halive).2 hlive),
      fun hupdating => ?_⟩
    obtain ⟨number, hcurrent, hcommit⟩ := h.updating hupdating
    exact ⟨number, hcurrent, (canCommit_iff hkept halive).1 hcommit⟩
  · rintro ⟨halone, hpointed⟩
    refine ⟨fun number hcommit => halone number ((canCommit_iff hkept halive).1 hcommit),
      fun hupdating => ?_⟩
    obtain ⟨number, hcurrent, hlive⟩ := hpointed hupdating
    exact ⟨number, hcurrent, (canCommit_iff hkept halive).2 hlive⟩

lemma SameCycle.alone {s' : Announcer} (h : SameCycle s s') (halone : s.Alone) : s'.Alone := by
  intro number hlive
  obtain ⟨hupdating, hcurrent⟩ := halone number (h.live.1 hlive)
  exact ⟨h.updating.trans hupdating, h.currentQuery.trans hcurrent⟩

lemma not_live_of_free (halone : s.Alone) (hfree : s.updating = false) (number : ℕ) :
    ¬ s.Live number := by
  intro hlive
  simpa [hfree] using (halone number hlive).1

lemma live_append_iff {added : List Walk} {number : ℕ} :
    Live { s with queries := s.queries ++ added } number ↔
      s.Live number ∨ ∃ w, s.queries.length ≤ number ∧
        added[number - s.queries.length]? = some w ∧ w.query.pendingDoneFired = false := by
  by_cases hlt : number < s.queries.length
  · simp only [Live, List.getElem?_append_left hlt]
    constructor
    · exact .inl
    · rintro (h | ⟨_, hle, -⟩)
      · exact h
      · omega
  · have hnone : s.queries[number]? = none := List.getElem?_eq_none (by omega)
    simp only [Live, List.getElem?_append_right (Nat.le_of_not_lt hlt), hnone]
    constructor
    · rintro ⟨w, hw, hfired⟩
      exact .inr ⟨w, by omega, hw, hfired⟩
    · rintro (⟨_, h, -⟩ | ⟨w, -, hw, hfired⟩)
      · cases h
      · exact ⟨w, hw, hfired⟩

lemma Alone.update (halone : s.Alone) (c : Config) (net : Net) :
    (Announcer.update c net s).Alone := by
  by_cases hblocked : s.updating = true ∨ s.running = false
  · rw [update_of_blocked hblocked]
    exact halone
  · simp only [not_or, Bool.not_eq_true, Bool.not_eq_false] at hblocked
    obtain ⟨hfree, hrunning⟩ := hblocked
    have hnone := not_live_of_free halone hfree
    intro number hlive
    cases hdone : (findPeer c net).query.pendingDoneFired with
    | false =>
      rw [update_of_waits hfree hrunning (.inl hdone)] at hlive ⊢
      rcases live_append_iff.1 hlive with hold | ⟨w, hle, hw, -⟩
      · exact absurd hold (hnone number)
      · -- the only new query is the first after the others
        have hlt := (List.getElem?_eq_some_iff.1 hw).1
        simp only [List.length_singleton] at hlt
        exact ⟨rfl, by rw [show number = s.queries.length by omega]⟩
    | true =>
      obtain ⟨n, hn⟩ := (update_unmoved c net s).queries
      have hlive' : Live { s with queries := s.queries ++ List.replicate n (findPeer c net) }
          number := by
        rw [← hn]
        exact hlive
      rcases live_append_iff.1 hlive' with hold | ⟨w, -, hw, hfired⟩
      · exact absurd hold (hnone number)
      · obtain rfl := List.eq_of_mem_replicate (List.mem_of_getElem? hw)
        simp [hdone] at hfired

/-- **Every other input keeps the cycle alone.** -/
lemma Alone.step (halone : s.Alone) (hkept : s.Kept) (halive : s.alive = true) (c : Config)
    {i : CycleInput} (hquiet : ¬ Interrupts s i) : (s.cycleStep c i).Alone := by
  have hshape := step_shape c s i.1
  rw [cycleStep]
  obtain ⟨i, hi⟩ := i
  dsimp only at hshape ⊢
  generalize s.step c i = s' at hshape ⊢
  cases hshape with
  | beside hsame => exact hsame.alone halone
  | update net hsame => exact (hsame.alone halone).update c net
  | start net hrunning =>
    exact Alone.update (s := { s with running := true }) halone c net
  | stop _ hstop => simp [hi] at hstop
  | notifyOnline net hrunning =>
    have hfree : s.updating = false := by
      by_contra hupdating
      exact hquiet ⟨rfl, hrunning, by simpa using hupdating⟩
    have hforgotten : s.forget.Alone :=
      fun number hlive => absurd hlive (not_live_of_free halone hfree number)
    exact hforgotten.update c net
  | walk net number w j hw =>
    obtain ⟨hreporting, -⟩ := hkept.get hw
    have hsame := hear_sameCycle c s number w (w.step c.blake2b j)
    rw [walk_eq hkept hw]
    dsimp only
    split
    · -- the query that was done was the one that went on
      rename_i hdone
      obtain ⟨-, hcurrent⟩ := halone number ⟨w, hw, hdone.1⟩
      obtain ⟨s₁, hsame₁, heq⟩ := onDone_cases (hsame.alive.trans halive) c net
      have hnone : s₁.Alone := by
        intro k hlive
        have hlive' : Live { s with queries := s.queries.set number (w.step c.blake2b j) } k :=
          hsame.live.1 (hsame₁.live.1 hlive)
        obtain ⟨w', hw', hfired⟩ := hlive'
        by_cases hk : number = k
        · subst hk
          simp only [List.getElem?_set_self (List.getElem?_eq_some_iff.1 hw).1,
            Option.some.injEq] at hw'
          subst hw'
          simp [hdone.2] at hfired
        · rw [List.getElem?_set_ne hk] at hw'
          have hother := (halone k ⟨w', hw', hfired⟩).2
          rw [hcurrent] at hother
          exact absurd (Option.some_inj.1 hother) hk
      rcases heq with heq | heq
      · rw [heq]
        exact hnone
      · rw [heq]
        exact hnone.update c net
    · rename_i hnot
      refine hsame.alone fun k hlive => ?_
      refine halone k ((live_set_iff hw ?_).1 hlive)
      cases hfired : w.query.pendingDoneFired with
      | false => simpa [hfired] using hnot
      | true => exact hreporting.fired_step c.blake2b j hfired

/-- **The network coming back during a cycle** leaves a query that the announcer does not point to. -/
lemma not_alone_of_interrupts (hpointed : s.Pointed) (c : Config) {i : CycleInput}
    (hinterrupts : Interrupts s i) : ¬ (s.cycleStep c i).Alone := by
  obtain ⟨i, hi⟩ := i
  obtain ⟨hnotify, hrunning, hupdating⟩ := hinterrupts
  cases i with
  | notifyOnline net =>
    obtain ⟨number, -, hlive⟩ := hpointed hupdating
    have hlt := hlive.lt
    have hstep : s.cycleStep c ⟨.notifyOnline net, hi⟩ = update c net s.forget := by
      simp [cycleStep, step, Announcer.notifyOnline, hrunning, forget]
    obtain ⟨w, hw, hfired⟩ := hlive
    obtain ⟨n, hn⟩ := (update_unmoved c net s.forget).queries
    have hlive' : (update c net s.forget).Live number := by
      refine ⟨w, ?_, hfired⟩
      rw [hn, List.getElem?_append_left (by exact hlt)]
      exact hw
    have hcurrent := update_currentQuery (s := s.forget) rfl hrunning c net
    rw [hstep]
    intro halone
    have hother : number = s.queries.length := by
      have hsame := (halone number hlive').2
      rw [hcurrent] at hsame
      exact (Option.some_inj.1 hsame).symm
    omega
  | _ => contradiction

/-! ## Runs with one cycle -/

lemma kept_init (c : Config) : (init c).Kept := by
  intro w hw
  cases hw

/-- What holds along every run of an announcer that is not stopped. -/
structure Unstopped (s : Announcer) : Prop where
  kept : s.Kept
  alive : s.alive = true
  pointed : s.Pointed

lemma unstopped_init (c : Config) : (init c).Unstopped :=
  ⟨kept_init c, rfl, by simp [Pointed, init]⟩

lemma Unstopped.step (h : s.Unstopped) (c : Config) (i : CycleInput) :
    (s.cycleStep c i).Unstopped where
  kept := h.kept.step c i.1
  alive := (alive_step_of_not_stop h.kept c fun hstop => by simp [i.2] at hstop).trans h.alive
  pointed := h.pointed.step h.kept h.alive c i.1

lemma Finished.unheeded {number : ℕ} (h : s.Finished number) (hkept : s.Kept) (c : Config)
    {i : Input} (hi : i.query? = some number) : s.Unheeded c i := by
  obtain ⟨w, hw, hfired⟩ := h
  cases i with
  | response net number' k resp =>
    obtain rfl : number' = number := Option.some_inj.1 hi
    exact ⟨_, by simp, hear_of_fired hkept hw hfired _⟩
  | timeout net number' k =>
    obtain rfl : number' = number := Option.some_inj.1 hi
    exact ⟨_, by simp, hear_of_fired hkept hw hfired _⟩
  | _ => contradiction

/-- **One cycle at a time.** In every state of a run of an announcer that is not stopped, the query
that may still have announcements made is the one that the announcer points to, and after
`notify_online` the queries that were started before are not heeded, if and only if the network never
comes back while a cycle is under way.

**Proof sketch.** A cycle is started only when none is under way, so there is at most one query that
has not called `on_done_`. When the network comes back, the announcer only lets go of it, and starts
another one beside it. -/
theorem oneCycle_iff (c : Config) (is : List CycleInput) :
    (Runs.EveryState (cycleStep c) (OneCycle c) (init c) is ∧
        Runs.EveryPair (cycleStep c) (Superseded c) (init c) is) ↔
      Runs.EveryStep (cycleStep c) (fun s i => ¬ Interrupts s i) (init c) is := by
  have hstates : Runs.EveryState (cycleStep c) (OneCycle c) (init c) is ↔
      Runs.EveryStep (cycleStep c) (fun s i => ¬ Interrupts s i) (init c) is := by
    refine Runs.everyState_iff_everyStep (I := Unstopped) (fun s i h => h.step c i)
      (fun s i h hcycle => ?_) (unstopped_init c) ?_
    · have hnext := h.step c i
      rw [oneCycle_iff_alone h.kept h.alive] at hcycle
      rw [oneCycle_iff_alone hnext.kept hnext.alive]
      constructor
      · exact fun halone hinterrupts => not_alone_of_interrupts h.pointed c hinterrupts halone.1
      · exact fun hquiet => ⟨hcycle.1.step h.kept h.alive c hquiet, hnext.pointed⟩
    · rw [oneCycle_iff_alone (kept_init c) rfl]
      exact ⟨fun number hlive => absurd hlive.lt (by simp [init]), (unstopped_init c).pointed⟩
  rw [← hstates, and_iff_left_iff_imp]
  intro hall before i mid j after his net number hi hrunning hj hlt
  have hquiet := hstates.1 hall
  rw [his] at hall hquiet
  have hreach := Runs.run_invariant (fun s i h => h.step c i) (unstopped_init c) before
  have hcycle := (Runs.EveryState.of_append hall).run
  have hnot := (Runs.everyStep_append.1 hquiet).2.1
  rw [Runs.run_append, Runs.run_cons]
  generalize Runs.run (cycleStep c) (init c) before = s at *
  -- no cycle was under way when the network came back, so the queries of before had ended
  have hfree : s.updating = false := by
    by_contra hupdating
    exact hnot ⟨by rw [hi]; rfl, hrunning, by simpa using hupdating⟩
  have halone := ((oneCycle_iff_alone hreach.kept hreach.alive).1 hcycle).1
  have hfinished := finished_of_not_live hlt (not_live_of_free halone hfree number)
  obtain ⟨hlater, hfinished⟩ := Runs.run_invariant
    (P := fun s : Announcer => s.Unstopped ∧ s.Finished number)
    (fun s i h => ⟨h.1.step c i, h.2.step h.1.kept c i.1⟩)
    ⟨hreach.step c i, hfinished.step hreach.kept c i.1⟩ mid
  exact hfinished.unheeded hlater.kept c hj

/-! ## The network comes back while a node is asked -/

def zeroSigner : Config where
  blake2b := RpcNode.paddedDigest
  sign := fun _ => List.Vector.replicate 64 0
  publicKey := List.Vector.replicate 32 1
  target := RpcNode.paddedDigest (List.replicate 32 1)

def knownAddr : Ipv4Address := .ofOctets 10 0 0 1 7

def oneNode : Net where
  table := (Table.add { id := NodeId.zero }
    { id := computePeerId RpcNode.paddedDigest knownAddr
      host := knownAddr.hostString
      port := knownAddr.port }).1

/-- The announcer starts, and the network comes back before the node has answered; then it answers the
first query. -/
def whileAsked : List CycleInput := [⟨.start oneNode, rfl⟩]
def backOnline : CycleInput := ⟨.notifyOnline oneNode, rfl⟩
def lateAnswer : CycleInput :=
  ⟨.response oneNode 0 0 { token := some (List.Vector.replicate 32 5) }, rfl⟩

set_option maxRecDepth 10000 in
/-- **The first query goes on beside the second one**: the node answers it, and is announced to. -/
theorem not_oneCycle_backOnline :
    ¬ (Runs.EveryState (cycleStep zeroSigner) (OneCycle zeroSigner) (init zeroSigner)
        (whileAsked ++ [backOnline, lateAnswer]) ∧
      Runs.EveryPair (cycleStep zeroSigner) (Superseded zeroSigner) (init zeroSigner)
        (whileAsked ++ [backOnline, lateAnswer])) := by
  rintro ⟨-, hpairs⟩
  obtain ⟨queries, -, heq⟩ := hpairs whileAsked backOnline [] lateAnswer [] rfl oneNode 0 rfl
    (by decide +kernel) rfl (by decide +kernel)
  have hsent : ((Runs.run (cycleStep zeroSigner) (init zeroSigner)
      (whileAsked ++ [backOnline])).step zeroSigner lateAnswer.1).sent.length =
        (Runs.run (cycleStep zeroSigner) (init zeroSigner)
          (whileAsked ++ [backOnline])).sent.length :=
    congrArg (fun s => s.sent.length) heq
  exact absurd hsent (by decide +kernel)

end HyperDHT.Announcer
