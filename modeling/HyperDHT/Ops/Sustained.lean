import HyperDHT.Ops.System
import HyperDHT.Query.Callbacks
import HyperDHT.Rpc.Swap

/-!
# Queries that get stuck

A query that was started waits for one of its requests until it is done, as long as the socket loses
none of them. The socket loses a request that it refuses or drops, and a commit that is not answered:
the commit functions pass no callback for the timeout.

## Main definitions

* `Ops.Sustained` — the query is not stuck.

## Main results

* `Ops.Ledger.counters` — the counters of a query are off by the requests that were lost.
* `Ops.sustained_iff_keeps_requests` — a query gets stuck exactly when one of its requests is lost.
-/

set_option autoImplicit false

namespace HyperDHT.Ops

open Compact Routing Rpc
open scoped List

variable {cb : Callbacks} {lost : List Purpose} {s : QuerySystem} {w : Walk}

/-- **A query that is not stuck**: its counters are the number of its requests that the socket holds,
and during a call those that it is about to get; after the start it has such a request or is done; and
once it is done it has called `on_done_`. -/
structure Sustained (s : QuerySystem) : Prop where
  counters : s.query.inflight + s.query.commitInflight = s.entries.length
  waits : s.started = true → s.query.done = false → s.entries ≠ []
  reported : s.query.done = true → s.query.hasOnDone = true →
    ∃ closest, .onDone closest ∈ s.query.trace

/-- **The counters are off by the requests that were lost.** -/
theorem Ledger.counters (h : Ledger cb lost s w) :
    s.query.inflight + s.query.commitInflight = s.entries.length + lost.length := by
  have hinflight : s.query.inflight = w.outstanding.length := by
    rw [← h.rest.inflight, h.query]
    rfl
  have hvisits := h.visits.length_eq
  have hall := length_eq_nodesOf_add_count (s.entries ++ lost)
  have hcommits := h.commits.count
  simp only [QuerySystem.entries, commitCalls, List.count_append, List.length_append] at *
  rw [hinflight, hcommits]
  push_cast
  omega

lemma Ledger.waits (h : Ledger cb lost s w) (hconcurrency : 1 ≤ w.query.concurrency)
    (hstarted : s.started = true) (hdone : s.query.done = false) : s.entries ++ lost ≠ [] := by
  have hdone' : w.query.done = false := by
    rw [h.query]
    exact hdone
  have hinflight : (0 : ℤ) ≤ w.query.inflight := by
    rw [h.rest.inflight]
    exact Int.natCast_nonneg _
  have hcommits := h.commits.count
  have hsome : 0 < s.query.inflight + s.query.commitInflight := by
    have hsame : s.query.inflight = w.query.inflight := by
      rw [h.query]
      rfl
    rcases h.progress hconcurrency (h.started.trans hstarted) with hd | ⟨closest, hended⟩ | hpos
    · simp [hdone'] at hd
    · -- the walk has ended, so the query commits
      have hcommitting : s.query.committing = true := by
        have hflags := (h.rest.sound.ended_final closest hended).2.2
        rw [h.query] at hflags
        exact hflags.resolve_left (by simp [handedOver, hdone])
      have := h.commits.busy hcommitting hdone
      omega
    · omega
  intro hnil
  have hcount := h.counters
  have hlength : s.entries.length + lost.length = 0 := by
    rw [← List.length_append, hnil]
    rfl
  omega

lemma Ledger.sustained_iff (h : Ledger cb lost s w) (hlawful : w.query.Lawful)
    (hconcurrency : 1 ≤ w.query.concurrency) : Sustained s ↔ lost = [] := by
  constructor
  · intro hs
    have hcount := h.counters
    rw [hs.counters] at hcount
    exact List.length_eq_zero_iff.1 (by omega)
  · rintro rfl
    refine ⟨by simpa using h.counters, fun hstarted hdone => ?_, fun hdone hhas => ?_⟩
    · simpa using h.waits hconcurrency hstarted hdone
    · have hsettled := h.rest.settled
      have hfired := hlawful.fired_iff
      rw [h.query] at hsettled hfired
      exact hfired.1 (hsettled.2 hdone hhas)

lemma lawful_walk (blake2b : List UInt8 → NodeId) (target : NodeId) (command : UInt32)
    (value : Option (List UInt8)) (opts : Query.Options) (hconcurrency : 1 ≤ opts.concurrency)
    (js : List HyperDHT.Input) :
    (Runs.run (Walk.step blake2b) (Walk.init target command value opts) js).query.Lawful ∧
      1 ≤ (Runs.run (Walk.step blake2b) (Walk.init target command value opts)
        js).query.concurrency := by
  refine Walk.query_invariant blake2b (P := fun q => q.Lawful ∧ 1 ≤ q.concurrency)
    (fun q q' hmove h => ⟨hmove.lawful h.1, ?_⟩)
    (fun _ _ _ h => ⟨h.1.congr rfl rfl rfl rfl, h.2⟩) (Walk.rest_init target command value opts)
    ⟨Walk.lawful_init target command value opts, hconcurrency⟩ js
  rw [(Query.Moves.sameConfig (.single hmove)).concurrency]
  exact h.2

/-- **A query gets stuck exactly when one of its requests is lost.** In every state of a run the
counters of the query are the number of its requests that the socket holds, the query waits for one
of them or is done, and once it is done it has called `on_done_`, if and only if at no step of the run
the socket refuses a request of the query, gives up a commit, or drops a request of the query because
it is cancelled or the socket closes.

**Proof sketch.** What the query counts are the requests that the socket holds and those that were
lost, since every completion that calls back takes one off both sides. A walk that has not ended has
a visit in flight, and a query that commits and is not done has a commit in flight. -/
theorem sustained_iff_keeps_requests (blake2b : List UInt8 → NodeId) (target : NodeId)
    (command : UInt32) (value : Option (List UInt8)) (opts : Query.Options) (cb : Callbacks)
    (firstTid : UInt16) (hconcurrency : 1 ≤ opts.concurrency) (is : List QuerySystem.Input) :
    Runs.EveryState (QuerySystem.step blake2b cb) Sustained
        (QuerySystem.init target command value opts cb firstTid) is ↔
      Runs.EveryStep (QuerySystem.step blake2b cb) (fun s i => ¬ s.Loses i)
        (QuerySystem.init target command value opts cb firstTid) is := by
  set w₀ := Walk.init target command value { opts with hasOnCommit := cb.commit.isSome } with hw₀
  have hwalk := lawful_walk blake2b target command value
    { opts with hasOnCommit := cb.commit.isSome } hconcurrency
  rw [← hw₀] at hwalk
  have hfresh := ledger_init target command value opts cb firstTid
  refine Runs.everyState_iff_everyStep (I := Beside blake2b cb w₀) (fun s i hs => hs.step i) ?_
    ⟨[], [], hfresh⟩ ((hfresh.sustained_iff (hwalk []).1 (hwalk []).2).2 rfl)
  rintro s i ⟨js, lost, h⟩ hsustained
  obtain ⟨is, lost', h', hiff⟩ := ledger_step blake2b h i
  rw [← Runs.run_append] at h'
  have hnone := (h.sustained_iff (hwalk js).1 (hwalk js).2).1 hsustained
  rw [h'.sustained_iff (hwalk (js ++ is)).1 (hwalk (js ++ is)).2, ← hiff, hnone]

/-! ## A value that is put to one node -/

def onlyAddr : Ipv4Address := .ofOctets 10 0 0 1 7
def onlyId : NodeId := computePeerId RpcNode.paddedDigest onlyAddr

def onlyEnv : Query.Env where
  table := (Table.add { id := NodeId.zero }
    { id := onlyId, host := onlyAddr.hostString, port := onlyAddr.port }).1

def putValue : Operation := .immutablePut [1]
def putCallbacks : Callbacks := putValue.callbacks RpcNode.paddedDigest fun _ _ _ => true
def putSystem : QuerySystem := putValue.system RpcNode.paddedDigest (fun _ _ _ => true) false true 1

def putToOne : List QuerySystem.Input :=
  [.start onlyEnv, .issue,
    .response onlyEnv 1 { id := some onlyId, token := some (List.Vector.replicate 32 5) }, .issue]

def putAnswered : List QuerySystem.Input := putToOne ++ [.response onlyEnv 2 {}]

def putUnanswered : List QuerySystem.Input := putToOne ++ List.replicate 4 (.timeout onlyEnv 1)

set_option maxRecDepth 10000 in
/-- The node answers, and at no step a request is lost. -/
theorem sustained_putAnswered :
    Runs.EveryStep (QuerySystem.step RpcNode.paddedDigest putCallbacks) (fun s i => ¬ s.Loses i)
        putSystem putAnswered ∧
      Runs.EveryState (QuerySystem.step RpcNode.paddedDigest putCallbacks) Sustained putSystem
        putAnswered := by
  have hkeeps : Runs.EveryStep (QuerySystem.step RpcNode.paddedDigest putCallbacks)
      (fun s i => ¬ s.Loses i) putSystem putAnswered := by decide +kernel
  exact ⟨hkeeps, (sustained_iff_keeps_requests RpcNode.paddedDigest _ _ _ _ putCallbacks 1
    (by decide) putAnswered).2 hkeeps⟩

set_option maxRecDepth 10000 in
/-- **A put to a node that falls silent is never done**: the one closest node does not answer the
request that stores the value; after its timeout the socket holds no request of the query, the counter
of commits is still one, and the query is not done. -/
theorem not_sustained_putUnanswered :
    ¬ Runs.EveryState (QuerySystem.step RpcNode.paddedDigest putCallbacks) Sustained putSystem
      putUnanswered := by
  intro hall
  have hstarted : (Runs.run (QuerySystem.step RpcNode.paddedDigest putCallbacks) putSystem
      putUnanswered).started = true := by decide +kernel
  have hdone : (Runs.run (QuerySystem.step RpcNode.paddedDigest putCallbacks) putSystem
      putUnanswered).query.done = false := by decide +kernel
  have hnone : (Runs.run (QuerySystem.step RpcNode.paddedDigest putCallbacks) putSystem
      putUnanswered).entries = [] := by decide +kernel
  exact hall.run.waits hstarted hdone hnone

end HyperDHT.Ops
