import Mathlib.Logic.Relation
import HyperDHT.Lib.Runs
import HyperDHT.Query.Basic

/-!
# What a query does, in small steps

Every member function of the query is a sequence of small steps: taking a candidate, popping one,
entering `read_more`, setting `done_`, calling a callback. The small steps and the conditions
under which they are taken are said once, and the functions are shown to take no others. An
invariant of a query is then checked on the small steps alone.

## Main definitions

* `Query.Quiet` — the steps of the walk itself, which touch neither the completion flags nor the
  callbacks.
* `Query.Closing` — the steps of the completion of a query.
* `Query.Small` — the quiet and the closing steps, and the end of the walk.
* `Query.Move` — the small steps, and the calls of `on_reply_`.
* `Query.Ended` — the walk has ended, as the trace tells.

## Main results

* `Query.readMoreAt_cases` — `read_more` goes at most two levels deep, and it leaves visits in
  flight or goes on to finish.
* `Query.start_spec`, `onVisitResponse_spec`, `onVisitTimeout_spec`, `destroy_closings`,
  `commitDone_closings` — the entry points.
-/

set_option autoImplicit false

namespace HyperDHT.Query

open Compact Routing Rpc Relation

/-- The walk has ended. -/
def Ended (q : Query) : Prop := ∃ closest, QueryEvent.ended closest ∈ q.trace

/-! ## The small steps -/

/-- The steps of the walk itself. -/
inductive Quiet : Query → Query → Prop
  /-- A candidate with a new address is taken. -/
  | accept (q : Query) (node : PendingNode) (hnew : node.addr.hostPort ∉ q.seen.map Prod.fst)
      (hroom : q.seen.length < maxSeen) :
      Quiet q ({ q with
        seen := setSeen q.seen node.addr.hostPort .pending
        pending := node :: q.pending }.emit (.accepted node))
  /-- A candidate that is too far away is dropped. -/
  | skip (q : Query) (node : PendingNode) (rest : List PendingNode) (hdone : q.done = false)
      (hpending : q.pending = node :: rest) (hid : node.id ≠ NodeId.zero)
      (hfar : q.isCloser node.id = false) :
      Quiet q ({ q with pending := rest }.emit (.skipped node))
  /-- A candidate is visited. -/
  | visit (q : Query) (node : PendingNode) (rest : List PendingNode) (hdone : q.done = false)
      (hlive : ¬ q.Ended) (hpending : q.pending = node :: rest) :
      Quiet q ({ q with pending := rest }.visit node)
  /-- `read_more` is entered. -/
  | enter (q : Query) (depth : ℕ) (hdepth : depth ≤ 2) : Quiet q (q.emit (.readMore depth))
  /-- A reply competes for a place among the closest ones. -/
  | push (q : Query) (reply : QueryReply) (hlive : ¬ q.Ended) : Quiet q (q.pushClosest reply)
  /-- A seen address changes its state. -/
  | mark (q : Query) (key : List Char) (state : NodeState) (hseen : key ∈ q.seen.map Prod.fst) :
      Quiet q { q with seen := setSeen q.seen key state }
  /-- The heuristics change. -/
  | tune (q : Query) (fromTable slowdown : Bool) (successes errors : ℤ)
      (preSeeds : List PendingNode) :
      Quiet q { q with
        fromTable := fromTable
        slowdown := slowdown
        successes := successes
        errors := errors
        preSeeds := preSeeds }

/-- The steps of the completion. -/
inductive Closing : Query → Query → Prop
  /-- `destroy()` of a query that is done. -/
  | destroyAgain (q : Query) (hdone : q.done = true) : Closing q (q.emit .destroyCalled)
  /-- `destroy()` of a query that is not done. -/
  | destroy (q : Query) (hdone : q.done = false) :
      Closing q { { q.emit .destroyCalled with pending := [], committing := true }.setDone with
        pendingDone := q.dispatchingReply || q.pendingDone }
  /-- `on_commit_` is called. -/
  | commit (q : Query) (reply : QueryReply) (hended : q.Ended) :
      Closing q ({ q with commitInflight := q.commitInflight + 1 }.emit (.commit reply))
  /-- `on_commit_` sends a request. -/
  | request (q : Query) (req : Request) :
      Closing q { q with outbox := q.outbox ++ [Call.mk .commit req] }
  /-- A commit is answered. -/
  | count (q : Query) : Closing q { q with commitInflight := q.commitInflight - 1 }
  /-- The commits are complete. -/
  | finish (q : Query) (hended : q.Ended) : Closing q q.setDone
  /-- A deferred `on_done_` is taken up. -/
  | drain (q : Query) : Closing q { q with pendingDone := false }
  /-- `on_done_` is called. -/
  | fire (q : Query) (hdone : q.done = true) (hdispatching : q.dispatchingReply = false)
      (hfired : q.pendingDoneFired = false) :
      Closing q ({ q with pendingDoneFired := true }.emit (.onDone q.closestReplies))

/-- The quiet and the closing steps, and the end of the walk. -/
inductive Small : Query → Query → Prop
  | quiet {q q' : Query} (h : Quiet q q') : Small q q'
  | closing {q q' : Query} (h : Closing q q') : Small q q'
  /-- The walk ends, and the commits begin. -/
  | endCommit (q : Query) (hdone : q.done = false) (hcommitting : q.committing = false)
      (hinflight : q.inflight ≤ 0) (hpending : q.pending = []) :
      Small q (q.emit (.ended q.closestReplies)).beginCommit
  /-- The walk ends, and the query with it. -/
  | endDone (q : Query) (hdone : q.done = false) (hcommitting : q.committing = false)
      (hinflight : q.inflight ≤ 0) (hpending : q.pending = []) :
      Small q (q.emit (.ended q.closestReplies)).setDone

/-- The small steps and the calls of `on_reply_`. -/
inductive Move : Query → Query → Prop
  | small {q q' : Query} (h : Small q q') : Move q q'
  /-- `on_reply_` is called. -/
  | replyEnter (q : Query) (reply : QueryReply) (hdone : q.done = false)
      (hdispatching : q.dispatchingReply = false) :
      Move q ({ q with dispatchingReply := true }.emit (.replyEnter reply))
  /-- `on_reply_` returns. -/
  | replyExit (q : Query) (hdispatching : q.dispatchingReply = true) :
      Move q ({ q with dispatchingReply := false }.emit .replyExit)

/-- Sequences of steps. -/
abbrev Quiets : Query → Query → Prop := ReflTransGen Quiet
abbrev Closings : Query → Query → Prop := ReflTransGen Closing
abbrev Smalls : Query → Query → Prop := ReflTransGen Small
abbrev Moves : Query → Query → Prop := ReflTransGen Move

lemma Quiets.smalls {q q' : Query} (h : Quiets q q') : Smalls q q' :=
  h.lift id fun _ _ => Small.quiet

lemma Closings.smalls {q q' : Query} (h : Closings q q') : Smalls q q' :=
  h.lift id fun _ _ => Small.closing

lemma Smalls.moves {q q' : Query} (h : Smalls q q') : Moves q q' :=
  h.lift id fun _ _ => Move.small

/-! ## What the steps leave alone -/

/-- The configuration, which no step changes. -/
structure SameConfig (q q' : Query) : Prop where
  target : q'.target = q.target
  concurrency : q'.concurrency = q.concurrency
  hasOnReply : q'.hasOnReply = q.hasOnReply
  hasOnCommit : q'.hasOnCommit = q.hasOnCommit
  hasOnDone : q'.hasOnDone = q.hasOnDone

lemma Moves.sameConfig {q q' : Query} (h : Moves q q') : SameConfig q q' := by
  induction h with
  | refl => exact ⟨rfl, rfl, rfl, rfl, rfl⟩
  | @tail q₁ q₂ _ h ih =>
    have hstep : SameConfig q₁ q₂ := by
      cases h with
      | small h =>
        cases h with
        | quiet h => cases h <;> exact ⟨rfl, rfl, rfl, rfl, rfl⟩
        | closing h => cases h <;> exact ⟨rfl, rfl, rfl, rfl, rfl⟩
        | _ => exact ⟨rfl, rfl, rfl, rfl, rfl⟩
      | _ => exact ⟨rfl, rfl, rfl, rfl, rfl⟩
    exact ⟨hstep.target.trans ih.target, hstep.concurrency.trans ih.concurrency,
      hstep.hasOnReply.trans ih.hasOnReply, hstep.hasOnCommit.trans ih.hasOnCommit,
      hstep.hasOnDone.trans ih.hasOnDone⟩

/-- The flags of the completion, which quiet steps leave alone. -/
structure SameFlags (q q' : Query) : Prop where
  done : q'.done = q.done
  committing : q'.committing = q.committing
  commitInflight : q'.commitInflight = q.commitInflight
  dispatchingReply : q'.dispatchingReply = q.dispatchingReply
  pendingDone : q'.pendingDone = q.pendingDone
  pendingDoneFired : q'.pendingDoneFired = q.pendingDoneFired

lemma Quiets.sameFlags {q q' : Query} (h : Quiets q q') : SameFlags q q' := by
  induction h with
  | refl => exact ⟨rfl, rfl, rfl, rfl, rfl, rfl⟩
  | @tail q₁ q₂ _ h ih =>
    have hstep : SameFlags q₁ q₂ := by
      cases h <;> exact ⟨rfl, rfl, rfl, rfl, rfl, rfl⟩
    exact ⟨hstep.done.trans ih.done, hstep.committing.trans ih.committing,
      hstep.commitInflight.trans ih.commitInflight,
      hstep.dispatchingReply.trans ih.dispatchingReply, hstep.pendingDone.trans ih.pendingDone,
      hstep.pendingDoneFired.trans ih.pendingDoneFired⟩

lemma Quiets.ended_mem {q q' : Query} (h : Quiets q q') (closest : List QueryReply) :
    .ended closest ∈ q'.trace ↔ .ended closest ∈ q.trace := by
  induction h with
  | refl => exact Iff.rfl
  | tail _ h ih =>
    refine Iff.trans ?_ ih
    cases h with
    | push => exact Iff.rfl
    | mark => exact Iff.rfl
    | tune => exact Iff.rfl
    | _ => simp [emit, visit]

lemma Quiets.not_ended {q q' : Query} (h : Quiets q q') (hq : ¬ q.Ended) : ¬ q'.Ended :=
  fun ⟨closest, hmem⟩ => hq ⟨closest, (h.ended_mem closest).1 hmem⟩

/-- Closing steps touch neither the walk nor the callbacks of replies. -/
structure SameWalk (q q' : Query) : Prop where
  dispatchingReply : q'.dispatchingReply = q.dispatchingReply
  inflight : q'.inflight = q.inflight
  closestReplies : q'.closestReplies = q.closestReplies
  ended_mem : ∀ closest, .ended closest ∈ q'.trace ↔ .ended closest ∈ q.trace

lemma SameWalk.ended {q q' : Query} (h : SameWalk q q') : q'.Ended ↔ q.Ended :=
  exists_congr h.ended_mem

lemma Closings.sameWalk {q q' : Query} (h : Closings q q') : SameWalk q q' := by
  induction h with
  | refl => exact ⟨rfl, rfl, rfl, fun _ => Iff.rfl⟩
  | @tail q₁ q₂ _ h ih =>
    have hstep : SameWalk q₁ q₂ := by
      cases h with
      | request => exact ⟨rfl, rfl, rfl, fun _ => Iff.rfl⟩
      | count => exact ⟨rfl, rfl, rfl, fun _ => Iff.rfl⟩
      | drain => exact ⟨rfl, rfl, rfl, fun _ => Iff.rfl⟩
      | _ => exact ⟨rfl, rfl, rfl, by simp [emit, setDone]⟩
    exact ⟨hstep.dispatchingReply.trans ih.dispatchingReply, hstep.inflight.trans ih.inflight,
      hstep.closestReplies.trans ih.closestReplies,
      fun closest => (hstep.ended_mem closest).trans (ih.ended_mem closest)⟩

lemma Smalls.dispatchingReply {q q' : Query} (h : Smalls q q') :
    q'.dispatchingReply = q.dispatchingReply := by
  induction h with
  | refl => rfl
  | tail _ h ih =>
    refine Eq.trans ?_ ih
    cases h with
    | quiet h => exact (Quiets.sameFlags (.single h)).dispatchingReply
    | closing h => exact (Closings.sameWalk (.single h)).dispatchingReply
    | _ => rfl

lemma Moves.trace_prefix {q q' : Query} (h : Moves q q') : q.trace <+: q'.trace := by
  induction h with
  | refl => exact List.prefix_rfl
  | @tail q₁ _ _ h ih =>
    refine ih.trans ?_
    cases h with
    | small h =>
      cases h with
      | quiet h =>
        cases h <;> first | exact List.prefix_rfl | exact List.prefix_append _ _
      | closing h =>
        cases h with
        | destroy => exact ⟨[.destroyCalled, .doneSet], by simp [emit, setDone]⟩
        | _ => first | exact List.prefix_rfl | exact List.prefix_append _ _
      | endCommit => exact List.prefix_append _ _
      | endDone => exact ⟨[.ended q₁.closestReplies, .doneSet], by simp [emit, setDone]⟩
    | replyEnter => exact List.prefix_append _ _
    | replyExit => exact List.prefix_append _ _

lemma Moves.ended {q q' : Query} (h : Moves q q') (hended : q.Ended) : q'.Ended :=
  hended.imp fun _ hc => h.trace_prefix.subset hc

lemma Moves.done {q q' : Query} (h : Moves q q') (hdone : q.done = true) : q'.done = true := by
  induction h with
  | refl => exact hdone
  | tail _ h ih =>
    cases h with
    | small h =>
      cases h with
      | quiet h => exact (Quiets.sameFlags (.single h)).done.trans ih
      | closing h => cases h <;> first | exact ih | rfl
      | endCommit => exact ih
      | endDone => rfl
    | replyEnter => exact ih
    | replyExit => exact ih

/-- A query that commits has ended its walk, or it is done. -/
def CommittingEnded (q : Query) : Prop := q.committing = true → q.done = true ∨ q.Ended

lemma Moves.committingEnded {q q' : Query} (h : Moves q q') (hq : q.CommittingEnded) :
    q'.CommittingEnded := by
  induction h with
  | refl => exact hq
  | @tail q₁ q₂ _ h ih =>
    have hended : q₁.Ended → q₂.Ended := Moves.ended (.single h)
    have hkeep : q₁.committing = true → q₁.done = true ∨ q₂.Ended :=
      fun hc => (ih hc).imp_right hended
    cases h with
    | small h =>
      cases h with
      | quiet h =>
        have hflags := Quiets.sameFlags (.single h)
        rw [CommittingEnded, hflags.committing, hflags.done]
        exact hkeep
      | closing h =>
        cases h with
        | destroy => exact fun _ => Or.inl rfl
        | finish => exact fun _ => Or.inl rfl
        | _ => exact hkeep
      | endCommit => exact fun _ => Or.inr ⟨q₁.closestReplies, by simp [emit, beginCommit]⟩
      | endDone => exact fun _ => Or.inl rfl
    | replyEnter => exact hkeep
    | replyExit => exact hkeep

lemma foldl_steps {α : Type*} {r : Query → Query → Prop} {f : Query → α → Query}
    (h : ∀ q a, ReflTransGen r q (f q a)) (q : Query) (l : List α) :
    ReflTransGen r q (l.foldl f q) := by
  induction l generalizing q with
  | nil => exact .refl
  | cons a l ih => exact (h q a).trans (ih (f q a))

/-! ## Candidates -/

lemma addPending_quiets (env : Env) (q : Query) (node : PendingNode) :
    Quiets q (addPending env q node) := by
  unfold addPending
  dsimp only
  split
  · exact .refl
  · rename_i hnew
    split
    · exact .refl
    · rename_i hroom
      split
      · exact .refl
      · exact .single (.accept q node hnew (by omega))

lemma seedFromTable_quiets (env : Env) (q : Query) : Quiets q (q.seedFromTable env) := by
  unfold seedFromTable
  split
  · exact .refl
  · exact ReflTransGen.head
      (.tune q true q.slowdown q.successes q.errors q.preSeeds)
      (foldl_steps (addPending_quiets env) _ _)

lemma addPending_fromTable (env : Env) (q : Query) (node : PendingNode) :
    (addPending env q node).fromTable = q.fromTable := by
  unfold addPending
  dsimp only
  split_ifs <;> rfl

lemma foldl_addPending_fromTable (env : Env) (q : Query) (nodes : List PendingNode) :
    (nodes.foldl (addPending env) q).fromTable = q.fromTable := by
  induction nodes generalizing q with
  | nil => rfl
  | cons node nodes ih => rw [List.foldl_cons, ih, addPending_fromTable]

lemma seedFromTable_fromTable (env : Env) {q : Query} (h : q.pending.length < K) :
    (q.seedFromTable env).fromTable = true := by
  rw [seedFromTable, if_neg (by omega), foldl_addPending_fromTable]

/-! ## The completion -/

lemma iterate_destroyWith_of_done (fire : Query → Query) {q : Query} (h : q.done = true)
    (n : ℕ) : (destroyWith fire)^[n] q =
      { q with trace := q.trace ++ List.replicate n .destroyCalled } := by
  induction n generalizing q with
  | zero => simp
  | succ n ih =>
    have hstep : destroyWith fire q = q.emit .destroyCalled := by
      simp [destroyWith, emit, h]
    rw [Function.iterate_succ_apply, hstep, ih (by simpa [emit] using h)]
    simp [emit, List.replicate_succ]

lemma iterate_destroyWith_closings (fire : Query → Query) {q : Query} (h : q.done = true)
    (n : ℕ) : Closings q ((destroyWith fire)^[n] q) := by
  induction n with
  | zero => exact .refl
  | succ n ih =>
    rw [Function.iterate_succ_apply']
    have hdone : ((destroyWith fire)^[n] q).done = true := by
      rw [iterate_destroyWith_of_done fire h]
      exact h
    refine ih.tail ?_
    rw [show destroyWith fire ((destroyWith fire)^[n] q) =
      ((destroyWith fire)^[n] q).emit .destroyCalled by simp [destroyWith, emit, hdone]]
    exact .destroyAgain _ hdone

lemma fireDoneOnce_closings (env : Env) {q : Query} (hdone : q.done = true)
    (hdispatching : q.dispatchingReply = false) : Closings q (fireDoneOnce env q) := by
  unfold fireDoneOnce
  split
  · rename_i h
    simp only [Bool.and_eq_true, Bool.not_eq_true'] at h
    refine ReflTransGen.head (.fire q hdone hdispatching h.1) ?_
    apply iterate_destroyWith_closings
    exact hdone
  · exact .refl

lemma destroy_closings (env : Env) (q : Query) : Closings q (q.destroy env) := by
  unfold destroy destroyWith
  dsimp only
  split
  · rename_i hdone
    exact .single (.destroyAgain q hdone)
  · rename_i hdone
    have hstep := Closing.destroy q (by simpa [emit] using hdone)
    split
    · rename_i hd
      rw [show q.dispatchingReply = true from hd] at hstep
      exact .single hstep
    · rename_i hd
      have hd : q.dispatchingReply = false := by simpa [emit, setDone] using hd
      rw [hd] at hstep
      refine ReflTransGen.head hstep ?_
      apply fireDoneOnce_closings
      · rfl
      · exact hd

lemma finish_closings (env : Env) {q : Query} (hended : q.Ended)
    (hdispatching : q.dispatchingReply = false) : Closings q (fireDoneOnce env q.setDone) := by
  refine ReflTransGen.head (.finish q hended) ?_
  apply fireDoneOnce_closings
  · rfl
  · exact hdispatching

lemma commitDone_closings (env : Env) {q : Query} (hended : q.commitInflight = 1 → q.Ended)
    (hdispatching : q.dispatchingReply = false) : Closings q (q.commitDone env) := by
  unfold commitDone
  dsimp only
  refine ReflTransGen.head (.count q) ?_
  split
  · rename_i hzero
    exact finish_closings env (hended (by omega)) hdispatching
  · exact .refl

lemma commitAct_closings (env : Env) {q : Query} (hended : q.Ended)
    (hdispatching : q.dispatchingReply = false) (act : CommitAct) :
    Closings q (commitAct env q act) := by
  cases act with
  | destroy => exact destroy_closings env q
  | done => exact commitDone_closings env (fun _ => hended) hdispatching
  | request req => exact .single (.request q req)

lemma foldl_closings_of_ended {α : Type*} {f : Query → α → Query}
    (h : ∀ q a, q.Ended → q.dispatchingReply = false → Closings q (f q a)) {q : Query}
    (hended : q.Ended) (hdispatching : q.dispatchingReply = false) (l : List α) :
    Closings q (l.foldl f q) := by
  induction l generalizing q with
  | nil => exact .refl
  | cons a l ih =>
    have hstep := h q a hended hdispatching
    have hsame := hstep.sameWalk
    exact hstep.trans (ih (hsame.ended.2 hended) (hsame.dispatchingReply.trans hdispatching))

lemma commitReply_closings (env : Env) {q : Query} (hended : q.Ended)
    (hdispatching : q.dispatchingReply = false) (reply : QueryReply) :
    Closings q (commitReply env q reply) := by
  unfold commitReply
  split
  · exact .refl
  · have hstep := Closing.commit q reply hended
    refine ReflTransGen.head hstep ?_
    apply foldl_closings_of_ended
    · exact fun q act h1 h2 => commitAct_closings env h1 h2 act
    · exact (Closings.sameWalk (.single hstep)).ended.2 hended
    · exact hdispatching

lemma doCommit_closings (env : Env) {q : Query} (hended : q.Ended)
    (hdispatching : q.dispatchingReply = false) :
    Closings q.beginCommit (q.doCommit env) := by
  have hended' : q.beginCommit.Ended := hended
  unfold doCommit
  dsimp only
  generalize hq1 : q.beginCommit = q1 at hended' ⊢
  have hdispatching' : q1.dispatchingReply = false := hq1 ▸ hdispatching
  split
  · exact finish_closings env hended' hdispatching'
  · have hfold : Closings q1 (q1.closestReplies.foldl (commitReply env) q1) :=
      foldl_closings_of_ended (fun q reply h1 h2 => commitReply_closings env h1 h2 reply) hended'
        hdispatching' q1.closestReplies
    refine hfold.trans ?_
    split
    · exact finish_closings env (hfold.sameWalk.ended.2 hended')
        (hfold.sameWalk.dispatchingReply.trans hdispatching')
    · exact .refl

lemma maybeFinish_smalls (env : Env) {q : Query} (hdispatching : q.dispatchingReply = false) :
    Smalls q (q.maybeFinish env) := by
  unfold maybeFinish
  split
  · exact .refl
  rename_i hflags
  simp only [Bool.or_eq_true, not_or, Bool.not_eq_true] at hflags
  split
  · exact .refl
  rename_i hinflight
  have hinflight : q.inflight ≤ 0 := by omega
  split
  · exact .refl
  rename_i hpending
  have hpending : q.pending = [] := by simpa using hpending
  dsimp only
  split
  · refine ReflTransGen.head (.endCommit q hflags.1 hflags.2 hinflight hpending) ?_
    apply Closings.smalls
    apply doCommit_closings
    · exact ⟨q.closestReplies, by simp [emit]⟩
    · exact hdispatching
  · refine ReflTransGen.head (.endDone q hflags.1 hflags.2 hinflight hpending) ?_
    apply Closings.smalls
    apply fireDoneOnce_closings
    · rfl
    · exact hdispatching

/-! ## The report -/

/-- A query that is done has called `on_done_` if there is one, or is about to. -/
def Reported (q : Query) : Prop :=
  q.done = true → q.hasOnDone = true → q.pendingDoneFired = true ∨ q.pendingDone = true

lemma Quiets.reported {q q' : Query} (h : Quiets q q') (hq : q.Reported) : q'.Reported := by
  have hflags := h.sameFlags
  rw [Reported, hflags.done, h.smalls.moves.sameConfig.hasOnDone, hflags.pendingDoneFired,
    hflags.pendingDone]
  exact hq

lemma fireDoneOnce_reported (env : Env) {q : Query} (hdone : q.done = true) :
    (fireDoneOnce env q).Reported := by
  unfold fireDoneOnce
  split
  · rw [iterate_destroyWith_of_done]
    · exact fun _ _ => Or.inl rfl
    · exact hdone
  · rename_i h
    intro _ hhas
    simp only [Bool.and_eq_true, Bool.not_eq_true', not_and, Bool.not_eq_true] at h
    by_contra hnot
    rw [not_or, Bool.not_eq_true] at hnot
    simp [h hnot.1] at hhas

lemma destroy_reported (env : Env) {q : Query} (hq : q.Reported) : (q.destroy env).Reported := by
  unfold destroy destroyWith
  dsimp only
  split
  · exact hq
  · split
    · exact fun _ _ => Or.inr rfl
    · exact fireDoneOnce_reported env rfl

lemma commitDone_reported (env : Env) {q : Query} (hq : q.Reported) :
    (q.commitDone env).Reported := by
  unfold commitDone
  dsimp only
  split
  · exact fireDoneOnce_reported env rfl
  · exact hq

lemma commitReply_reported (env : Env) {q : Query} (hq : q.Reported) (reply : QueryReply) :
    (commitReply env q reply).Reported := by
  unfold commitReply
  split
  · exact hq
  · refine @Runs.run_invariant _ _ (commitAct env) Reported ?_ _ ?_ _
    · intro q act hq
      cases act with
      | destroy => exact destroy_reported env hq
      | done => exact commitDone_reported env hq
      | request req => exact hq
    · exact hq

lemma maybeFinish_reported (env : Env) {q : Query} (hq : q.Reported) :
    (q.maybeFinish env).Reported := by
  unfold maybeFinish doCommit
  dsimp only
  split
  · exact hq
  split
  · exact hq
  split
  · exact hq
  split
  · split
    · exact fireDoneOnce_reported env rfl
    · split
      · exact fireDoneOnce_reported env rfl
      · refine @Runs.run_invariant _ _ (commitReply env) Reported ?_ _ ?_ _
        · exact fun q reply hq => commitReply_reported env hq reply
        · exact hq
  · exact fireDoneOnce_reported env rfl

lemma Smalls.pendingDone {q q' : Query} (h : Smalls q q') (hq : q.dispatchingReply = false)
    (hpending : q.pendingDone = false) : q'.pendingDone = false := by
  induction h with
  | refl => exact hpending
  | tail hs h ih =>
    cases h with
    | quiet h => exact (Quiets.sameFlags (.single h)).pendingDone.trans ih
    | closing h =>
      cases h with
      | destroy =>
        simp only [Bool.or_eq_false_iff]
        exact ⟨(Smalls.dispatchingReply hs).trans hq, ih⟩
      | drain => rfl
      | _ => exact ih
    | _ => exact ih

/-- Nothing is deferred, and a query that is done has said so. -/
def Settled (q : Query) : Prop :=
  q.pendingDone = false ∧ (q.done = true → q.hasOnDone = true → q.pendingDoneFired = true)

lemma Settled.reported {q : Query} (hq : q.Settled) : q.Reported :=
  fun hdone hhas => Or.inl (hq.2 hdone hhas)

lemma Reported.settled {q : Query} (hq : q.Reported) (hpending : q.pendingDone = false) :
    q.Settled :=
  ⟨hpending, fun hdone hhas => (hq hdone hhas).resolve_right (by simp [hpending])⟩

lemma Smalls.settled {q q' : Query} (h : Smalls q q') (hdispatching : q.dispatchingReply = false)
    (hq : q.Settled) (hreported : q.Reported → q'.Reported) : q'.Settled :=
  (hreported hq.reported).settled (h.pendingDone hdispatching hq.1)

/-! ## The iteration -/

lemma popLoop_quiets (limit : ℤ) (nodes : List PendingNode) {q : Query} (hdone : q.done = false)
    (hlive : ¬ q.Ended) (hpending : q.pending = nodes) : Quiets q (popLoop limit nodes q) := by
  induction nodes generalizing q with
  | nil => rw [popLoop, ← hpending]
  | cons next rest ih =>
    rw [popLoop]
    split
    · dsimp only
      split
      · rename_i hskip
        have hfar : q.isCloser next.id = false := by
          rw [← Bool.not_eq_true']
          exact hskip.2
        have hstep := Quiet.skip q next rest hdone hpending hskip.1 hfar
        refine ReflTransGen.head hstep ?_
        apply ih
        · exact hdone
        · exact Quiets.not_ended (.single hstep) hlive
        · rfl
      · have hstep := Quiet.visit q next rest hdone hlive hpending
        refine ReflTransGen.head hstep ?_
        apply ih
        · exact hdone
        · exact Quiets.not_ended (.single hstep) hlive
        · rfl
    · rw [← hpending]

lemma engageSlowdown_quiets (q : Query) : Quiets q q.engageSlowdown := by
  unfold engageSlowdown
  split
  · exact .single (.tune q q.fromTable true q.successes q.errors q.preSeeds)
  · exact .refl

lemma popLoop_fromTable (limit : ℤ) (nodes : List PendingNode) (q : Query) :
    (popLoop limit nodes q).fromTable = q.fromTable := by
  induction nodes generalizing q with
  | nil => rfl
  | cons next rest ih =>
    rw [popLoop]
    split
    · dsimp only
      split <;> exact ih _
    · rfl

lemma engageSlowdown_fromTable (q : Query) : q.engageSlowdown.fromTable = q.fromTable := by
  unfold engageSlowdown
  split <;> rfl

/-- The query has something to wait for, or its walk is over. -/
def Busy (q : Query) : Prop := q.done = true ∨ q.Ended ∨ 0 < q.inflight

lemma Closings.busy {q q' : Query} (h : Closings q q') (hq : q.Busy) : q'.Busy := by
  rcases hq with hdone | hended | hinflight
  · exact Or.inl (h.smalls.moves.done hdone)
  · exact Or.inr (Or.inl (h.sameWalk.ended.2 hended))
  · exact Or.inr (Or.inr (by rw [h.sameWalk.inflight]; exact hinflight))

lemma popLoop_pending (limit : ℤ) (nodes : List PendingNode) (q : Query)
    (h : (popLoop limit nodes q).pending ≠ []) : limit ≤ (popLoop limit nodes q).inflight := by
  induction nodes generalizing q with
  | nil => simp [popLoop] at h
  | cons next rest ih =>
    rw [popLoop] at h ⊢
    split
    · rename_i hlt
      rw [if_pos hlt] at h
      dsimp only at h ⊢
      split
      · rename_i hskip
        rw [if_pos hskip] at h
        exact ih _ h
      · rename_i hskip
        rw [if_neg hskip] at h
        exact ih _ h
    · rename_i hge
      exact not_lt.1 hge

lemma maybeFinish_busy (env : Env) {q : Query} (hcommitting : q.CommittingEnded)
    (hdispatching : q.dispatchingReply = false) (hinflight : q.inflight ≤ 0)
    (hpending : q.pending = []) : (q.maybeFinish env).Busy := by
  unfold maybeFinish
  split
  · rename_i hflags
    rcases Bool.or_eq_true_iff.1 hflags with hdone | hc
    · exact Or.inl hdone
    · exact (hcommitting hc).imp_right Or.inl
  · rw [if_neg (by omega), if_neg (by simp [hpending])]
    have hended : (q.emit (.ended q.closestReplies)).Ended := ⟨q.closestReplies, by simp [emit]⟩
    have hbegun : (q.emit (.ended q.closestReplies)).beginCommit.Ended := hended
    dsimp only
    split
    · exact (doCommit_closings env hended hdispatching).busy (Or.inr (Or.inl hbegun))
    · exact (finish_closings env hended hdispatching).busy (Or.inr (Or.inl hended))

lemma engageSlowdown_inflight (q : Query) : q.engageSlowdown.inflight = q.inflight := by
  unfold engageSlowdown
  split <;> rfl

lemma engageSlowdown_pending (q : Query) : q.engageSlowdown.pending = q.pending := by
  unfold engageSlowdown
  split <;> rfl

/-- **What `read_more` does.** It goes at most two levels deep, and with enough fuel for the levels
that are left it does not run out of it. Either it takes quiet steps only, and then visits are in
flight or the query is done; or nothing is left to visit, and it goes on to `maybe_finish`.

**Proof sketch.** Induction on the fuel. The recursive call is made only after the frontier was
filled from the table, which sets `from_table_`, and a query with `from_table_` set does not
recurse. The loop stops for want of room, with visits in flight, or for want of candidates. -/
theorem readMoreAt_cases (env : Env) {fuel depth : ℕ} (hfuel : 3 ≤ fuel + depth)
    (hdepth : depth ≤ 2) {q : Query} (htable : depth = 2 → q.fromTable = true)
    (hlive : q.done = false → ¬ q.Ended) :
    (Quiets q (readMoreAt env fuel depth q) ∧
        (1 ≤ q.concurrency → (readMoreAt env fuel depth q).done = true ∨
          0 < (readMoreAt env fuel depth q).inflight)) ∨
      ∃ q', Quiets q q' ∧ q'.inflight ≤ 0 ∧ q'.pending = [] ∧
        readMoreAt env fuel depth q = q'.maybeFinish env := by
  induction fuel generalizing depth q with
  | zero => omega
  | succ fuel ih =>
    rw [readMoreAt]
    dsimp only
    have henter : Quiets q (q.emit (.readMore depth)) := .single (.enter q depth hdepth)
    split
    · rename_i hdone
      exact Or.inl ⟨henter, fun _ => Or.inl hdone⟩
    rename_i hdone
    have hdone : (q.emit (.readMore depth)).done = false := by simpa using hdone
    have hlive1 := henter.not_ended (hlive hdone)
    have htable1 : (q.emit (.readMore depth)).fromTable = q.fromTable := rfl
    generalize q.emit (.readMore depth) = q1 at hdone henter hlive1 htable1 ⊢
    have hpop : Quiets q1 (popLoop q1.effectiveConcurrency q1.pending q1).engageSlowdown :=
      (popLoop_quiets _ _ hdone hlive1 rfl).trans (engageSlowdown_quiets _)
    have hsame : (popLoop q1.effectiveConcurrency q1.pending q1).engageSlowdown.fromTable =
        q.fromTable := by
      rw [engageSlowdown_fromTable, popLoop_fromTable, htable1]
    have hroom := popLoop_pending q1.effectiveConcurrency q1.pending q1
    rw [← engageSlowdown_inflight, ← engageSlowdown_pending] at hroom
    generalize (popLoop q1.effectiveConcurrency q1.pending q1).engageSlowdown = q2
      at hpop hsame hroom ⊢
    have hall : Quiets q q2 := henter.trans hpop
    split
    · -- there are candidates left, so there was no room for another visit
      rename_i hpending
      refine Or.inl ⟨hall, fun hconcurrency => Or.inr ?_⟩
      have hlimit : 1 ≤ q1.effectiveConcurrency := by
        have hc : q1.concurrency = q.concurrency := henter.smalls.moves.sameConfig.concurrency
        unfold effectiveConcurrency slowdownConcurrency
        split <;> omega
      have := hroom (by simpa using hpending)
      omega
    rename_i hpending
    have hpending : q2.pending = [] := by simpa using hpending
    split
    · rename_i hinflight
      exact Or.inl ⟨hall, fun _ => Or.inr hinflight⟩
    rename_i hinflight
    split
    · rename_i hretry
      have hseeded : Quiets q (q2.seedFromTable env) := hall.trans (seedFromTable_quiets env q2)
      have htable3 := seedFromTable_fromTable env (q := q2) (by simp [hpending, K])
      rw [if_pos htable3]
      -- a frame at depth two has `from_table_` set, so only the outermost one gets here
      have hout : depth ≠ 2 := by
        intro h2
        have := htable h2
        simp_all
      have hconcurrency := hseeded.smalls.moves.sameConfig.concurrency
      rcases @ih (depth + 1) (by omega) (by omega) _ (fun _ => htable3)
        (fun _ => hseeded.not_ended (hlive (henter.sameFlags.done.symm.trans hdone))) with
        ⟨hquiets, hbusy⟩ | ⟨q', hquiets, h⟩
      · exact Or.inl ⟨hseeded.trans hquiets, fun h => hbusy (hconcurrency ▸ h)⟩
      · exact Or.inr ⟨q', hseeded.trans hquiets, h⟩
    · exact Or.inr ⟨q2, hall, by omega, hpending, rfl⟩

lemma readMore_cases (env : Env) {q : Query} (hlive : q.done = false → ¬ q.Ended) :
    (Quiets q (q.readMore env) ∧
        (1 ≤ q.concurrency → (q.readMore env).done = true ∨ 0 < (q.readMore env).inflight)) ∨
      ∃ q', Quiets q q' ∧ q'.inflight ≤ 0 ∧ q'.pending = [] ∧
        q.readMore env = q'.maybeFinish env :=
  readMoreAt_cases env (by decide) (by decide) (by simp) hlive

lemma readMore_rule (env : Env) {P : Query → Prop} (hquiets : ∀ q q', Quiets q q' → P q → P q')
    (hfinish : ∀ q, P q → P (q.maybeFinish env)) {q : Query}
    (hlive : q.done = false → ¬ q.Ended) (hq : P q) : P (q.readMore env) := by
  rcases readMore_cases env hlive with ⟨h, -⟩ | ⟨q', h, -, -, heq⟩
  · exact hquiets _ _ h hq
  · rw [heq]
    exact hfinish _ (hquiets _ _ h hq)

lemma readMore_spec (env : Env) {q : Query} (hlive : q.done = false → ¬ q.Ended)
    (hdispatching : q.dispatchingReply = false) :
    Smalls q (q.readMore env) ∧
      (q.CommittingEnded → 1 ≤ q.concurrency → (q.readMore env).Busy) ∧
      (q.Reported → (q.readMore env).Reported) := by
  refine ⟨?_, fun hcommitting hconcurrency => ?_, ?_⟩
  · refine readMore_rule env (P := fun q' => Smalls q q') ?_ ?_ hlive .refl
    · exact fun _ _ hquiets h => h.trans hquiets.smalls
    · intro q' h
      exact h.trans (maybeFinish_smalls env (h.dispatchingReply.trans hdispatching))
  · rcases readMore_cases env hlive with ⟨-, hbusy⟩ | ⟨q', hquiets, hinflight, hpending, heq⟩
    · exact (hbusy hconcurrency).imp_right Or.inr
    · rw [heq]
      exact maybeFinish_busy env (hquiets.smalls.moves.committingEnded hcommitting)
        (hquiets.sameFlags.dispatchingReply.trans hdispatching) hinflight hpending
  · exact readMore_rule env (fun _ _ h => h.reported) (fun _ => maybeFinish_reported env) hlive

/-! ## The entry points -/

lemma addSeedNode_quiets (q : Query) (node : PendingNode) : Quiets q (q.addSeedNode node) :=
  .single (.tune q q.fromTable q.slowdown q.successes q.errors (q.preSeeds ++ [node]))

lemma takeSeeds_quiets (env : Env) (q : Query) : Quiets q (q.takeSeeds env) :=
  (foldl_steps (addPending_quiets env) q _).tail (.tune _ _ _ _ _ [])

lemma topUp_quiets (env : Env) (q : Query) : Quiets q (q.topUp env) := by
  unfold topUp
  split
  · exact seedFromTable_quiets env q
  · exact .refl

lemma start_spec (env : Env) {q : Query} (hlive : ¬ q.Ended)
    (hdispatching : q.dispatchingReply = false) :
    Smalls q (q.start env) ∧ (q.CommittingEnded → 1 ≤ q.concurrency → (q.start env).Busy) ∧
      (q.Reported → (q.start env).Reported) := by
  have hseeds : Quiets q ((q.takeSeeds env).topUp env) :=
    (takeSeeds_quiets env q).trans (topUp_quiets env _)
  obtain ⟨hsmalls, hbusy, hreported⟩ := readMore_spec env (fun _ => hseeds.not_ended hlive)
    (hseeds.sameFlags.dispatchingReply.trans hdispatching)
  refine ⟨hseeds.smalls.trans hsmalls, fun hcommitting hconcurrency => hbusy ?_ ?_,
    fun hq => hreported (hseeds.reported hq)⟩
  · exact hseeds.smalls.moves.committingEnded hcommitting
  · rw [hseeds.smalls.moves.sameConfig.concurrency]
    exact hconcurrency

lemma addCloser_quiets (blake2b : List UInt8 → NodeId) (env : Env) (q : Query)
    (closer : Ipv4Address) : Quiets q (addCloser blake2b env q closer) := by
  unfold addCloser
  split
  · exact .refl
  · split
    · exact .refl
    · exact addPending_quiets env q _

lemma countResponse_quiets (q : Query) (resp : Response) : Quiets q (q.countResponse resp) := by
  unfold countResponse
  split
  · exact .single (.tune q q.fromTable q.slowdown (q.successes + 1) q.errors q.preSeeds)
  · exact .single (.tune q q.fromTable q.slowdown q.successes (q.errors + 1) q.preSeeds)

lemma offerReply_quiets {q : Query} (hlive : ¬ q.Ended) (resp : Response)
    (reply : QueryReply) : Quiets q (q.offerReply resp reply) := by
  unfold offerReply
  split
  · exact .single (.push q reply hlive)
  · exact .refl

lemma releaseSlowdown_quiets (q : Query) : Quiets q q.releaseSlowdown := by
  unfold releaseSlowdown
  split
  · exact .single (.tune q q.fromTable false q.successes q.errors q.preSeeds)
  · exact .refl

lemma absorb_quiets (blake2b : List UInt8 → NodeId) (env : Env) {q : Query} {node : PendingNode}
    (hseen : node.addr.hostPort ∈ q.seen.map Prod.fst) (hlive : ¬ q.Ended) (resp : Response) :
    Quiets q (q.absorb blake2b env node resp) := by
  have hmark : Quiets q (q.markSeen node .done) := .single (.mark q _ .done hseen)
  have hcount := hmark.trans (countResponse_quiets _ resp)
  have hoffer := hcount.trans
    (offerReply_quiets (Quiets.not_ended hcount hlive) resp (replyOf node resp))
  exact (hoffer.trans (foldl_steps (addCloser_quiets blake2b env) _ resp.closerNodes)).trans
    (releaseSlowdown_quiets _)

lemma iterate_destroy_closings (env : Env) (q : Query) (n : ℕ) :
    Closings q ((destroy env)^[n] q) := by
  induction n generalizing q with
  | zero => exact .refl
  | succ n ih => exact (destroy_closings env q).trans (ih (q.destroy env))

lemma dispatchReply_moves (env : Env) {q : Query} (hdone : q.done = false) (hlive : ¬ q.Ended)
    (hdispatching : q.dispatchingReply = false) (reply : QueryReply) :
    Moves q (q.dispatchReply env reply) ∧ ¬ (q.dispatchReply env reply).Ended := by
  have hdestroy := iterate_destroy_closings env
    ({ q with dispatchingReply := true }.emit (.replyEnter reply)) (env.onReply reply)
  have hsame := hdestroy.sameWalk
  unfold dispatchReply
  dsimp only
  constructor
  · refine ReflTransGen.head (.replyEnter q reply hdone hdispatching) ?_
    exact hdestroy.smalls.moves.tail (.replyExit _ hsame.dispatchingReply)
  · have hended : ¬ ((destroy env)^[env.onReply reply]
        ({ q with dispatchingReply := true }.emit (.replyEnter reply))).Ended := by
      rw [hsame.ended]
      simpa [Ended, emit] using hlive
    simpa [Ended, emit] using hended

/-- A deferred `on_done_` finds the query done. -/
def DeferredDone (q : Query) : Prop := q.pendingDone = true → q.done = true

lemma Moves.deferredDone {q q' : Query} (h : Moves q q') (hq : q.DeferredDone) :
    q'.DeferredDone := by
  induction h with
  | refl => exact hq
  | tail _ h ih =>
    cases h with
    | small h =>
      cases h with
      | quiet h =>
        have hflags := Quiets.sameFlags (.single h)
        rw [DeferredDone, hflags.pendingDone, hflags.done]
        exact ih
      | closing h =>
        cases h with
        | drain => exact fun h => absurd h (by simp)
        | destroy => exact fun _ => rfl
        | finish => exact fun _ => rfl
        | _ => exact ih
      | endCommit => exact ih
      | endDone => exact fun _ => rfl
    | replyEnter => exact ih
    | replyExit => exact ih

lemma dispatchReply_reported (env : Env) {q : Query} (hq : q.Reported) (reply : QueryReply) :
    (q.dispatchReply env reply).Reported := by
  have hiterate : ∀ (n : ℕ) (q : Query), q.Reported → ((destroy env)^[n] q).Reported := by
    intro n
    induction n with
    | zero => exact fun q hq => hq
    | succ n ih => exact fun q hq => ih _ (destroy_reported env hq)
  exact hiterate _ _ hq

lemma reply_spec (env : Env) {q : Query} (hdone : q.done = false) (hlive : ¬ q.Ended)
    (hdispatching : q.dispatchingReply = false) (reply : QueryReply) :
    Moves q (if q.hasOnReply then q.dispatchReply env reply else q) ∧
      ¬ (if q.hasOnReply then q.dispatchReply env reply else q).Ended ∧
      (if q.hasOnReply then q.dispatchReply env reply else q).dispatchingReply = false ∧
      (q.Reported → (if q.hasOnReply then q.dispatchReply env reply else q).Reported) := by
  split
  · obtain ⟨hmoves, hended⟩ := dispatchReply_moves env hdone hlive hdispatching reply
    exact ⟨hmoves, hended, rfl, fun hq => dispatchReply_reported env hq reply⟩
  · exact ⟨.refl, hlive, hdispatching, id⟩

/-- **What a response does**: small steps and a call of `on_reply_`, which has returned at the
end. The query is not left idle, and a deferred completion has been taken up. -/
theorem onVisitResponse_spec (blake2b : List UInt8 → NodeId) (env : Env) {q : Query}
    {node : PendingNode} (hseen : node.addr.hostPort ∈ q.seen.map Prod.fst) (hlive : ¬ q.Ended)
    (hdispatching : q.dispatchingReply = false) (hsettled : q.Settled) (resp : Response) :
    Moves q (q.onVisitResponse blake2b env node resp) ∧
      (q.onVisitResponse blake2b env node resp).dispatchingReply = false ∧
      (q.CommittingEnded → 1 ≤ q.concurrency →
        (q.onVisitResponse blake2b env node resp).Busy) ∧
      (q.onVisitResponse blake2b env node resp).Settled := by
  have hdeferred : q.DeferredDone := fun h => by simp [hsettled.1] at h
  unfold onVisitResponse
  split
  · rename_i hdone
    exact ⟨.refl, hdispatching, fun _ _ => Or.inl hdone, hsettled⟩
  rename_i hdone
  dsimp only
  have habsorb := absorb_quiets blake2b env hseen hlive resp
  have hflags := habsorb.sameFlags
  generalize q.absorb blake2b env node resp = q1 at habsorb hflags ⊢
  obtain ⟨hreply, hlive2, hdispatching2, hreported2⟩ := @reply_spec env q1
    (hflags.done.trans (by simpa using hdone)) (habsorb.not_ended hlive)
    (hflags.dispatchingReply.trans hdispatching) (replyOf node resp)
  generalize (if q1.hasOnReply then q1.dispatchReply env (replyOf node resp) else q1) = q2
    at hreply hlive2 hdispatching2 hreported2 ⊢
  have hbefore : Moves q q2 := habsorb.smalls.moves.trans hreply
  obtain ⟨hmore, hbusy, hreported⟩ := readMore_spec env (fun _ => hlive2) hdispatching2
  have hmoves : Moves q (q2.readMore env) := hbefore.trans hmore.moves
  have hdispatching3 := hmore.dispatchingReply.trans hdispatching2
  have hbusy3 : q.CommittingEnded → 1 ≤ q.concurrency → (q2.readMore env).Busy := by
    intro hcommitting hconcurrency
    refine hbusy (hbefore.committingEnded hcommitting) ?_
    rw [hbefore.sameConfig.concurrency]
    exact hconcurrency
  split
  · rename_i hpending
    have hdone3 := hmoves.deferredDone hdeferred hpending
    have hfire : Closings { q2.readMore env with pendingDone := false }
        (fireDoneOnce env { q2.readMore env with pendingDone := false }) := by
      apply fireDoneOnce_closings
      · exact hdone3
      · exact hdispatching3
    have hall : Closings (q2.readMore env)
        (fireDoneOnce env { q2.readMore env with pendingDone := false }) :=
      ReflTransGen.head (.drain _) hfire
    refine ⟨hmoves.trans hall.smalls.moves, hall.sameWalk.dispatchingReply.trans hdispatching3,
      fun h1 h2 => hall.busy (hbusy3 h1 h2), ?_⟩
    refine Reported.settled (fireDoneOnce_reported env ?_) (hfire.smalls.pendingDone ?_ rfl)
    · exact hdone3
    · exact hdispatching3
  · rename_i hpending
    exact ⟨hmoves, hdispatching3, hbusy3,
      (hreported (hreported2 (habsorb.reported hsettled.reported))).settled (by simpa using hpending)⟩

lemma onVisitTimeout_spec (env : Env) {q : Query} {node : PendingNode}
    (hseen : node.addr.hostPort ∈ q.seen.map Prod.fst) (hlive : ¬ q.Ended)
    (hdispatching : q.dispatchingReply = false) :
    Smalls q (q.onVisitTimeout env node) ∧
      (q.CommittingEnded → 1 ≤ q.concurrency → (q.onVisitTimeout env node).Busy) ∧
      (q.Reported → (q.onVisitTimeout env node).Reported) := by
  unfold onVisitTimeout
  split
  · rename_i hdone
    exact ⟨.refl, fun _ _ => Or.inl hdone, id⟩
  · have hmark : Quiets q { q.markSeen node .down with errors := q.errors + 1 } :=
      ReflTransGen.head (.mark q _ .down hseen)
        (.single (.tune _ q.fromTable q.slowdown q.successes (q.errors + 1) q.preSeeds))
    obtain ⟨hsmalls, hbusy, hreported⟩ := @readMore_spec env
      { q.markSeen node .down with errors := q.errors + 1 } (fun _ => hlive) hdispatching
    exact ⟨hmark.smalls.trans hsmalls, hbusy, hreported⟩

end HyperDHT.Query
