import HyperDHT.Ops.Basic
import HyperDHT.Query.Walk

/-!
# The commits of a query are counted

With the commit functions that the operations install, every commit is one request, so the counter of
commits is the number of commit requests that were sent and not answered. A query that commits and is
not done has some.

## Main definitions

* `Ops.Commits` — the counter of commits is right, given the number of those that wait elsewhere.

## Main results

* `Ops.Commits.start`, `visitAnswered`, `visitTimedOut`, `destroy` — the entry points keep the count.
* `Ops.Commits.commitDone` — an answer takes one off.
-/

set_option autoImplicit false

namespace HyperDHT.Ops

open Compact Routing Rpc Query

/-- The number of commits among requests that are to be handed over. -/
def commitCalls (calls : List Call) : ℕ := (calls.map (·.purpose)).count .commit

@[simp] lemma commitCalls_nil : commitCalls [] = 0 := rfl

@[simp] lemma commitCalls_append (a b : List Call) :
    commitCalls (a ++ b) = commitCalls a + commitCalls b := by
  simp [commitCalls]

@[simp] lemma commitCalls_visit (node : PendingNode) (req : Request) :
    commitCalls [Call.mk (.visit node) req] = 0 := by
  simp [commitCalls]

@[simp] lemma commitCalls_commit (req : Request) : commitCalls [Call.mk .commit req] = 1 := by
  simp [commitCalls]

/-- The counter of commits is the number of those that wait, `waiting` of them already with the
socket. A query that does not commit has none, and one that commits and is not done has some. -/
structure Commits (cb : Callbacks) (waiting : ℕ) (q : Query) : Prop where
  hasOnCommit : q.hasOnCommit = cb.commit.isSome
  count : q.commitInflight = waiting + commitCalls q.outbox
  idle : q.committing = false → q.commitInflight = 0
  busy : q.committing = true → q.done = false → 0 < q.commitInflight

variable {cb : Callbacks} {waiting : ℕ} {q q' : Query}

lemma quiets_commitCalls (h : Quiets q q') : commitCalls q'.outbox = commitCalls q.outbox := by
  induction h with
  | refl => rfl
  | tail _ h ih =>
    refine Eq.trans ?_ ih
    cases h with
    | visit => simp [Query.visit, emit]
    | _ => rfl

lemma Commits.quiets (hq : Commits cb waiting q) (h : Quiets q q') : Commits cb waiting q' := by
  have hflags := h.sameFlags
  constructor
  · rw [h.smalls.moves.sameConfig.hasOnCommit]
    exact hq.hasOnCommit
  · rw [hflags.commitInflight, quiets_commitCalls h]
    exact hq.count
  · rw [hflags.committing, hflags.commitInflight]
    exact hq.idle
  · rw [hflags.committing, hflags.done, hflags.commitInflight]
    exact hq.busy

lemma Commits.fireDoneOnce (hq : Commits cb waiting q) (hdone : q.done = true) (env : Env) :
    Commits cb waiting (fireDoneOnce env q) := by
  unfold Query.fireDoneOnce
  split
  · rw [iterate_destroyWith_of_done]
    · exact ⟨hq.hasOnCommit, hq.count, hq.idle, hq.busy⟩
    · exact hdone
  · exact hq

lemma Commits.finish (hhas : q.hasOnCommit = cb.commit.isSome)
    (hcount : q.commitInflight = waiting + commitCalls q.outbox)
    (hidle : q.committing = false → q.commitInflight = 0) (env : Env) :
    Commits cb waiting (Query.fireDoneOnce env q.setDone) := by
  have hdone : Commits cb waiting q.setDone := ⟨hhas, hcount, hidle, nofun⟩
  exact hdone.fireDoneOnce rfl env

lemma Commits.destroy (hq : Commits cb waiting q) (env : Env) :
    Commits cb waiting (q.destroy env) := by
  unfold Query.destroy destroyWith
  dsimp only
  split
  · exact ⟨hq.hasOnCommit, hq.count, hq.idle, hq.busy⟩
  · split
    · exact ⟨hq.hasOnCommit, hq.count, nofun, nofun⟩
    · refine Commits.finish ?_ ?_ ?_ env
      · exact hq.hasOnCommit
      · exact hq.count
      · exact nofun

/-! ## The commits -/

lemma commitReply_count {c : CommitRequest} (hc : cb.commit = some c) (env : Env)
    (hcount : q.commitInflight = waiting + commitCalls q.outbox) (reply : QueryReply) :
    (commitReply (cb.install env) q reply).commitInflight =
        waiting + commitCalls (commitReply (cb.install env) q reply).outbox ∧
      (commitReply (cb.install env) q reply).committing = q.committing ∧
      (commitReply (cb.install env) q reply).hasOnCommit = q.hasOnCommit := by
  unfold commitReply
  split
  · exact ⟨hcount, rfl, rfl⟩
  · refine ⟨?_, ?_, ?_⟩
    · simp [Callbacks.install, hc, commitAct, emit, hcount, add_assoc]
    · simp [Callbacks.install, hc, commitAct, emit]
    · simp [Callbacks.install, hc, commitAct, emit]

lemma foldl_commitReply_count {c : CommitRequest} (hc : cb.commit = some c) (env : Env)
    (replies : List QueryReply) (hcount : q.commitInflight = waiting + commitCalls q.outbox) :
    (replies.foldl (commitReply (cb.install env)) q).commitInflight =
        waiting + commitCalls (replies.foldl (commitReply (cb.install env)) q).outbox ∧
      (replies.foldl (commitReply (cb.install env)) q).committing = q.committing ∧
      (replies.foldl (commitReply (cb.install env)) q).hasOnCommit = q.hasOnCommit := by
  induction replies generalizing q with
  | nil => exact ⟨hcount, rfl, rfl⟩
  | cons reply replies ih =>
    obtain ⟨h1, h2, h3⟩ := commitReply_count hc env hcount reply
    obtain ⟨h1', h2', h3'⟩ := ih h1
    exact ⟨h1', h2'.trans h2, h3'.trans h3⟩

lemma Commits.doCommit {c : CommitRequest} (hc : cb.commit = some c)
    (hq : Commits cb waiting q) (hcommitting : q.committing = false) (env : Env) :
    Commits cb waiting (q.doCommit (cb.install env)) := by
  have hnone : (waiting : ℤ) + commitCalls q.outbox = 0 := by
    rw [← hq.count]
    exact hq.idle hcommitting
  have hbegun : q.beginCommit.commitInflight = waiting + commitCalls q.beginCommit.outbox :=
    hnone.symm
  have hhas : q.beginCommit.hasOnCommit = cb.commit.isSome := hq.hasOnCommit
  have hcommitting' : q.beginCommit.committing = true := rfl
  unfold Query.doCommit
  dsimp only
  generalize q.beginCommit = q1 at hbegun hhas hcommitting' ⊢
  split
  · exact .finish hhas hbegun (fun h => by simp [hcommitting'] at h) _
  · obtain ⟨h1, h2, h3⟩ := foldl_commitReply_count hc env q1.closestReplies hbegun
    generalize q1.closestReplies.foldl (commitReply (cb.install env)) q1 = q2 at h1 h2 h3 ⊢
    have hcommitting2 : q2.committing = true := h2.trans hcommitting'
    split
    · exact .finish (h3.trans hhas) h1 (fun h => by simp [hcommitting2] at h) _
    · next hsome =>
      refine ⟨h3.trans hhas, h1, fun h => by simp [hcommitting2] at h, fun _ _ => ?_⟩
      omega

lemma Commits.maybeFinish (hq : Commits cb waiting q) (env : Env) :
    Commits cb waiting (q.maybeFinish (cb.install env)) := by
  unfold Query.maybeFinish
  split
  · exact hq
  next hflags =>
  simp only [Bool.or_eq_true, not_or, Bool.not_eq_true] at hflags
  split
  · exact hq
  split
  · exact hq
  have hended : Commits cb waiting (q.emit (.ended q.closestReplies)) :=
    ⟨hq.hasOnCommit, hq.count, hq.idle, hq.busy⟩
  dsimp only
  split
  · next hhas =>
    obtain ⟨c, hc⟩ := Option.isSome_iff_exists.1 (hended.hasOnCommit.symm.trans hhas)
    exact hended.doCommit hc hflags.2 env
  · exact .finish hended.hasOnCommit hended.count hended.idle _

/-! ## The entry points -/

lemma Commits.readMore (hq : Commits cb waiting q) (hlive : q.done = false → ¬ q.Ended)
    (env : Env) : Commits cb waiting (q.readMore (cb.install env)) :=
  readMore_rule (cb.install env) (fun _ _ hquiets hq => hq.quiets hquiets)
    (fun _ hq => hq.maybeFinish env) hlive hq

lemma Commits.start (hq : Commits cb waiting q) (hlive : ¬ q.Ended) (env : Env) :
    Commits cb waiting (q.start (cb.install env)) := by
  have hseeds : Quiets q ((q.takeSeeds (cb.install env)).topUp (cb.install env)) :=
    (takeSeeds_quiets _ q).trans (topUp_quiets _ _)
  exact (hq.quiets hseeds).readMore (fun _ => hseeds.not_ended hlive) env

lemma Commits.dispatchReply (hq : Commits cb waiting q) (env : Env) (reply : QueryReply) :
    Commits cb waiting (q.dispatchReply env reply) := by
  have hiterate : ∀ (n : ℕ) (q : Query), Commits cb waiting q →
      Commits cb waiting ((Query.destroy env)^[n] q) := by
    intro n
    induction n with
    | zero => exact fun q hq => hq
    | succ n ih => exact fun q hq => ih _ (hq.destroy env)
  have hcalled := hiterate (env.onReply reply)
    ({ q with dispatchingReply := true }.emit (.replyEnter reply))
    ⟨hq.hasOnCommit, hq.count, hq.idle, hq.busy⟩
  exact ⟨hcalled.hasOnCommit, hcalled.count, hcalled.idle, hcalled.busy⟩

lemma Commits.visitAnswered (blake2b : List UInt8 → NodeId) {node : PendingNode}
    (hq : Commits cb waiting q) (hseen : node.addr.hostPort ∈ q.seen.map Prod.fst)
    (hlive : ¬ q.Ended) (hdispatching : q.dispatchingReply = false) (hsettled : q.Settled)
    (env : Env) (resp : Response) :
    Commits cb waiting (q.visitAnswered blake2b (cb.install env) node resp) := by
  have hback : Commits cb waiting q.visitBack := ⟨hq.hasOnCommit, hq.count, hq.idle, hq.busy⟩
  have hdeferred : q.visitBack.DeferredDone := fun h => by
    have hnone : q.pendingDone = false := hsettled.1
    simp [visitBack, hnone] at h
  have hlive' : ¬ q.visitBack.Ended := hlive
  have hseen' : node.addr.hostPort ∈ q.visitBack.seen.map Prod.fst := hseen
  have hdispatching' : q.visitBack.dispatchingReply = false := hdispatching
  unfold Query.visitAnswered onVisitResponse
  generalize q.visitBack = q0 at hback hdeferred hlive' hseen' hdispatching' ⊢
  split
  · exact hback
  next hdone =>
  dsimp only
  have habsorb := absorb_quiets blake2b (cb.install env) hseen' hlive' resp
  have habsorbed := hback.quiets habsorb
  have hflags := habsorb.sameFlags
  generalize q0.absorb blake2b (cb.install env) node resp = q1 at habsorb habsorbed hflags ⊢
  obtain ⟨hreply, hlive2, hdispatching2, -⟩ := @reply_spec (cb.install env) q1
    (hflags.done.trans (by simpa using hdone)) (habsorb.not_ended hlive')
    (hflags.dispatchingReply.trans hdispatching') (replyOf node resp)
  have hreplied : Commits cb waiting
      (if q1.hasOnReply then q1.dispatchReply (cb.install env) (replyOf node resp) else q1) := by
    split
    · exact habsorbed.dispatchReply (cb.install env) (replyOf node resp)
    · exact habsorbed
  generalize (if q1.hasOnReply then q1.dispatchReply (cb.install env) (replyOf node resp) else q1)
    = q2 at hreply hlive2 hdispatching2 hreplied ⊢
  have hmore := hreplied.readMore (fun _ => hlive2) env
  obtain ⟨hsmalls, -, -⟩ := readMore_spec (cb.install env) (fun _ => hlive2) hdispatching2
  split
  · next hpending =>
    -- a completion that was deferred finds the query done
    have hmoves : Moves q0 (q2.readMore (cb.install env)) :=
      (habsorb.smalls.moves.trans hreply).trans hsmalls.moves
    have hdone3 := hmoves.deferredDone hdeferred hpending
    refine Commits.fireDoneOnce ?_ ?_ (cb.install env)
    · exact ⟨hmore.hasOnCommit, hmore.count, hmore.idle, hmore.busy⟩
    · exact hdone3
  · exact hmore

lemma Commits.visitTimedOut {node : PendingNode} (hq : Commits cb waiting q) (hlive : ¬ q.Ended)
    (env : Env) : Commits cb waiting (q.visitTimedOut (cb.install env) node) := by
  unfold Query.visitTimedOut onVisitTimeout
  split
  · exact ⟨hq.hasOnCommit, hq.count, hq.idle, hq.busy⟩
  · refine Commits.readMore ?_ ?_ env
    · exact ⟨hq.hasOnCommit, hq.count, hq.idle, hq.busy⟩
    · exact fun _ => hlive

lemma Commits.commitDone (hq : Commits cb (waiting + 1) q) (env : Env) :
    Commits cb waiting (q.commitDone env) := by
  have hcount := hq.count
  push_cast at hcount
  have hcommitting : q.committing = true := by
    by_contra hnot
    have := hq.idle (by simpa using hnot)
    omega
  unfold Query.commitDone
  dsimp only
  split
  · refine Commits.finish ?_ ?_ ?_ env
    · exact hq.hasOnCommit
    · show q.commitInflight - 1 = waiting + commitCalls q.outbox
      omega
    · intro h
      exact absurd hcommitting (by simpa using h)
  · next hsome =>
    refine ⟨hq.hasOnCommit, ?_, fun h => absurd hcommitting (by simpa using h), fun _ _ => ?_⟩
    · show q.commitInflight - 1 = waiting + commitCalls q.outbox
      omega
    · show 0 < q.commitInflight - 1
      omega

end HyperDHT.Ops
