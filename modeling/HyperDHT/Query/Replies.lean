import HyperDHT.Query.Completeness

/-!
# The closest replies of a query

Which calls change the closest replies: only a response to a visit, which offers one reply. A reply
that is offered is kept if it is closer than the last of `K` and no other has its id.

## Main definitions

* `Query.SameReplies` — the closest replies are as they were.
* `Query.Ranked` — the closest replies are in order, and at most `K`.
* `Query.Fits` — an id has a place among the closest replies.

## Main results

* `Query.mem_pushClosest_iff` — what is among the closest replies after one was offered.
* `Query.visitAnswered_replies` — what a response to a visit makes of them.
-/

set_option autoImplicit false

namespace HyperDHT.Query

open Compact Routing Rpc

/-! ## What leaves them -/

/-- The closest replies, and the target that orders them, are as they were. -/
structure SameReplies (q q' : Query) : Prop where
  closestReplies : q'.closestReplies = q.closestReplies
  target : q'.target = q.target

namespace SameReplies

lemma refl (q : Query) : SameReplies q q := ⟨rfl, rfl⟩

lemma trans {q₁ q₂ q₃ : Query} (h : SameReplies q₁ q₂) (h' : SameReplies q₂ q₃) :
    SameReplies q₁ q₃ :=
  ⟨h'.closestReplies.trans h.closestReplies, h'.target.trans h.target⟩

lemma after {q q₁ q₂ : Query} (h : SameReplies q₁ q₂)
    (hclosest : q₁.closestReplies = q.closestReplies) (htarget : q₁.target = q.target) :
    SameReplies q q₂ :=
  trans ⟨hclosest, htarget⟩ h

lemma foldl {α : Type*} {f : Query → α → Query} (hf : ∀ q a, SameReplies q (f q a)) (q : Query)
    (l : List α) : SameReplies q (l.foldl f q) := by
  induction l generalizing q with
  | nil => exact refl q
  | cons a l ih => exact (hf q a).trans (ih (f q a))

lemma iterate {f : Query → Query} (hf : ∀ q, SameReplies q (f q)) (n : ℕ) (q : Query) :
    SameReplies q (f^[n] q) := by
  induction n generalizing q with
  | zero => exact refl q
  | succ n ih => exact (hf q).trans (ih (f q))

end SameReplies

lemma addPending_sameReplies (env : Env) (q : Query) (node : PendingNode) :
    SameReplies q (addPending env q node) := by
  unfold addPending
  dsimp only
  split_ifs <;> exact ⟨rfl, rfl⟩

lemma seedFromTable_sameReplies (env : Env) (q : Query) :
    SameReplies q (q.seedFromTable env) := by
  unfold seedFromTable
  split
  · exact .refl q
  · exact (SameReplies.foldl (addPending_sameReplies env) _ _).after rfl rfl

lemma destroyWith_sameReplies {fire : Query → Query} (hfire : ∀ q, SameReplies q (fire q))
    (q : Query) : SameReplies q (destroyWith fire q) := by
  unfold destroyWith
  dsimp only
  split
  · exact ⟨rfl, rfl⟩
  · split
    · exact ⟨rfl, rfl⟩
    · exact (hfire _).after rfl rfl

lemma fireDoneOnce_sameReplies (env : Env) (q : Query) : SameReplies q (fireDoneOnce env q) := by
  unfold fireDoneOnce
  split
  · exact (SameReplies.iterate (destroyWith_sameReplies SameReplies.refl) _ _).after rfl rfl
  · exact .refl q

lemma destroy_sameReplies (env : Env) (q : Query) : SameReplies q (q.destroy env) :=
  destroyWith_sameReplies (fireDoneOnce_sameReplies env) q

lemma finish_sameReplies (env : Env) (q : Query) : SameReplies q (fireDoneOnce env q.setDone) :=
  (fireDoneOnce_sameReplies env _).after rfl rfl

lemma commitDone_sameReplies (env : Env) (q : Query) : SameReplies q (q.commitDone env) := by
  unfold commitDone
  dsimp only
  split
  · exact (finish_sameReplies env _).after rfl rfl
  · exact ⟨rfl, rfl⟩

lemma commitReply_sameReplies (env : Env) (q : Query) (reply : QueryReply) :
    SameReplies q (q.commitReply env reply) := by
  have hact : ∀ q act, SameReplies q (commitAct env q act) := fun q act => by
    cases act with
    | destroy => exact destroy_sameReplies env q
    | done => exact commitDone_sameReplies env q
    | request => exact ⟨rfl, rfl⟩
  unfold commitReply
  split
  · exact .refl q
  · exact (SameReplies.foldl hact _ _).after rfl rfl

lemma doCommit_sameReplies (env : Env) (q : Query) : SameReplies q (q.doCommit env) := by
  unfold doCommit
  dsimp only
  split
  · exact (finish_sameReplies env _).after rfl rfl
  · have hfold : SameReplies q
        (q.beginCommit.closestReplies.foldl (commitReply env) q.beginCommit) :=
      (SameReplies.foldl (commitReply_sameReplies env) _ _).after rfl rfl
    split
    · exact hfold.trans (finish_sameReplies env _)
    · exact hfold

lemma maybeFinish_sameReplies (env : Env) (q : Query) : SameReplies q (q.maybeFinish env) := by
  unfold maybeFinish
  split
  · exact .refl q
  · split
    · exact .refl q
    · split
      · exact .refl q
      · dsimp only
        split
        · exact (doCommit_sameReplies env _).after rfl rfl
        · exact (finish_sameReplies env _).after rfl rfl

lemma popLoop_sameReplies (limit : ℤ) (nodes : List PendingNode) (q : Query) :
    SameReplies q (popLoop limit nodes q) := by
  induction nodes generalizing q with
  | nil => exact ⟨rfl, rfl⟩
  | cons next rest ih =>
    unfold popLoop
    split
    · dsimp only
      split
      · exact (ih _).after rfl rfl
      · exact (ih _).after rfl rfl
    · exact ⟨rfl, rfl⟩

lemma engageSlowdown_sameReplies (q : Query) : SameReplies q q.engageSlowdown := by
  unfold engageSlowdown
  split <;> exact ⟨rfl, rfl⟩

lemma readMoreAt_sameReplies (env : Env) (fuel depth : ℕ) (q : Query) :
    SameReplies q (readMoreAt env fuel depth q) := by
  induction fuel generalizing depth q with
  | zero => exact ⟨rfl, rfl⟩
  | succ fuel ih =>
    have hpop : ∀ q : Query, SameReplies q
        (popLoop q.effectiveConcurrency q.pending q).engageSlowdown := fun q =>
      (popLoop_sameReplies _ _ q).trans (engageSlowdown_sameReplies _)
    have hentered : SameReplies q (q.emit (.readMore depth)) := ⟨rfl, rfl⟩
    have hpopped := hentered.trans (hpop _)
    have hseeded := hpopped.trans (seedFromTable_sameReplies env _)
    unfold readMoreAt
    dsimp only
    split
    · exact hentered
    · split
      · exact hpopped
      · split
        · exact hpopped
        · split
          · split
            · exact hseeded.trans (ih _ _)
            · exact hseeded.trans (maybeFinish_sameReplies env _)
          · exact hpopped.trans (maybeFinish_sameReplies env _)

lemma readMore_sameReplies (env : Env) (q : Query) : SameReplies q (q.readMore env) :=
  readMoreAt_sameReplies env _ _ q

lemma start_sameReplies (env : Env) (q : Query) : SameReplies q (q.start env) := by
  have hseeds : SameReplies q (q.takeSeeds env) :=
    (SameReplies.foldl (addPending_sameReplies env) q _).trans ⟨rfl, rfl⟩
  have htop : SameReplies (q.takeSeeds env) ((q.takeSeeds env).topUp env) := by
    unfold topUp
    split
    · exact seedFromTable_sameReplies env _
    · exact .refl _
  exact (hseeds.trans htop).trans (readMore_sameReplies env _)

lemma visitTimedOut_sameReplies (env : Env) (q : Query) (node : PendingNode) :
    SameReplies q (q.visitTimedOut env node) := by
  unfold visitTimedOut onVisitTimeout
  split
  · exact ⟨rfl, rfl⟩
  · exact (readMore_sameReplies env _).after rfl rfl

lemma dispatchReply_sameReplies (env : Env) (q : Query) (reply : QueryReply) :
    SameReplies q (q.dispatchReply env reply) := by
  have hdestroyed := SameReplies.iterate (destroy_sameReplies env) (env.onReply reply)
    ({ q with dispatchingReply := true }.emit (.replyEnter reply))
  exact ⟨hdestroyed.closestReplies, hdestroyed.target⟩

lemma addCloser_sameReplies (blake2b : List UInt8 → NodeId) (env : Env) (q : Query)
    (closer : Ipv4Address) : SameReplies q (addCloser blake2b env q closer) := by
  unfold addCloser
  split_ifs
  · exact .refl q
  · exact .refl q
  · exact addPending_sameReplies env q _

/-! ## What a response makes of them -/

lemma SameReplies.offerReply {q q' : Query} (h : SameReplies q q') (resp : Response)
    (reply : QueryReply) : SameReplies (q.offerReply resp reply) (q'.offerReply resp reply) := by
  have hcompare : ∀ a b, q'.compare a b = q.compare a b := fun a b => by
    unfold compare
    rw [h.target]
  have hloop : ∀ n l, q'.pushClosestLoop reply n l = q.pushClosestLoop reply n l := by
    intro n
    induction n with
    | zero => exact fun _ => rfl
    | succ n ih =>
      intro l
      rw [pushClosestLoop, pushClosestLoop]
      simp only [hcompare, ih]
  unfold Query.offerReply
  split
  · refine ⟨?_, h.target⟩
    simp only [pushClosest, h.closestReplies, hloop]
  · exact h

/-- **What a response to a visit makes of the closest replies**: the reply is offered, unless the
query is done. -/
theorem visitAnswered_replies (blake2b : List UInt8 → NodeId) (env : Env) (q : Query)
    (node : PendingNode) (resp : Response) :
    SameReplies (if q.done then q else q.offerReply resp (replyOf node resp))
      (q.visitAnswered blake2b env node resp) := by
  unfold visitAnswered onVisitResponse
  have hdone : q.visitBack.done = q.done := rfl
  rw [hdone]
  split
  · exact ⟨rfl, rfl⟩
  · have hbefore : SameReplies q ((q.visitBack.markSeen node .done).countResponse resp) := by
      unfold countResponse
      split <;> exact ⟨rfl, rfl⟩
    have hrelease : ∀ q : Query, SameReplies q q.releaseSlowdown := fun q => by
      unfold releaseSlowdown
      split <;> exact ⟨rfl, rfl⟩
    have habsorb : SameReplies (q.offerReply resp (replyOf node resp))
        (q.visitBack.absorb blake2b env node resp) :=
      ((hbefore.offerReply resp _).trans
        (SameReplies.foldl (addCloser_sameReplies blake2b env) _ _)).trans (hrelease _)
    dsimp only
    generalize q.visitBack.absorb blake2b env node resp = q₁ at habsorb ⊢
    have hreply : SameReplies (q.offerReply resp (replyOf node resp))
        (if q₁.hasOnReply then q₁.dispatchReply env (replyOf node resp) else q₁) := by
      split
      · exact habsorb.trans (dispatchReply_sameReplies env _ _)
      · exact habsorb
    generalize (if q₁.hasOnReply then q₁.dispatchReply env (replyOf node resp) else q₁) = q₂
      at hreply ⊢
    have hmore := hreply.trans (readMore_sameReplies env _)
    split
    · exact hmore.trans ((fireDoneOnce_sameReplies env _).after rfl rfl)
    · exact hmore

/-! ## Which replies are kept -/

/-- The closest replies are in order, and at most `K`. -/
structure Ranked (q : Query) : Prop where
  sorted : TopK.Sorted q.distance q.closestReplies
  length_le : q.closestReplies.length ≤ K

lemma Ranked.of_same {q q' : Query} (h : Ranked q) (hsame : SameReplies q q') : Ranked q' := by
  have hdistance : q'.distance = q.distance := by
    unfold distance
    rw [hsame.target]
  constructor
  · rw [hdistance, hsame.closestReplies]
    exact h.sorted
  · rw [hsame.closestReplies]
    exact h.length_le

lemma Ranked.pushClosest {q : Query} (h : Ranked q) (reply : QueryReply) :
    Ranked (q.pushClosest reply) := by
  have hpush := pushClosest_eq h.sorted h.length_le reply
  have hdistance : (q.pushClosest reply).distance = q.distance := rfl
  constructor
  · rw [hdistance, hpush]
    exact TopK.sorted_push h.sorted reply
  · rw [hpush]
    exact TopK.length_push_le _ _ _

lemma Ranked.offerReply {q : Query} (h : Ranked q) (resp : Response) (reply : QueryReply) :
    Ranked (q.offerReply resp reply) := by
  unfold Query.offerReply
  split
  · exact h.pushClosest reply
  · exact h

lemma ranked_create (target : NodeId) (command : UInt32) (value : Option (List UInt8))
    (opts : Options) : Ranked (create target command value opts) :=
  ⟨List.Pairwise.nil, Nat.zero_le _⟩

/-- An id has a place among the closest replies: none of them has it, and they are not yet `K` or
the last of them is farther away. -/
def Fits (q : Query) (id : NodeId) : Prop :=
  (∀ r ∈ q.closestReplies, q.compare r.fromId id ≠ 0) ∧ q.isCloser id = true

lemma mem_of_mem_pushClosest {q : Query} (h : Ranked q) {r reply : QueryReply}
    (hr : r ∈ (q.pushClosest reply).closestReplies) : r = reply ∨ r ∈ q.closestReplies := by
  rw [pushClosest_eq h.sorted h.length_le] at hr
  exact TopK.mem_insertKey (List.mem_of_mem_take hr)

/-- **A reply that is offered is kept** if its id has a place among the closest ones. -/
theorem mem_pushClosest_iff {q : Query} (h : Ranked q) (reply : QueryReply) :
    reply ∈ (q.pushClosest reply).closestReplies ↔
      reply ∈ q.closestReplies ∨ q.Fits reply.fromId := by
  have hnear : q.isCloser reply.fromId = true ↔
      ¬ TopK.Beyond q.distance K q.closestReplies (q.distance reply) := by
    rw [← Bool.not_eq_false, isCloser_eq_false_iff h.sorted h.length_le]
    rfl
  rw [pushClosest_eq h.sorted h.length_le, TopK.mem_push_self_iff h.sorted h.length_le, Fits, hnear]
  refine or_congr_right (and_congr_left fun _ => forall₂_congr fun r _ => ?_)
  exact (compare_eq_zero_iff q r reply).not.symm

end HyperDHT.Query
