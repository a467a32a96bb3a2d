import HyperDHT.Lib.Runs
import HyperDHT.Query.Steps

/-!
# Walks at rest

Between two inputs a query is at rest: nothing of it is on the stack, and its counter of visits
in flight is the number of visits that wait for an answer. Every input takes the query from rest
to rest by small steps, so what the small steps keep holds in every state of every walk.

## Main definitions

* `Query.Sound` — what the small steps keep of the bookkeeping of a query.
* `Walk.Rest` — a walk between two inputs.

## Main results

* `Walk.rest_run` — every walk is at rest between inputs.
* `Walk.query_invariant` — what the small steps keep holds along every walk.
-/

set_option autoImplicit false

namespace HyperDHT

open Compact Routing Rpc Relation

namespace Query

/-! ## The map of seen addresses -/

lemma map_fst_setSeen_of_notMem {seen : List (List Char × NodeState)} {key : List Char}
    (h : key ∉ seen.map Prod.fst) (state : NodeState) :
    (setSeen seen key state).map Prod.fst = seen.map Prod.fst ++ [key] := by
  induction seen with
  | nil => rfl
  | cons entry seen ih =>
    obtain ⟨k, s⟩ := entry
    simp only [List.map_cons, List.mem_cons, not_or] at h
    rw [setSeen, if_neg (fun hk => h.1 hk.symm)]
    simp [ih h.2]

lemma map_fst_setSeen_of_mem {seen : List (List Char × NodeState)} {key : List Char}
    (h : key ∈ seen.map Prod.fst) (state : NodeState) :
    (setSeen seen key state).map Prod.fst = seen.map Prod.fst := by
  induction seen with
  | nil => simp at h
  | cons entry seen ih =>
    obtain ⟨k, s⟩ := entry
    rw [setSeen]
    split
    · rfl
    · rename_i hk
      have hmem : key ∈ seen.map Prod.fst := by
        rcases List.mem_cons.1 h with rfl | h
        · exact absurd rfl hk
        · exact h
      simp [ih hmem]

/-- The addresses a query has seen. -/
def seenKeys (q : Query) : List (List Char) := q.seen.map Prod.fst

lemma Move.seenKeys_prefix {q q' : Query} (h : Move q q') : q.seenKeys <+: q'.seenKeys := by
  cases h with
  | small h =>
    cases h with
    | quiet h =>
      cases h with
      | accept node hnew =>
        simp only [seenKeys, emit, map_fst_setSeen_of_notMem hnew]
        exact List.prefix_append _ _
      | mark key state hseen =>
        simp only [seenKeys, map_fst_setSeen_of_mem hseen]
        exact List.prefix_rfl
      | _ => exact List.prefix_rfl
    | closing h => cases h <;> exact List.prefix_rfl
    | _ => exact List.prefix_rfl
  | replyEnter => exact List.prefix_rfl
  | replyExit => exact List.prefix_rfl

lemma Moves.seenKeys_prefix {q q' : Query} (h : Moves q q') : q.seenKeys <+: q'.seenKeys := by
  induction h with
  | refl => exact List.prefix_rfl
  | tail _ h ih => exact ih.trans h.seenKeys_prefix

/-! ## The bookkeeping -/

/-- The bookkeeping of a query. -/
structure Sound (q : Query) : Prop where
  /-- Candidates and visits have seen addresses. -/
  pending_seen : ∀ node ∈ q.pending, node.addr.hostPort ∈ q.seenKeys
  sent_seen : ∀ node ∈ Walk.visitsOf q.outbox, node.addr.hostPort ∈ q.seenKeys
  /-- Commits are counted only after the end of the walk. -/
  commits_ended : 0 < q.commitInflight → q.Ended
  /-- A query that is done was destroyed, or its walk has ended. -/
  done_ended : q.done = true → .destroyCalled ∈ q.trace ∨ q.Ended
  committing_ended : q.CommittingEnded
  /-- After the end of the walk nothing is in flight and the closest replies stand. -/
  ended_final : ∀ closest, .ended closest ∈ q.trace →
    q.closestReplies = closest ∧ q.inflight ≤ 0 ∧ (q.done = true ∨ q.committing = true)
  deferred : q.DeferredDone

@[simp] lemma visitsOf_append (a b : List Call) :
    Walk.visitsOf (a ++ b) = Walk.visitsOf a ++ Walk.visitsOf b :=
  List.filterMap_append

lemma Quiet.sound {q q' : Query} (h : Quiet q q') (hq : q.Sound) : q'.Sound := by
  have hmoves : Moves q q' := .single (.small (.quiet h))
  have hflags := Quiets.sameFlags (.single h)
  have hmono := (Move.seenKeys_prefix (.small (.quiet h))).subset
  have hended : q.Ended → q'.Ended := hmoves.ended
  have hpending : ∀ node ∈ q.pending, node.addr.hostPort ∈ q'.seenKeys :=
    fun node hn => hmono (hq.pending_seen node hn)
  have hsent : ∀ node ∈ Walk.visitsOf q.outbox, node.addr.hostPort ∈ q'.seenKeys :=
    fun node hn => hmono (hq.sent_seen node hn)
  -- what reads the flags and the trace only
  have hrest : (0 < q'.commitInflight → q'.Ended) ∧
      (q'.done = true → .destroyCalled ∈ q'.trace ∨ q'.Ended) ∧ q'.CommittingEnded := by
    rw [hflags.commitInflight, hflags.done]
    refine ⟨fun h => hended (hq.commits_ended h), fun h => ?_,
      hmoves.committingEnded hq.committing_ended⟩
    exact (hq.done_ended h).imp (fun h => hmoves.trace_prefix.subset h) hended
  have hfinal : (q.Ended → q'.closestReplies = q.closestReplies ∧ q'.inflight = q.inflight) →
      ∀ closest, .ended closest ∈ q'.trace → q'.closestReplies = closest ∧ q'.inflight ≤ 0 ∧
        (q'.done = true ∨ q'.committing = true) := by
    intro hsame closest hmem
    have hmem := (Quiets.ended_mem (.single h) closest).1 hmem
    obtain ⟨h1, h2⟩ := hsame ⟨closest, hmem⟩
    rw [h1, h2, hflags.done, hflags.committing]
    exact hq.ended_final closest hmem
  have hdeferred := hmoves.deferredDone hq.deferred
  cases h with
  | accept node hnew hroom =>
    refine ⟨fun n hn => ?_, hsent, hrest.1, hrest.2.1, hrest.2.2, hfinal fun _ => ⟨rfl, rfl⟩,
      hdeferred⟩
    rcases List.mem_cons.1 hn with rfl | hn
    · simp [seenKeys, emit, map_fst_setSeen_of_notMem hnew]
    · exact hpending n hn
  | skip node rest hdone hp =>
    refine ⟨fun n hn => hpending n ?_, hsent, hrest.1, hrest.2.1, hrest.2.2,
      hfinal fun _ => ⟨rfl, rfl⟩, hdeferred⟩
    rw [hp]
    exact List.mem_cons_of_mem _ hn
  | visit node rest hdone hlive hp =>
    refine ⟨fun n hn => hpending n ?_, fun n hn => ?_, hrest.1, hrest.2.1, hrest.2.2,
      hfinal fun h => absurd h hlive, hdeferred⟩
    · rw [hp]
      exact List.mem_cons_of_mem _ hn
    · simp only [Query.visit, emit, visitsOf_append, List.mem_append] at hn
      rcases hn with hn | hn
      · exact hsent n hn
      · obtain rfl : n = node := by simpa [Walk.visitsOf] using hn
        exact hpending n (by rw [hp]; exact List.mem_cons_self)
  | push reply hlive =>
    exact ⟨hpending, hsent, hrest.1, hrest.2.1, hrest.2.2, hfinal fun h => absurd h hlive,
      hdeferred⟩
  | _ =>
    exact ⟨hpending, hsent, hrest.1, hrest.2.1, hrest.2.2, hfinal fun _ => ⟨rfl, rfl⟩, hdeferred⟩

lemma Closing.sound {q q' : Query} (h : Closing q q') (hq : q.Sound) : q'.Sound := by
  have hmoves : Moves q q' := .single (.small (.closing h))
  have hsame := Closings.sameWalk (.single h)
  have hdeferred := hmoves.deferredDone hq.deferred
  have hended : q.Ended → q'.Ended := hmoves.ended
  have hdoneEnded : q.done = true → .destroyCalled ∈ q'.trace ∨ q'.Ended :=
    fun h => (hq.done_ended h).imp (fun h => hmoves.trace_prefix.subset h) hended
  have hcommits : 0 < q.commitInflight → q'.Ended := fun h => hended (hq.commits_ended h)
  have hcommitting := hmoves.committingEnded hq.committing_ended
  have hfinal : (q.done = true ∨ q.committing = true → q'.done = true ∨ q'.committing = true) →
      ∀ closest, .ended closest ∈ q'.trace → q'.closestReplies = closest ∧ q'.inflight ≤ 0 ∧
        (q'.done = true ∨ q'.committing = true) := by
    intro hflags closest hmem
    have hold := hq.ended_final closest ((hsame.ended_mem closest).1 hmem)
    rw [hsame.closestReplies, hsame.inflight]
    exact ⟨hold.1, hold.2.1, hflags hold.2.2⟩
  cases h with
  | destroy hdone =>
    refine ⟨fun n hn => absurd hn (by simp [setDone, emit]), hq.sent_seen, hcommits,
      fun _ => Or.inl ?_, hcommitting, hfinal fun _ => Or.inl rfl, hdeferred⟩
    simp [setDone, emit]
  | commit reply h =>
    exact ⟨hq.pending_seen, hq.sent_seen, fun _ => hended h, hdoneEnded, hcommitting, hfinal id,
      hdeferred⟩
  | request req =>
    refine ⟨hq.pending_seen, fun n hn => hq.sent_seen n ?_, hcommits, hdoneEnded, hcommitting,
      hfinal id, hdeferred⟩
    simpa [Walk.visitsOf] using hn
  | count =>
    refine ⟨hq.pending_seen, hq.sent_seen, fun h => hcommits ?_, hdoneEnded, hcommitting,
      hfinal id, hdeferred⟩
    dsimp only at h
    omega
  | finish h =>
    exact ⟨hq.pending_seen, hq.sent_seen, fun _ => hended h, fun _ => Or.inr (hended h),
      hcommitting, hfinal fun _ => Or.inl rfl, hdeferred⟩
  | _ =>
    exact ⟨hq.pending_seen, hq.sent_seen, hcommits, hdoneEnded, hcommitting, hfinal id, hdeferred⟩

lemma Sound.not_ended {q : Query} (hq : q.Sound) (hdone : q.done = false)
    (hcommitting : q.committing = false) : ¬ q.Ended := by
  rintro ⟨closest, hmem⟩
  simpa [hdone, hcommitting] using (hq.ended_final closest hmem).2.2

lemma Sound.endWalk {q q' : Query} (hq : q.Sound) (hdone : q.done = false)
    (hcommitting : q.committing = false) (hinflight : q.inflight ≤ 0)
    (htrace : .ended q.closestReplies ∈ q'.trace)
    (hended : ∀ closest, .ended closest ∈ q'.trace →
      .ended closest ∈ q.trace ∨ closest = q.closestReplies)
    (hclosest : q'.closestReplies = q.closestReplies) (hin : q'.inflight = q.inflight)
    (hpending : q'.pending = q.pending) (houtbox : q'.outbox = q.outbox)
    (hseen : q'.seen = q.seen) (hflags : q'.done = true ∨ q'.committing = true)
    (hdeferred : q'.DeferredDone) : q'.Sound := by
  have hend : q'.Ended := ⟨q.closestReplies, htrace⟩
  constructor
  · rw [hpending, seenKeys, hseen]
    exact hq.pending_seen
  · rw [houtbox, seenKeys, hseen]
    exact hq.sent_seen
  · exact fun _ => hend
  · exact fun _ => Or.inr hend
  · exact fun _ => Or.inr hend
  · intro closest hmem
    rcases hended closest hmem with hold | rfl
    · exact absurd ⟨closest, hold⟩ (hq.not_ended hdone hcommitting)
    · exact ⟨hclosest, by rw [hin]; exact hinflight, hflags⟩
  · exact hdeferred

/-- **Every step keeps the books.** -/
theorem Move.sound {q q' : Query} (h : Move q q') (hq : q.Sound) : q'.Sound := by
  have hdeferred := Moves.deferredDone (.single h) hq.deferred
  have hcommits := Moves.committingEnded (.single h) hq.committing_ended
  cases h with
  | small h =>
    cases h with
    | quiet h => exact h.sound hq
    | closing h => exact h.sound hq
    | endCommit hdone hcommitting hinflight =>
      refine hq.endWalk hdone hcommitting hinflight ?_ ?_ rfl rfl rfl rfl rfl (Or.inr rfl)
        hdeferred
      all_goals simp [emit, beginCommit]
    | endDone hdone hcommitting hinflight =>
      refine hq.endWalk hdone hcommitting hinflight ?_ ?_ rfl rfl rfl rfl rfl (Or.inl rfl)
        hdeferred
      all_goals simp [emit, setDone]
  | replyEnter =>
    refine ⟨hq.pending_seen, hq.sent_seen, ?_, ?_, hcommits, ?_, hdeferred⟩
    · simpa [Ended, emit] using hq.commits_ended
    · simpa [Ended, emit] using hq.done_ended
    · simpa [emit] using hq.ended_final
  | replyExit =>
    refine ⟨hq.pending_seen, hq.sent_seen, ?_, ?_, hcommits, ?_, hdeferred⟩
    · simpa [Ended, emit] using hq.commits_ended
    · simpa [Ended, emit] using hq.done_ended
    · simpa [emit] using hq.ended_final

lemma Moves.sound {q q' : Query} (h : Moves q q') (hq : q.Sound) : q'.Sound := by
  induction h with
  | refl => exact hq
  | tail _ h ih => exact h.sound ih

lemma Moves.inflight_sub {q q' : Query} (h : Moves q q') :
    q'.inflight - (Walk.visitsOf q'.outbox).length =
      q.inflight - (Walk.visitsOf q.outbox).length := by
  induction h with
  | refl => rfl
  | tail _ h ih =>
    refine Eq.trans ?_ ih
    cases h with
    | small h =>
      cases h with
      | quiet h =>
        cases h with
        | visit node =>
          simp only [visit, emit, visitsOf_append, List.length_append]
          simp [Walk.visitsOf]
        | _ => rfl
      | closing h =>
        cases h with
        | request => simp [Walk.visitsOf]
        | _ => rfl
      | _ => rfl
    | replyEnter => rfl
    | replyExit => rfl

lemma Sound.frame {q : Query} (hq : q.Sound) {inflight : ℤ}
    (hinflight : q.Ended → inflight ≤ 0) : Sound { q with inflight := inflight } := by
  refine ⟨hq.pending_seen, hq.sent_seen, hq.commits_ended, hq.done_ended, hq.committing_ended,
    fun closest hmem => ?_, hq.deferred⟩
  have hold := hq.ended_final closest hmem
  exact ⟨hold.1, hinflight ⟨closest, hmem⟩, hold.2.2⟩

/-! ## Calls beside the walk -/

lemma addPending_outbox (env : Env) (q : Query) (node : PendingNode) :
    (addPending env q node).outbox = q.outbox := by
  unfold addPending
  dsimp only
  split_ifs <;> rfl

lemma Closings.visitsOf_outbox {q q' : Query} (h : Closings q q') :
    Walk.visitsOf q'.outbox = Walk.visitsOf q.outbox := by
  induction h with
  | refl => rfl
  | tail _ h ih =>
    refine Eq.trans ?_ ih
    cases h with
    | request => simp [Walk.visitsOf]
    | _ => rfl

end Query

/-! ## Rest -/

namespace Walk

open Query

/-- A walk between two inputs. -/
structure Rest (w : Walk) : Prop where
  sound : w.query.Sound
  outbox : w.query.outbox = []
  dispatching : w.query.dispatchingReply = false
  inflight : w.query.inflight = w.outstanding.length
  outstanding_seen : ∀ node ∈ w.outstanding, node.addr.hostPort ∈ w.query.seenKeys
  settled : w.query.Settled
  /-- Before the start nothing is sent. -/
  idle : w.started = false → w.outstanding = [] ∧ ¬ w.query.Ended

lemma Rest.outstanding_of_ended {w : Walk} (h : w.Rest) (hended : w.query.Ended) :
    w.outstanding = [] := by
  obtain ⟨closest, hmem⟩ := hended
  have hle := (h.sound.ended_final closest hmem).2.1
  rw [h.inflight] at hle
  exact List.length_eq_zero_iff.1 (by omega)

lemma Rest.live_of_mem {w : Walk} (h : w.Rest) {node : PendingNode} (hnode : node ∈ w.outstanding) :
    ¬ w.query.Ended ∧ w.started = true := by
  have hne : w.outstanding ≠ [] := List.ne_nil_of_mem hnode
  refine ⟨fun hended => hne (h.outstanding_of_ended hended), ?_⟩
  by_contra hstarted
  exact hne (h.idle (by simpa using hstarted)).1

lemma rest_init (target : NodeId) (command : UInt32) (value : Option (List UInt8))
    (opts : Options) : (init target command value opts).Rest where
  sound := by
    refine ⟨by simp [init, create], by simp [init, create, visitsOf], ?_, ?_, ?_, ?_, ?_⟩
    all_goals simp [init, create, CommittingEnded, DeferredDone]
  outbox := rfl
  dispatching := rfl
  inflight := rfl
  outstanding_seen := by simp [init]
  settled := ⟨rfl, by simp [init, create]⟩
  idle := fun _ => ⟨rfl, by simp [init, create, Ended]⟩

lemma Rest.visitBack {w : Walk} (h : w.Rest) {k : ℕ} {node : PendingNode}
    (hk : w.outstanding[k]? = some node) :
    w.query.visitBack = { w.query with inflight := (w.outstanding.eraseIdx k).length } ∧
      node.addr.hostPort ∈ w.query.seenKeys ∧ ¬ w.query.Ended ∧ w.started = true := by
  obtain ⟨hlt, hget⟩ := List.getElem?_eq_some_iff.1 hk
  have hnode : node ∈ w.outstanding := hget ▸ List.getElem_mem hlt
  refine ⟨?_, h.outstanding_seen node hnode, h.live_of_mem hnode⟩
  rw [Query.visitBack, h.inflight, List.length_eraseIdx_of_lt hlt, Int.ofNat_sub (by omega)]
  rfl

lemma Rest.closings {w : Walk} (h : w.Rest) {q' : Query} (hclosings : Closings w.query q')
    (hreported : w.query.Reported → q'.Reported) :
    Smalls w.query q' ∧ visitsOf q'.outbox = [] ∧ (q'.Ended → w.query.Ended) ∧ q'.Settled := by
  refine ⟨hclosings.smalls, ?_, hclosings.sameWalk.ended.1,
    hclosings.smalls.settled h.dispatching h.settled hreported⟩
  rw [hclosings.visitsOf_outbox, h.outbox]
  rfl

/-- **What an input does**: nothing; a call beside the walk, which sends no visits and does not end
it; or a call that takes some visits from the outstanding ones and lets the query walk on. -/
lemma step_cases (blake2b : List UInt8 → NodeId) {w : Walk} (h : w.Rest) (i : Input) :
    w.step blake2b i = w ∨
      (∃ q', Smalls w.query q' ∧ visitsOf q'.outbox = [] ∧ (q'.Ended → w.query.Ended) ∧
        q'.Settled ∧ w.step blake2b i = w.settle q') ∨
      ∃ waiting q', waiting ⊆ w.outstanding ∧ ¬ w.query.Ended ∧
        Moves { w.query with inflight := waiting.length } q' ∧ q'.dispatchingReply = false ∧
        (1 ≤ w.query.concurrency → q'.Busy) ∧ q'.Settled ∧
        w.step blake2b i = (Walk.mk w.query true waiting).settle q' := by
  have hcommitting := h.sound.committing_ended
  cases i with
  | addSeedNode node =>
    have hquiets := addSeedNode_quiets w.query node
    refine Or.inr (Or.inl ⟨_, hquiets.smalls, ?_, id, h.settled, rfl⟩)
    rw [addSeedNode, h.outbox]
    rfl
  | addBootstrap env addr =>
    have hquiets := addPending_quiets env w.query ⟨NodeId.zero, addr⟩
    refine Or.inr (Or.inl ⟨_, hquiets.smalls, ?_, fun hended => ?_,
      hquiets.smalls.settled h.dispatching h.settled hquiets.reported, rfl⟩)
    · rw [addPending_outbox, h.outbox]
      rfl
    · by_contra hlive
      exact hquiets.not_ended hlive hended
  | destroy env =>
    obtain ⟨hsmalls, hvisits, hended, hsettled⟩ :=
      h.closings (destroy_closings env w.query) (destroy_reported env)
    exact Or.inr (Or.inl ⟨_, hsmalls, hvisits, hended, hsettled, rfl⟩)
  | commitDone env =>
    have hclosings := commitDone_closings env
      (fun h1 => h.sound.commits_ended (by omega)) h.dispatching
    obtain ⟨hsmalls, hvisits, hended, hsettled⟩ := h.closings hclosings (commitDone_reported env)
    exact Or.inr (Or.inl ⟨_, hsmalls, hvisits, hended, hsettled, rfl⟩)
  | start env =>
    rw [step]
    split
    · exact Or.inl rfl
    · rename_i hstarted
      obtain ⟨hnone, hlive⟩ := h.idle (by simpa using hstarted)
      obtain ⟨hsmalls, hbusy, hreported⟩ := start_spec env hlive h.dispatching
      refine Or.inr (Or.inr ⟨w.outstanding, _, List.Subset.refl _, hlive, ?_,
        hsmalls.dispatchingReply.trans h.dispatching, hbusy hcommitting,
        hsmalls.settled h.dispatching h.settled hreported, rfl⟩)
      rw [← h.inflight]
      exact hsmalls.moves
  | response env k resp =>
    rw [step]
    cases hk : w.outstanding[k]? with
    | none => exact Or.inl rfl
    | some node =>
      obtain ⟨hback, hseen, hlive, hstarted⟩ := h.visitBack hk
      obtain ⟨hmoves, hdispatching, hbusy, hsettled⟩ := @onVisitResponse_spec blake2b env
        w.query.visitBack node hseen hlive h.dispatching h.settled resp
      refine Or.inr (Or.inr ⟨w.outstanding.eraseIdx k, _, List.eraseIdx_subset, hlive,
        hback ▸ hmoves, hdispatching, hbusy hcommitting, hsettled, ?_⟩)
      rw [← hstarted]
      rfl
  | timeout env k =>
    rw [step]
    cases hk : w.outstanding[k]? with
    | none => exact Or.inl rfl
    | some node =>
      obtain ⟨hback, hseen, hlive, hstarted⟩ := h.visitBack hk
      obtain ⟨hsmalls, hbusy, hreported⟩ := @onVisitTimeout_spec env w.query.visitBack node hseen
        hlive h.dispatching
      refine Or.inr (Or.inr ⟨w.outstanding.eraseIdx k, _, List.eraseIdx_subset, hlive,
        hback ▸ hsmalls.moves, hsmalls.dispatchingReply.trans h.dispatching, hbusy hcommitting,
        hsmalls.settled h.dispatching h.settled hreported, ?_⟩)
      rw [← hstarted]
      rfl

lemma rest_settle {w : Walk} {q q' : Query} (hsound : q.Sound) (hout : q.outbox = [])
    (hinflight : q.inflight = w.outstanding.length)
    (hseen : ∀ node ∈ w.outstanding, node.addr.hostPort ∈ q.seenKeys) (hmoves : Moves q q')
    (hdispatching : q'.dispatchingReply = false) (hsettled : q'.Settled)
    (hidle : w.started = false → w.outstanding = [] ∧ visitsOf q'.outbox = [] ∧ ¬ q'.Ended) :
    (w.settle q').Rest := by
  have hsound' := hmoves.sound hsound
  have hcount := hmoves.inflight_sub
  simp only [hout, visitsOf, List.filterMap_nil, List.length_nil] at hcount
  constructor
  · exact ⟨hsound'.pending_seen, by simp [settle, visitsOf], hsound'.commits_ended,
      hsound'.done_ended, hsound'.committing_ended, hsound'.ended_final, hsound'.deferred⟩
  · rfl
  · exact hdispatching
  · simp only [settle, List.length_append, visitsOf]
    omega
  · intro node hnode
    rcases List.mem_append.1 hnode with hnode | hnode
    · exact hmoves.seenKeys_prefix.subset (hseen node hnode)
    · exact hsound'.sent_seen node hnode
  · exact hsettled
  · intro hstarted
    obtain ⟨h1, h2, h3⟩ := hidle hstarted
    exact ⟨by simp [settle, h1, h2], h3⟩

lemma rest_step (blake2b : List UInt8 → NodeId) {w : Walk} (h : w.Rest) (i : Input) :
    (w.step blake2b i).Rest := by
  rcases step_cases blake2b h i with heq | ⟨q', hsmalls, hnone, hended, hsettled, heq⟩ |
    ⟨waiting, q', hsub, hlive, hmoves, hdispatching, -, hsettled, heq⟩
  · rw [heq]
    exact h
  · rw [heq]
    refine rest_settle h.sound h.outbox h.inflight h.outstanding_seen hsmalls.moves
      (hsmalls.dispatchingReply.trans h.dispatching) hsettled fun hstarted => ?_
    obtain ⟨h1, h2⟩ := h.idle hstarted
    exact ⟨h1, hnone, fun h => h2 (hended h)⟩
  · rw [heq]
    refine @rest_settle (Walk.mk w.query true waiting)
      { w.query with inflight := waiting.length } q' (h.sound.frame fun h => absurd h hlive)
      h.outbox rfl (fun node hnode => h.outstanding_seen node (hsub hnode)) hmoves hdispatching
      hsettled ?_
    intro hstarted
    cases hstarted

/-- **Every walk is at rest between inputs.** -/
theorem rest_run (blake2b : List UInt8 → NodeId) {w : Walk} (h : w.Rest) (is : List Input) :
    (Runs.run (step blake2b) w is).Rest :=
  Runs.run_invariant (P := Rest) (fun _ i h => rest_step blake2b h i) h is

/-- **What the small steps keep holds along every walk**, if it does not depend on the counter of
visits and on the outbox. -/
theorem query_invariant (blake2b : List UInt8 → NodeId) {P : Query → Prop}
    (hmove : ∀ q q', Move q q' → P q → P q')
    (hframe : ∀ (q : Query) (inflight : ℤ) (outbox : List Call), P q →
      P { q with inflight := inflight, outbox := outbox })
    {w : Walk} (h : w.Rest) (hP : P w.query) (is : List Input) :
    P (Runs.run (step blake2b) w is).query := by
  have hmoves : ∀ {q q' : Query}, Moves q q' → P q → P q' := by
    intro q q' h hq
    induction h with
    | refl => exact hq
    | tail _ h ih => exact hmove _ _ h ih
  have hstep : ∀ (w : Walk) (i : Input), w.Rest ∧ P w.query →
      (w.step blake2b i).Rest ∧ P (w.step blake2b i).query := by
    rintro w i ⟨hrest, hP⟩
    refine ⟨rest_step blake2b hrest i, ?_⟩
    rcases step_cases blake2b hrest i with heq | ⟨q', hsmalls, -, -, -, heq⟩ |
      ⟨waiting, q', -, -, hm, -, -, -, heq⟩
    · rw [heq]
      exact hP
    · rw [heq]
      exact hframe q' q'.inflight [] (hmoves hsmalls.moves hP)
    · rw [heq]
      exact hframe q' q'.inflight []
        (hmoves hm (hframe w.query waiting.length w.query.outbox hP))
  exact (Runs.run_invariant hstep ⟨h, hP⟩ is).2

end Walk

end HyperDHT
