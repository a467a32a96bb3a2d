import Mathlib.Data.List.Induction
import HyperDHT.Lib.TopK
import HyperDHT.Lib.Trace
import HyperDHT.Query.Walk

/-!
# The walk is complete

A candidate that is taken is visited, or it is dropped because `K` replies are closer. Candidates
are compared with the closest replies when they are popped, and these change all the time; but
their last distance only shrinks, so what was too far away when it was popped is too far away in
the end. The map of seen addresses keeps the visits apart and bounds their number.

## Main definitions

* `Query.distance` — the distance of a reply from the target.
* `Query.Dismissed` — a candidate with a known id that is not closer than the last of `K` replies.
* `Query.Complete` — the law of the end of a walk.
* `Query.Thorough` — where the accepted candidates are.
* `Walk.Completeness` — what a walk promises.

## Main results

* `Query.pushClosest_eq` — the insertion loop keeps the `K` closest.
* `Query.Move.thorough` — every small step keeps account of the candidates.
* `Walk.completeness` — every walk keeps its promise.
-/

set_option autoImplicit false

namespace HyperDHT

open Compact Routing Rpc Relation

namespace Query

/-! ## The closest replies -/

/-- The distance of a reply from the target. -/
def distance (q : Query) (reply : QueryReply) : NodeId := q.target.xor reply.fromId

lemma compare_neg_iff (q : Query) (a b : QueryReply) :
    q.compare a.fromId b.fromId < 0 ↔ q.distance a < q.distance b :=
  compareDistance_neg_iff _ _ _

lemma compare_eq_zero_iff (q : Query) (a b : QueryReply) :
    q.compare a.fromId b.fromId = 0 ↔ q.distance a = q.distance b :=
  compareDistance_eq_zero_iff _ _ _

lemma swapReplies_append (pre suf : List QueryReply) (a b : QueryReply) :
    swapReplies (pre ++ a :: b :: suf) pre.length = pre ++ b :: a :: suf := by
  induction pre with
  | nil => rfl
  | cons c pre ih =>
    rw [List.cons_append, List.length_cons, swapReplies, ih, List.cons_append]

/-- **The insertion loop.** With the new reply between the replies still to be compared and the
farther ones, the loop inserts it; as a duplicate it leaves the others as they were.

**Proof sketch.** Induction on the replies still to be compared, from the last: a closer one ends
the loop, a farther one changes places with the new reply. -/
lemma pushClosestLoop_spec (q : Query) (reply : QueryReply) (pre suf : List QueryReply)
    (hsorted : TopK.Sorted q.distance (pre ++ suf))
    (hsuf : ∀ r ∈ suf, q.distance reply < q.distance r) :
    (q.pushClosestLoop reply pre.length (pre ++ reply :: suf)).1 =
        TopK.insertKey q.distance reply (pre ++ suf) ∧
      ((q.pushClosestLoop reply pre.length (pre ++ reply :: suf)).2 = true →
        (q.pushClosestLoop reply pre.length (pre ++ reply :: suf)).1 = pre ++ suf) := by
  induction pre using List.reverseRecOn generalizing suf with
  | nil =>
    rw [List.length_nil, pushClosestLoop]
    exact ⟨(TopK.insertKey_of_forall_lt hsuf).symm, by simp⟩
  | append_singleton pre other ih =>
    simp only [List.append_assoc, List.cons_append, List.nil_append] at hsorted ⊢
    rw [List.length_append, List.length_singleton, pushClosestLoop]
    have hget : (pre ++ other :: reply :: suf)[pre.length]? = some other := by simp
    simp only [hget]
    split
    · rename_i hcloser
      rw [compare_neg_iff] at hcloser
      exact ⟨(TopK.insertKey_append_of_lt hsorted hcloser hsuf).symm, by simp⟩
    · rename_i hcloser
      split
      · rename_i hequal
        rw [compare_eq_zero_iff] at hequal
        have herase : (pre ++ other :: reply :: suf).eraseIdx (pre.length + 1) =
            pre ++ other :: suf := by
          rw [List.eraseIdx_append_of_length_le (by omega)]
          simp
        simp only [herase]
        exact ⟨(TopK.insertKey_append_of_eq hsorted hequal).symm, fun _ => trivial⟩
      · rename_i hequal
        rw [compare_neg_iff] at hcloser
        rw [compare_eq_zero_iff] at hequal
        rw [swapReplies_append]
        refine ih (other :: suf) hsorted fun r hr => ?_
        rcases List.mem_cons.1 hr with rfl | hr
        · exact lt_of_le_of_ne (not_lt.1 hcloser) (Ne.symm hequal)
        · exact hsuf r hr

/-- **The closest replies are the `K` closest.** -/
theorem pushClosest_eq {q : Query} (hsorted : TopK.Sorted q.distance q.closestReplies)
    (hlength : q.closestReplies.length ≤ K) (reply : QueryReply) :
    (q.pushClosest reply).closestReplies =
      TopK.push q.distance K q.closestReplies reply := by
  obtain ⟨hinsert, hduplicate⟩ := pushClosestLoop_spec q reply q.closestReplies []
    (by simpa using hsorted) (by simp)
  simp only [List.append_nil] at hinsert hduplicate
  have hle : (TopK.insertKey q.distance reply q.closestReplies).length ≤
      q.closestReplies.length + 1 := (TopK.length_insertKey _ _).2
  unfold pushClosest TopK.push
  dsimp only
  split
  · rename_i hcap
    rw [hinsert] at hcap ⊢
    rw [List.dropLast_eq_take]
    congr 1
    omega
  · rename_i hcap
    rw [not_and, not_lt, Bool.not_eq_true] at hcap
    have hshort : (TopK.insertKey q.distance reply q.closestReplies).length ≤ K := by
      rw [← hinsert]
      cases hflag : (q.pushClosestLoop reply q.closestReplies.length
          (q.closestReplies ++ [reply])).2 with
      | true =>
        rw [hduplicate hflag]
        exact hlength
      | false => exact hcap hflag
    rw [hinsert, List.take_of_length_le hshort]

lemma isCloser_eq_false_iff {q : Query} (hsorted : TopK.Sorted q.distance q.closestReplies)
    (hlength : q.closestReplies.length ≤ K) (id : NodeId) :
    q.isCloser id = false ↔ TopK.Beyond q.distance K q.closestReplies (q.target.xor id) := by
  unfold isCloser
  split
  · rename_i hshort
    simp [TopK.Beyond, Nat.ne_of_lt hshort]
  · rename_i hlong
    have hfull : q.closestReplies.length = K := by omega
    cases hlast : q.closestReplies.getLast? with
    | none =>
      rw [List.getLast?_eq_none_iff] at hlast
      simp [hlast, K] at hfull
    | some last =>
      rw [TopK.beyond_iff_getLast hsorted hlast]
      simp only [decide_eq_false_iff_not, hfull, true_and]
      rw [compare, compareDistance_neg_iff, not_lt]
      exact Iff.rfl

/-! ## Where the candidates are -/

/-- The nodes that were visited, in order. -/
def visitedNodes (trace : List QueryEvent) : List PendingNode :=
  trace.filterMap fun e => match e with
    | .visit node => some node
    | _ => none

/-- The nodes that were dropped, in order. -/
def skippedNodes (trace : List QueryEvent) : List PendingNode :=
  trace.filterMap fun e => match e with
    | .skipped node => some node
    | _ => none

lemma mem_visitedNodes {trace : List QueryEvent} {node : PendingNode} :
    node ∈ visitedNodes trace ↔ .visit node ∈ trace := by
  simp only [visitedNodes, List.mem_filterMap]
  constructor
  · rintro ⟨e, he, hnode⟩
    split at hnode <;> simp_all
  · exact fun h => ⟨_, h, rfl⟩

lemma mem_skippedNodes {trace : List QueryEvent} {node : PendingNode} :
    node ∈ skippedNodes trace ↔ .skipped node ∈ trace := by
  simp only [skippedNodes, List.mem_filterMap]
  constructor
  · rintro ⟨e, he, hnode⟩
    split at hnode <;> simp_all
  · exact fun h => ⟨_, h, rfl⟩

/-- A candidate whose id is known and not closer to the target than the last of `K` replies. -/
def Dismissed (target : NodeId) (closest : List QueryReply) (node : PendingNode) : Prop :=
  node.id ≠ NodeId.zero ∧ closest.length = K ∧
    ∃ kth, closest[K - 1]? = some kth ∧ ¬ compareDistance target node.id kth.fromId < 0

/-- The law of the end of a walk: every candidate that was accepted was visited, or it is
dismissed by the closest replies. -/
def Complete (target : NodeId) (history : List QueryEvent) : QueryEvent → Prop
  | .ended closest => ∀ node, .accepted node ∈ history →
      .visit node ∈ history ∨ Dismissed target closest node
  | _ => True

/-- The candidates that are waiting, were visited or were dropped. -/
def placed (q : Query) : List PendingNode :=
  q.pending ++ (visitedNodes q.trace ++ skippedNodes q.trace)

/-- Where the accepted candidates are. -/
structure Thorough (q : Query) : Prop where
  sorted : TopK.Sorted q.distance q.closestReplies
  length_le : q.closestReplies.length ≤ K
  seen_le : q.seen.length ≤ maxSeen
  /-- Every candidate is in one place, and each address belongs to one candidate. -/
  placed_nodup : (q.placed.map fun node => node.addr.hostPort).Nodup
  placed_seen : ∀ node ∈ q.placed, node.addr.hostPort ∈ q.seenKeys
  covered : q.done = false → ∀ node, .accepted node ∈ q.trace → node ∈ q.placed
  skipped_far : ∀ node, .skipped node ∈ q.trace →
    node.id ≠ NodeId.zero ∧ TopK.Beyond q.distance K q.closestReplies (q.target.xor node.id)
  always : Trace.Always (Complete q.target) q.trace
  depth_le : ∀ depth, .readMore depth ∈ q.trace → depth ≤ 2
  no_overflow : .overflow ∉ q.trace

/-- An event that moves a candidate. -/
def movesCandidate : QueryEvent → Bool
  | .accepted _ | .skipped _ | .visit _ => true
  | _ => false

lemma visitedNodes_concat_of_not {e : QueryEvent} (h : movesCandidate e = false)
    (trace : List QueryEvent) : visitedNodes (trace ++ [e]) = visitedNodes trace := by
  cases e <;> first | contradiction | simp [visitedNodes]

lemma skippedNodes_concat_of_not {e : QueryEvent} (h : movesCandidate e = false)
    (trace : List QueryEvent) : skippedNodes (trace ++ [e]) = skippedNodes trace := by
  cases e <;> first | contradiction | simp [skippedNodes]

lemma Thorough.emit {q q' : Query} (h : q.Thorough) {e : QueryEvent}
    (hstay : movesCandidate e = false) (hlaw : Complete q.target q.trace e)
    (hdepth : ∀ depth, e = .readMore depth → depth ≤ 2) (hover : e ≠ .overflow)
    (htrace : q'.trace = q.trace ++ [e]) (htarget : q'.target = q.target)
    (hclosest : q'.closestReplies = q.closestReplies) (hseen : q'.seen = q.seen)
    (hpending : q'.pending = q.pending) (hdone : q'.done = false → q.done = false) :
    q'.Thorough := by
  have hdistance : q'.distance = q.distance := by
    unfold distance
    rw [htarget]
  have hplaced : q'.placed = q.placed := by
    rw [placed, placed, hpending, htrace, visitedNodes_concat_of_not hstay,
      skippedNodes_concat_of_not hstay]
  have hkeys : q'.seenKeys = q.seenKeys := by rw [seenKeys, seenKeys, hseen]
  constructor
  · rw [hdistance, hclosest]
    exact h.sorted
  · rw [hclosest]
    exact h.length_le
  · rw [hseen]
    exact h.seen_le
  · rw [hplaced]
    exact h.placed_nodup
  · rw [hplaced, hkeys]
    exact h.placed_seen
  · intro hnot node hmem
    rw [hplaced]
    rw [htrace, List.mem_append, List.mem_singleton] at hmem
    rcases hmem with hmem | rfl
    · exact h.covered (hdone hnot) node hmem
    · contradiction
  · intro node hmem
    rw [hdistance, hclosest, htarget]
    rw [htrace, List.mem_append, List.mem_singleton] at hmem
    rcases hmem with hmem | rfl
    · exact h.skipped_far node hmem
    · contradiction
  · rw [htrace, htarget, Trace.always_concat]
    exact ⟨h.always, hlaw⟩
  · intro depth hmem
    rw [htrace, List.mem_append, List.mem_singleton] at hmem
    exact hmem.elim (h.depth_le depth) fun he => hdepth depth he.symm
  · rw [htrace, List.mem_append, List.mem_singleton, not_or]
    exact ⟨h.no_overflow, fun he => hover he.symm⟩

/-- A step that records nothing and leaves the candidates alone, or clears them as the query is
done, asks for nothing. -/
lemma Thorough.congr {q q' : Query} (h : q.Thorough) (htrace : q'.trace = q.trace)
    (htarget : q'.target = q.target) (hclosest : q'.closestReplies = q.closestReplies)
    (hkeys : q'.seenKeys = q.seenKeys)
    (hpending : q'.pending = q.pending ∨ q'.pending = [] ∧ q'.done = true)
    (hdone : q'.done = false → q.done = false) : q'.Thorough := by
  have hdistance : q'.distance = q.distance := by
    unfold distance
    rw [htarget]
  have hplaced : q'.placed.Sublist q.placed := by
    rw [placed, placed, htrace]
    refine List.Sublist.append ?_ (List.Sublist.refl _)
    rcases hpending with hp | ⟨hp, -⟩
    · rw [hp]
    · rw [hp]
      exact List.nil_sublist _
  have hlen : q'.seen.length = q.seen.length := by
    have := congrArg List.length hkeys
    simpa [seenKeys] using this
  constructor
  · rw [hdistance, hclosest]
    exact h.sorted
  · rw [hclosest]
    exact h.length_le
  · rw [hlen]
    exact h.seen_le
  · exact h.placed_nodup.sublist (hplaced.map _)
  · intro node hnode
    rw [hkeys]
    exact h.placed_seen node (hplaced.subset hnode)
  · intro hnot node hmem
    rcases hpending with hp | ⟨-, hp⟩
    · rw [placed, hp, htrace]
      exact h.covered (hdone hnot) node (htrace ▸ hmem)
    · simp [hp] at hnot
  · rw [hdistance, hclosest, htarget, htrace]
    exact h.skipped_far
  · rw [htrace, htarget]
    exact h.always
  · rw [htrace]
    exact h.depth_le
  · rw [htrace]
    exact h.no_overflow

lemma Thorough.accept {q : Query} (h : q.Thorough) (node : PendingNode)
    (hnew : node.addr.hostPort ∉ q.seen.map Prod.fst) (hroom : q.seen.length < maxSeen) :
    Thorough ({ q with
      seen := setSeen q.seen node.addr.hostPort .pending
      pending := node :: q.pending }.emit (.accepted node)) := by
  have hkeys := map_fst_setSeen_of_notMem hnew .pending
  have hplaced : placed ({ q with
      seen := setSeen q.seen node.addr.hostPort .pending
      pending := node :: q.pending }.emit (.accepted node)) = node :: q.placed := by
    simp [placed, Query.emit, visitedNodes, skippedNodes]
  constructor
  · exact h.sorted
  · exact h.length_le
  · have hlength := congrArg List.length hkeys
    simp only [List.length_map, List.length_append, List.length_singleton] at hlength
    show (setSeen q.seen node.addr.hostPort .pending).length ≤ maxSeen
    omega
  · rw [hplaced, List.map_cons, List.nodup_cons]
    refine ⟨fun hmem => hnew ?_, h.placed_nodup⟩
    obtain ⟨other, hother, heq⟩ := List.mem_map.1 hmem
    exact heq ▸ h.placed_seen other hother
  · intro other hother
    rw [hplaced] at hother
    simp only [seenKeys, Query.emit, hkeys, List.mem_append, List.mem_singleton]
    rcases List.mem_cons.1 hother with rfl | hother
    · exact Or.inr rfl
    · exact Or.inl (h.placed_seen other hother)
  · intro hdone other hmem
    rw [hplaced]
    simp only [Query.emit, List.mem_append, List.mem_singleton, QueryEvent.accepted.injEq] at hmem
    rcases hmem with hmem | rfl
    · exact List.mem_cons_of_mem _ (h.covered hdone other hmem)
    · exact List.mem_cons_self
  · intro other hmem
    exact h.skipped_far other (by simpa [Query.emit] using hmem)
  · exact Trace.always_concat.2 ⟨h.always, trivial⟩
  · simpa [Query.emit] using h.depth_le
  · simpa [Query.emit] using h.no_overflow

lemma Thorough.relocate {q q' : Query} (h : q.Thorough) {e : QueryEvent} {node : PendingNode}
    (he : e = .visit node ∨ e = .skipped node ∧ node.id ≠ NodeId.zero ∧
      TopK.Beyond q.distance K q.closestReplies (q.target.xor node.id))
    (hpending : q.pending = node :: q'.pending) (htrace : q'.trace = q.trace ++ [e])
    (htarget : q'.target = q.target) (hclosest : q'.closestReplies = q.closestReplies)
    (hseen : q'.seen = q.seen) (hdone : q'.done = q.done) : q'.Thorough := by
  have hdistance : q'.distance = q.distance := by
    unfold distance
    rw [htarget]
  have hperm : q'.placed.Perm q.placed := by
    rw [placed, placed, htrace, hpending, List.cons_append]
    rcases he with rfl | ⟨rfl, -⟩
    · simp only [visitedNodes, skippedNodes, List.filterMap_append, List.filterMap_cons,
        List.filterMap_nil, List.append_nil, List.append_assoc, List.cons_append, List.nil_append]
      rw [← List.append_assoc, ← List.append_assoc]
      exact List.perm_middle
    · simp only [visitedNodes, skippedNodes, List.filterMap_append, List.filterMap_cons,
        List.filterMap_nil, List.append_nil]
      rw [← List.append_assoc, ← List.append_assoc, ← List.append_assoc]
      exact List.perm_append_singleton _ _
  constructor
  · rw [hdistance, hclosest]
    exact h.sorted
  · rw [hclosest]
    exact h.length_le
  · rw [hseen]
    exact h.seen_le
  · exact (hperm.map _).nodup_iff.2 h.placed_nodup
  · intro other hother
    rw [seenKeys, hseen]
    exact h.placed_seen other (hperm.mem_iff.1 hother)
  · intro hnot other hmem
    rw [htrace, List.mem_append, List.mem_singleton] at hmem
    rw [hperm.mem_iff]
    rcases hmem with hmem | rfl
    · exact h.covered (hdone ▸ hnot) other hmem
    · simp at he
  · intro other hmem
    rw [hdistance, hclosest, htarget]
    rw [htrace, List.mem_append, List.mem_singleton] at hmem
    rcases hmem with hmem | rfl
    · exact h.skipped_far other hmem
    · rcases he with he | ⟨he, hfar⟩
      · simp at he
      · obtain rfl : other = node := by simpa using he
        exact hfar
  · rw [htrace, htarget, Trace.always_concat]
    refine ⟨h.always, ?_⟩
    rcases he with rfl | ⟨rfl, -⟩ <;> trivial
  · intro depth hmem
    rw [htrace, List.mem_append, List.mem_singleton] at hmem
    rcases hmem with hmem | rfl
    · exact h.depth_le depth hmem
    · simp at he
  · rw [htrace, List.mem_append, List.mem_singleton, not_or]
    refine ⟨h.no_overflow, ?_⟩
    rintro rfl
    simp at he

lemma Thorough.push {q : Query} (h : q.Thorough) (reply : QueryReply) :
    (q.pushClosest reply).Thorough := by
  have heq := pushClosest_eq h.sorted h.length_le reply
  have hdistance : (q.pushClosest reply).distance = q.distance := rfl
  constructor
  · rw [hdistance, heq]
    exact TopK.sorted_push h.sorted reply
  · rw [heq]
    exact TopK.length_push_le _ _ _
  · exact h.seen_le
  · exact h.placed_nodup
  · exact h.placed_seen
  · exact h.covered
  · intro node hmem
    obtain ⟨hid, hfar⟩ := h.skipped_far node hmem
    rw [hdistance, heq]
    exact ⟨hid, hfar.push reply⟩
  · exact h.always
  · exact h.depth_le
  · exact h.no_overflow

lemma dismissed_of_beyond {q : Query} {node : PendingNode} (hid : node.id ≠ NodeId.zero)
    (hfar : TopK.Beyond q.distance K q.closestReplies (q.target.xor node.id)) :
    Dismissed q.target q.closestReplies node := by
  refine ⟨hid, hfar.1, ?_⟩
  have hlt : K - 1 < q.closestReplies.length := by
    rw [hfar.1]
    decide
  refine ⟨q.closestReplies[K - 1], List.getElem?_eq_getElem hlt, ?_⟩
  rw [compareDistance_neg_iff, not_lt]
  exact hfar.2 _ (List.getElem_mem hlt)

lemma Thorough.complete {q : Query} (h : q.Thorough) (hdone : q.done = false)
    (hpending : q.pending = []) : Complete q.target q.trace (.ended q.closestReplies) := by
  intro node hmem
  have hplaced := h.covered hdone node hmem
  rw [placed, hpending, List.nil_append, List.mem_append, mem_visitedNodes,
    mem_skippedNodes] at hplaced
  refine hplaced.imp_right fun hskipped => ?_
  obtain ⟨hid, hfar⟩ := h.skipped_far node hskipped
  exact dismissed_of_beyond hid hfar

lemma Quiet.thorough {q q' : Query} (hquiet : Quiet q q') (h : q.Thorough) : q'.Thorough := by
  cases hquiet with
  | accept node hnew hroom => exact h.accept node hnew hroom
  | skip node rest hdone hpending hid hfar =>
    have hbeyond := (isCloser_eq_false_iff h.sorted h.length_le _).1 hfar
    exact h.relocate (e := .skipped node) (Or.inr ⟨rfl, hid, hbeyond⟩) hpending rfl rfl rfl rfl
      rfl
  | visit node rest hdone hlive hpending =>
    exact h.relocate (e := .visit node) (Or.inl rfl) hpending rfl rfl rfl rfl rfl
  | enter depth hdepth =>
    refine h.emit (e := .readMore depth) rfl trivial ?_ (by simp) rfl rfl rfl rfl rfl id
    rintro d ⟨⟩
    exact hdepth
  | push reply => exact h.push reply
  | mark key state hseen =>
    exact h.congr rfl rfl rfl (map_fst_setSeen_of_mem hseen state) (Or.inl rfl) id
  | tune => exact h.congr rfl rfl rfl rfl (Or.inl rfl) id

lemma Closing.thorough {q q' : Query} (hclosing : Closing q q') (h : q.Thorough) :
    q'.Thorough := by
  cases hclosing with
  | destroyAgain =>
    exact h.emit (e := .destroyCalled) rfl trivial (by simp) (by simp) rfl rfl rfl rfl rfl id
  | destroy =>
    have hcleared : Thorough { q with done := true, pending := [], committing := true } :=
      h.congr rfl rfl rfl rfl (Or.inr ⟨rfl, rfl⟩) (by simp)
    have hcalled : Thorough ({ q with done := true, pending := [], committing := true }.emit
        .destroyCalled) :=
      hcleared.emit (e := .destroyCalled) rfl trivial (by simp) (by simp) rfl rfl rfl rfl rfl id
    exact hcalled.emit (e := .doneSet) rfl trivial (by simp) (by simp) rfl rfl rfl rfl rfl id
  | commit reply =>
    exact h.emit (e := .commit reply) rfl trivial (by simp) (by simp) rfl rfl rfl rfl rfl id
  | finish =>
    exact h.emit (e := .doneSet) rfl trivial (by simp) (by simp) rfl rfl rfl rfl rfl
      (by simp [setDone, Query.emit])
  | fire =>
    exact h.emit (e := .onDone q.closestReplies) rfl trivial (by simp) (by simp) rfl rfl rfl rfl
      rfl id
  | _ => exact h.congr rfl rfl rfl rfl (Or.inl rfl) id

/-- **Every step keeps account of the candidates.** -/
theorem Move.thorough {q q' : Query} (hmove : Move q q') (h : q.Thorough) : q'.Thorough := by
  cases hmove with
  | small hsmall =>
    cases hsmall with
    | quiet hquiet => exact hquiet.thorough h
    | closing hclosing => exact hclosing.thorough h
    | endCommit hdone hcommitting hinflight hpending =>
      exact h.emit (e := .ended q.closestReplies) rfl (h.complete hdone hpending) (by simp)
        (by simp) rfl rfl rfl rfl rfl id
    | endDone hdone hcommitting hinflight hpending =>
      have hended : Thorough (q.emit (.ended q.closestReplies)) :=
        h.emit (e := .ended q.closestReplies) rfl (h.complete hdone hpending) (by simp)
          (by simp) rfl rfl rfl rfl rfl id
      exact hended.emit (e := .doneSet) rfl trivial (by simp) (by simp) rfl rfl rfl rfl rfl
        (by simp [setDone, Query.emit])
  | replyEnter reply =>
    exact h.emit (e := .replyEnter reply) rfl trivial (by simp) (by simp) rfl rfl rfl rfl rfl id
  | replyExit =>
    exact h.emit (e := .replyExit) rfl trivial (by simp) (by simp) rfl rfl rfl rfl rfl id

end Query

/-! ## Walks -/

namespace Walk

open Query

/-- What a walk towards a target promises. -/
structure Completeness (target : NodeId) (w : Walk) : Prop where
  /-- No address is visited twice. -/
  visits_nodup : ((visitedNodes w.query.trace).map PendingNode.addr).Nodup
  /-- At most 4096 addresses are visited. -/
  visits_le : (visitedNodes w.query.trace).length ≤ 4096
  /-- `read_more` is at most two levels deep. -/
  depth_le : ∀ depth, .readMore depth ∈ w.query.trace → depth ≤ 2
  no_overflow : .overflow ∉ w.query.trace
  /-- When the walk ends, every accepted candidate was visited or is dismissed. -/
  complete : Trace.Always (Complete target) w.query.trace
  /-- The closest replies at the end of the walk are the final ones. -/
  final : ∀ closest, .ended closest ∈ w.query.trace →
    w.query.closestReplies = closest ∧ w.outstanding = []
  /-- A query that is done without `destroy()` has ended its walk. -/
  done_ended : w.query.done = true → .destroyCalled ∉ w.query.trace → w.query.Ended
  /-- A walk that was started and waits for nobody is over. -/
  terminates : 1 ≤ w.query.concurrency → w.started = true → w.outstanding = [] →
    w.query.done = true ∨ w.query.Ended

lemma thorough_init (target : NodeId) (command : UInt32) (value : Option (List UInt8))
    (opts : Options) : (init target command value opts).query.Thorough where
  sorted := List.Pairwise.nil
  length_le := Nat.zero_le _
  seen_le := Nat.zero_le _
  placed_nodup := List.nodup_nil
  placed_seen := by simp [placed, init, create, visitedNodes, skippedNodes]
  covered := by simp [init, create]
  skipped_far := by simp [init, create]
  always := Trace.always_nil _
  depth_le := by simp [init, create]
  no_overflow := by simp [init, create]

/-- A started walk has something to wait for, or it is over. -/
def Progress (w : Walk) : Prop :=
  1 ≤ w.query.concurrency → w.started = true → w.query.Busy

lemma progress_step (blake2b : List UInt8 → NodeId) {w : Walk} (h : w.Rest) (hw : w.Progress)
    (i : Input) : (w.step blake2b i).Progress := by
  rcases step_cases blake2b h i with heq | ⟨q', hsmalls, hnone, -, -, heq⟩ |
    ⟨waiting, q', -, -, hmoves, -, hbusy, -, heq⟩
  · rw [heq]
    exact hw
  · rw [heq]
    intro hconcurrency hstarted
    have hmoves := hsmalls.moves
    have hinflight := hmoves.inflight_sub
    rw [hnone, h.outbox] at hinflight
    have hc : 1 ≤ w.query.concurrency := by
      rw [← hmoves.sameConfig.concurrency]
      exact hconcurrency
    rcases hw hc hstarted with hdone | hended | hpos
    · exact Or.inl (hmoves.done hdone)
    · exact Or.inr (Or.inl (hmoves.ended hended))
    · refine Or.inr (Or.inr ?_)
      simp only [visitsOf, List.filterMap_nil, List.length_nil] at hinflight
      show 0 < q'.inflight
      omega
  · rw [heq]
    intro hconcurrency _
    refine hbusy ?_
    have hc := hmoves.sameConfig.concurrency
    dsimp only at hc
    rw [← hc]
    exact hconcurrency

/-- **Query completeness and termination.** Along every walk, whatever the replies and the timeouts
are and in whatever order they come: no address is visited twice, at most
4096 are visited, `read_more` is at most two levels deep, and when the walk ends every candidate
that was accepted was visited or has a known id that is not closer to the target than the last of
the `K` closest replies, which are the final ones. A query that is done without `destroy()` has
ended its walk so, and a walk with room for a visit ends once nobody is left to answer.

**Proof sketch.** Every accepted candidate is on the stack, was visited or was dropped; what is
dropped is beyond the closest replies, whose `K`-th distance only shrinks. -/
theorem completeness (blake2b : List UInt8 → NodeId) (target : NodeId) (command : UInt32)
    (value : Option (List UInt8)) (opts : Options) (is : List Input) :
    Completeness target (Runs.run (step blake2b) (init target command value opts) is) := by
  have hrest := rest_run blake2b (rest_init target command value opts) is
  obtain ⟨hthorough, htarget⟩ := query_invariant blake2b
    (P := fun q => q.Thorough ∧ q.target = target)
    (fun _ _ hmove h => ⟨hmove.thorough h.1,
      (Moves.sameConfig (.single hmove)).target.trans h.2⟩)
    (fun _ _ _ h => ⟨h.1.congr rfl rfl rfl rfl (Or.inl rfl) id, h.2⟩)
    (rest_init target command value opts) ⟨thorough_init target command value opts, rfl⟩ is
  have hprogress := (@Runs.run_invariant _ _ (step blake2b) (fun w => w.Rest ∧ w.Progress)
    (fun w i h => ⟨rest_step blake2b h.1 i, progress_step blake2b h.1 h.2 i⟩) _
    ⟨rest_init target command value opts, by simp [Progress, init]⟩ is).2
  generalize Runs.run (step blake2b) (init target command value opts) is = w
    at hrest hthorough htarget hprogress ⊢
  have hvisited : (visitedNodes w.query.trace).Sublist w.query.placed :=
    (List.sublist_append_left _ _).trans (List.sublist_append_right _ _)
  have hkeys := hthorough.placed_nodup.sublist (hvisited.map _)
  constructor
  · rw [show (fun node : PendingNode => node.addr.hostPort) =
      Ipv4Address.hostPort ∘ PendingNode.addr from rfl, ← List.map_map] at hkeys
    exact hkeys.of_map _
  · have hsub : (visitedNodes w.query.trace).map (fun node => node.addr.hostPort) ⊆
        w.query.seenKeys := by
      intro key hkey
      obtain ⟨node, hnode, rfl⟩ := List.mem_map.1 hkey
      exact hthorough.placed_seen node (hvisited.subset hnode)
    have hle := (List.subperm_of_subset hkeys hsub).length_le
    simp only [List.length_map, seenKeys] at hle
    exact hle.trans hthorough.seen_le
  · exact hthorough.depth_le
  · exact hthorough.no_overflow
  · exact htarget ▸ hthorough.always
  · intro closest hmem
    exact ⟨(hrest.sound.ended_final closest hmem).1, hrest.outstanding_of_ended ⟨closest, hmem⟩⟩
  · exact fun hdone hlive => (hrest.sound.done_ended hdone).resolve_left hlive
  · intro hconcurrency hstarted hnone
    rcases hprogress hconcurrency hstarted with hdone | hended | hpos
    · exact Or.inl hdone
    · exact Or.inr hended
    · rw [hrest.inflight, hnone] at hpos
      simp at hpos

end Walk

end HyperDHT
