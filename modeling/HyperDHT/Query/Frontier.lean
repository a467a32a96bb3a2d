import HyperDHT.Query.Replies

/-!
# The frontier of a query

The closest replies after any sequence of pushes, in terms of the sequence alone: of the ids that
were pushed the `K` nearest are there, in order, and each of them is represented by the first reply
that was pushed with it. The loop of `push_closest` is an insertion and the cut after it loses
nothing, so that the pushes together are one insertion sort that is cut at its end.

## Main definitions

* `Query.pushAll` — the pushes of a sequence of replies.
* `Query.Represents` — a reply has stood for its id since the id was last absent.
* `Query.Frontier` — what the closest replies are after a sequence of pushes.

## Main results

* `Query.closestReplies_pushAll` — the closest replies are the first `K` of the sorted replies.
* `Query.frontier_pushAll` — they are the frontier, after every sequence of pushes.
-/

set_option autoImplicit false

namespace HyperDHT

open Compact Routing Rpc

namespace Query

/-- Push one reply after another. -/
def pushAll (q : Query) (replies : List QueryReply) : Query := replies.foldl pushClosest q

/-- The ids of the closest replies. -/
def heldIds (q : Query) : List NodeId := q.closestReplies.map QueryReply.fromId

/-- A reply has stood for its id since the id was last absent: it was pushed when no reply with its
id was held, and it has been held ever since. -/
def Represents (q : Query) (replies : List QueryReply) (reply : QueryReply) : Prop :=
  ∃ before after, replies = before ++ reply :: after ∧
    reply.fromId ∉ (q.pushAll before).heldIds ∧
    ∀ mid, mid <+: after →
      reply ∈ (q.pushAll (before ++ reply :: mid)).closestReplies

/-- What the closest replies of `q` are after the replies were pushed. -/
structure Frontier (q : Query) (replies : List QueryReply) : Prop where
  /-- They are strictly increasing in their distance from the target. -/
  increasing : (q.pushAll replies).closestReplies.Pairwise fun a b =>
    q.target.xor a.fromId < q.target.xor b.fromId
  capped : (q.pushAll replies).closestReplies.length ≤ K
  /-- There are as many as there are ids, up to `K`. -/
  count : (q.pushAll replies).closestReplies.length =
    min K (replies.map QueryReply.fromId).toFinset.card
  pushed : ∀ id ∈ (q.pushAll replies).heldIds, id ∈ replies.map QueryReply.fromId
  /-- An id that was pushed and is not held is farther away than all that are. -/
  nearest : ∀ id ∈ (q.pushAll replies).heldIds, ∀ other ∈ replies.map QueryReply.fromId,
    other ∉ (q.pushAll replies).heldIds → q.target.xor id < q.target.xor other
  represents : ∀ reply ∈ (q.pushAll replies).closestReplies, q.Represents replies reply
  /-- A reply that is held is the first that was pushed with its id. -/
  first : ∀ reply ∈ (q.pushAll replies).closestReplies, ∃ before after,
    replies = before ++ reply :: after ∧ reply.fromId ∉ before.map QueryReply.fromId
  closer : ∀ id, (q.pushAll replies).isCloser id = true ↔
    (q.pushAll replies).closestReplies.length < K ∨
      ∃ last, (q.pushAll replies).closestReplies.getLast? = some last ∧
        q.target.xor id < q.target.xor last.fromId

lemma pushAll_concat (q : Query) (replies : List QueryReply) (reply : QueryReply) :
    q.pushAll (replies ++ [reply]) = (q.pushAll replies).pushClosest reply := by
  simp [pushAll]

@[simp] lemma target_pushAll (q : Query) (replies : List QueryReply) :
    (q.pushAll replies).target = q.target := by
  induction replies using List.reverseRecOn with
  | nil => rfl
  | append_singleton replies reply ih =>
    rw [pushAll_concat, ← ih]
    rfl

@[simp] lemma distance_pushAll (q : Query) (replies : List QueryReply) :
    (q.pushAll replies).distance = q.distance := by
  unfold distance
  rw [target_pushAll]

lemma distance_eq_iff (q : Query) (a b : QueryReply) :
    q.distance a = q.distance b ↔ a.fromId = b.fromId :=
  (xor_injective q.target).eq_iff

lemma ranked_of_nil {q : Query} (h : q.closestReplies = []) : Ranked q := by
  constructor <;> simp [h, TopK.Sorted]

lemma ranked_pushAll {q : Query} (h : Ranked q) (replies : List QueryReply) :
    Ranked (q.pushAll replies) := by
  induction replies using List.reverseRecOn with
  | nil => exact h
  | append_singleton replies reply ih =>
    rw [pushAll_concat]
    exact ih.pushClosest reply

/-- **The closest replies are the first `K` of the sorted replies.** -/
theorem closestReplies_pushAll {q : Query} (h : q.closestReplies = [])
    (replies : List QueryReply) :
    (q.pushAll replies).closestReplies = (TopK.insertAll q.distance replies).take K := by
  rw [← TopK.foldl_push_eq]
  induction replies using List.reverseRecOn with
  | nil => exact h
  | append_singleton replies reply ih =>
    have hranked := ranked_pushAll (ranked_of_nil h) replies
    rw [pushAll_concat, pushClosest_eq hranked.sorted hranked.length_le, distance_pushAll, ih,
      List.foldl_append, List.foldl_cons, List.foldl_nil]

lemma exists_mem_insertAll (q : Query) {replies : List QueryReply} {id : NodeId}
    (h : id ∈ replies.map QueryReply.fromId) :
    ∃ r ∈ TopK.insertAll q.distance replies, r.fromId = id := by
  obtain ⟨reply, hreply, rfl⟩ := List.mem_map.1 h
  obtain ⟨r, hr, hkey⟩ :=
    (@TopK.exists_key_insertAll _ _ _ q.distance replies _).2 ⟨reply, hreply, rfl⟩
  exact ⟨r, hr, (distance_eq_iff q r reply).1 hkey⟩

lemma card_distances (q : Query) (replies : List QueryReply) :
    (replies.map q.distance).toFinset.card =
      (replies.map QueryReply.fromId).toFinset.card := by
  have hmap : replies.map q.distance = (replies.map QueryReply.fromId).map q.target.xor := by
    rw [List.map_map]
    rfl
  have himage : (replies.map q.distance).toFinset =
      (replies.map QueryReply.fromId).toFinset.image q.target.xor := by
    rw [hmap]
    ext x
    simp
  rw [himage, Finset.card_image_of_injective _ (xor_injective q.target)]

lemma first_of_mem_pushAll {q : Query} (h : q.closestReplies = []) {replies : List QueryReply}
    {reply : QueryReply} (hheld : reply ∈ (q.pushAll replies).closestReplies) :
    ∃ before after, replies = before ++ reply :: after ∧
      reply.fromId ∉ before.map QueryReply.fromId := by
  rw [closestReplies_pushAll h] at hheld
  obtain ⟨before, after, heq, hfirst⟩ :=
    TopK.exists_append_of_mem_insertAll (List.mem_of_mem_take hheld)
  refine ⟨before, after, heq, fun hmem => ?_⟩
  obtain ⟨c, hc, hid⟩ := List.mem_map.1 hmem
  exact hfirst c hc ((distance_eq_iff q c reply).2 hid)

/-- **A reply that is held has been held since it was pushed**, and it was pushed when its id was
absent. -/
lemma represents_of_mem_pushAll {q : Query} (h : q.closestReplies = []) {replies : List QueryReply}
    {reply : QueryReply} (hheld : reply ∈ (q.pushAll replies).closestReplies) :
    q.Represents replies reply := by
  obtain ⟨before, after, rfl, hfirst⟩ := first_of_mem_pushAll h hheld
  refine ⟨before, after, rfl, fun hid => ?_, fun mid ⟨rest, hrest⟩ => ?_⟩
  · obtain ⟨r, hr, hsame⟩ := List.mem_map.1 hid
    rw [closestReplies_pushAll h] at hr
    obtain ⟨front, back, heq, -⟩ :=
      TopK.exists_append_of_mem_insertAll (List.mem_of_mem_take hr)
    exact hfirst (hsame ▸ List.mem_map_of_mem (heq ▸ by simp))
  · have hinserted : reply ∈ TopK.insertAll q.distance (before ++ reply :: mid) := by
      have hnew : reply ∈ TopK.insertAll q.distance (before ++ [reply]) := by
        rw [TopK.insertAll_concat]
        refine TopK.mem_insertKey_self fun b hb hkey => hfirst ?_
        obtain ⟨c, hc, hsame⟩ := TopK.exists_key_insertAll.1 ⟨b, hb, hkey⟩
        exact (distance_eq_iff q c reply).1 hsame ▸ List.mem_map_of_mem hc
      rw [← List.singleton_append, ← List.append_assoc]
      exact TopK.mem_insertAll_append mid hnew
    rw [closestReplies_pushAll h] at hheld ⊢
    refine TopK.mem_take_of_mem_take_append rest hinserted ?_
    rwa [List.append_assoc, List.cons_append, hrest]

lemma isCloser_iff (q : Query) (id : NodeId) :
    q.isCloser id = true ↔ q.closestReplies.length < K ∨
      ∃ last, q.closestReplies.getLast? = some last ∧
        q.target.xor id < q.target.xor last.fromId := by
  unfold isCloser
  split
  · rename_i hshort
    simp [hshort]
  · rename_i hlong
    rw [or_iff_right hlong]
    cases hlast : q.closestReplies.getLast? with
    | none =>
      rw [List.getLast?_eq_none_iff] at hlast
      simp [hlast, K] at hlong
    | some last => simp [compare, compareDistance_neg_iff]

/-- **The frontier**: after every sequence of pushes the closest replies are those of the `K`
nearest ids, in order, each the first that was pushed with its id. -/
theorem frontier_pushAll (q : Query) (h : q.closestReplies = []) (replies : List QueryReply) :
    q.Frontier replies := by
  have hranked := ranked_pushAll (ranked_of_nil h) replies
  have hsorted := hranked.sorted
  rw [distance_pushAll] at hsorted
  exact {
    increasing := hsorted
    capped := hranked.length_le
    count := by
      rw [closestReplies_pushAll h, List.length_take, TopK.length_insertAll, card_distances]
    pushed := by
      intro id hid
      obtain ⟨reply, hheld, rfl⟩ := List.mem_map.1 hid
      obtain ⟨before, after, rfl, -⟩ := first_of_mem_pushAll h hheld
      simp
    nearest := by
      intro id hid other hother habsent
      obtain ⟨reply, hheld, rfl⟩ := List.mem_map.1 hid
      obtain ⟨r, hr, rfl⟩ := exists_mem_insertAll q hother
      have hcut : r ∉ (q.pushAll replies).closestReplies := fun hmem =>
        habsent (List.mem_map_of_mem hmem)
      rw [closestReplies_pushAll h] at hheld hcut
      exact (TopK.sorted_insertAll replies).lt_of_notMem_take hheld hr hcut
    represents := fun reply hheld => represents_of_mem_pushAll h hheld
    first := fun reply hheld => first_of_mem_pushAll h hheld
    closer := by
      intro id
      rw [isCloser_iff, target_pushAll] }

/-- A new query has no closest replies, so that its pushes make a frontier. -/
theorem frontier_create :
    (create NodeId.zero 1 none {}).Frontier
      [⟨NodeId.zero, Ipv4Address.fromString "10.0.0.1".toList 1, none, none, []⟩] :=
  frontier_pushAll _ rfl _

end Query

end HyperDHT
