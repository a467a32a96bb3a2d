import HyperDHT.Lib.Trace
import HyperDHT.Query.Walk

/-!
# The callbacks of a query

What a caller may rely on: `on_done_` is called once, after the last `on_reply_` and never while
one is running; after `destroy()` there are no more replies; after the query is done it sends no
more visits. The handlers may call `destroy()` wherever they run.

## Main definitions

* `Query.Allowed` — what may have happened before an event.
* `Query.Lawful` — the trace keeps to that law, and the flags tell what is on the trace.

## Main results

* `Query.Move.lawful` — every small step keeps to the law.
* `Walk.callbacks_lawful` — every walk keeps to the law, and a query that is done at rest has
  called `on_done_`.
-/

set_option autoImplicit false

namespace HyperDHT

open Compact Routing Rpc Relation

namespace Query

/-! ## The law -/

/-- A call of `on_reply_`. -/
def isReplyEnter : QueryEvent → Bool
  | .replyEnter _ => true
  | _ => false

/-- A return from `on_reply_`. -/
def isReplyExit : QueryEvent → Bool
  | .replyExit => true
  | _ => false

/-- What may have happened before an event. Before `on_done_` there was no other `on_done_`, and
every `on_reply_` that was called has returned. Before an `on_reply_` there was neither an
`on_done_` nor a `destroy()`. Before a visit `done_` was not set. -/
def Allowed (history : List QueryEvent) : QueryEvent → Prop
  | .onDone _ => (∀ closest, .onDone closest ∉ history) ∧
      history.countP isReplyEnter = history.countP isReplyExit
  | .replyEnter _ => (∀ closest, .onDone closest ∉ history) ∧ .destroyCalled ∉ history
  | .visit _ => .doneSet ∉ history
  | _ => True

/-- The trace keeps to the law, and the flags tell what is on it. -/
structure Lawful (q : Query) : Prop where
  always : Trace.Always Allowed q.trace
  fired_iff : q.pendingDoneFired = true ↔ ∃ closest, .onDone closest ∈ q.trace
  fired_done : q.pendingDoneFired = true → q.done = true
  destroyed_done : .destroyCalled ∈ q.trace → q.done = true
  doneSet_done : .doneSet ∈ q.trace → q.done = true
  /-- At most one `on_reply_` is running. -/
  replies : q.trace.countP isReplyEnter =
    q.trace.countP isReplyExit + q.dispatchingReply.toNat

/-- An event that is not one of those that the law and the flags speak about. -/
def isNeutral : QueryEvent → Bool
  | .accepted _ | .skipped _ | .readMore _ | .ended _ | .commit _ => true
  | _ => false

lemma Lawful.emit_neutral {q q' : Query} (h : q.Lawful) {e : QueryEvent}
    (hneutral : isNeutral e = true) (htrace : q'.trace = q.trace ++ [e])
    (hdone : q'.done = q.done) (hfired : q'.pendingDoneFired = q.pendingDoneFired)
    (hdispatching : q'.dispatchingReply = q.dispatchingReply) : q'.Lawful := by
  constructor
  · rw [htrace, Trace.always_concat]
    refine ⟨h.always, ?_⟩
    cases e <;> trivial
  · rw [hfired, h.fired_iff, htrace]
    cases e <;> first | contradiction | simp
  · rw [hfired, hdone]
    exact h.fired_done
  · rw [hdone, htrace]
    intro hmem
    refine h.destroyed_done ?_
    cases e <;> first | contradiction | simpa using hmem
  · rw [hdone, htrace]
    intro hmem
    refine h.doneSet_done ?_
    cases e <;> first | contradiction | simpa using hmem
  · rw [hdispatching, htrace]
    have hreplies := h.replies
    cases e <;> first | contradiction | simpa [isReplyEnter, isReplyExit] using hreplies

lemma Lawful.congr {q q' : Query} (h : q.Lawful) (htrace : q'.trace = q.trace)
    (hdone : q'.done = q.done) (hfired : q'.pendingDoneFired = q.pendingDoneFired)
    (hdispatching : q'.dispatchingReply = q.dispatchingReply) : q'.Lawful := by
  constructor
  · rw [htrace]
    exact h.always
  · rw [hfired, htrace]
    exact h.fired_iff
  · rw [hfired, hdone]
    exact h.fired_done
  · rw [htrace, hdone]
    exact h.destroyed_done
  · rw [htrace, hdone]
    exact h.doneSet_done
  · rw [htrace, hdispatching]
    exact h.replies

lemma Lawful.visit {q : Query} (h : q.Lawful) (hdone : q.done = false) (node : PendingNode) :
    (q.visit node).Lawful := by
  have hset : .doneSet ∉ q.trace := fun hmem => by simpa [hdone] using h.doneSet_done hmem
  constructor
  · exact Trace.always_concat.2 ⟨h.always, hset⟩
  · simpa [Query.visit, emit] using h.fired_iff
  · exact h.fired_done
  · simpa [Query.visit, emit] using h.destroyed_done
  · simpa [Query.visit, emit] using h.doneSet_done
  · simpa [Query.visit, emit, isReplyEnter, isReplyExit] using h.replies

lemma Lawful.setDone {q : Query} (h : q.Lawful) : q.setDone.Lawful := by
  constructor
  · exact Trace.always_concat.2 ⟨h.always, trivial⟩
  · simpa [Query.setDone, emit] using h.fired_iff
  · exact fun _ => rfl
  · exact fun _ => rfl
  · exact fun _ => rfl
  · simpa [Query.setDone, emit, isReplyEnter, isReplyExit] using h.replies

lemma Lawful.destroyCalled {q : Query} (h : q.Lawful) (hdone : q.done = true) :
    (q.emit .destroyCalled).Lawful := by
  constructor
  · exact Trace.always_concat.2 ⟨h.always, trivial⟩
  · simpa [emit] using h.fired_iff
  · exact h.fired_done
  · exact fun _ => hdone
  · exact fun _ => hdone
  · simpa [emit, isReplyEnter, isReplyExit] using h.replies

lemma Quiet.lawful {q q' : Query} (hquiet : Quiet q q') (h : q.Lawful) : q'.Lawful := by
  cases hquiet with
  | accept node => exact h.emit_neutral (e := .accepted node) rfl rfl rfl rfl rfl
  | skip node => exact h.emit_neutral (e := .skipped node) rfl rfl rfl rfl rfl
  | visit node rest hdone =>
    exact Lawful.visit (q := { q with pending := rest }) (h.congr rfl rfl rfl rfl) hdone node
  | enter depth => exact h.emit_neutral (e := .readMore depth) rfl rfl rfl rfl rfl
  | _ => exact h.congr rfl rfl rfl rfl

lemma Closing.lawful {q q' : Query} (hclosing : Closing q q') (h : q.Lawful) : q'.Lawful := by
  cases hclosing with
  | destroyAgain hdone => exact h.destroyCalled hdone
  | destroy =>
    -- the call is recorded before `done_` is set, so the two are taken together
    have hset : ({ q with done := true } : Query).Lawful :=
      ⟨h.always, h.fired_iff, fun _ => rfl, fun _ => rfl, fun _ => rfl, h.replies⟩
    exact (hset.destroyCalled rfl).setDone.congr rfl rfl rfl rfl
  | commit reply => exact h.emit_neutral (e := .commit reply) rfl rfl rfl rfl rfl
  | finish => exact h.setDone
  | fire hdone hdispatching hfired =>
    have hnone : ∀ closest, .onDone closest ∉ q.trace := by
      intro closest hmem
      simpa [hfired] using h.fired_iff.2 ⟨closest, hmem⟩
    have hreturned : q.trace.countP isReplyEnter = q.trace.countP isReplyExit := by
      simpa [hdispatching] using h.replies
    constructor
    · exact Trace.always_concat.2 ⟨h.always, hnone, hreturned⟩
    · simp [emit]
    · exact fun _ => hdone
    · exact fun _ => hdone
    · exact fun _ => hdone
    · simpa [emit, isReplyEnter, isReplyExit] using h.replies
  | _ => exact h.congr rfl rfl rfl rfl

/-- **Every step keeps to the law.** -/
theorem Move.lawful {q q' : Query} (hmove : Move q q') (h : q.Lawful) : q'.Lawful := by
  cases hmove with
  | small hsmall =>
    have hended : (q.emit (.ended q.closestReplies)).Lawful :=
      h.emit_neutral (e := .ended q.closestReplies) rfl rfl rfl rfl rfl
    cases hsmall with
    | quiet hquiet => exact hquiet.lawful h
    | closing hclosing => exact hclosing.lawful h
    | endCommit => exact hended.congr rfl rfl rfl rfl
    | endDone => exact hended.setDone
  | replyEnter reply hdone hdispatching =>
    have hnone : ∀ closest, .onDone closest ∉ q.trace := by
      intro closest hmem
      simpa [hdone] using h.fired_done (h.fired_iff.2 ⟨closest, hmem⟩)
    have hlive : .destroyCalled ∉ q.trace := fun hmem => by
      simpa [hdone] using h.destroyed_done hmem
    constructor
    · exact Trace.always_concat.2 ⟨h.always, hnone, hlive⟩
    · simpa [emit] using h.fired_iff
    · exact h.fired_done
    · simpa [emit] using h.destroyed_done
    · simpa [emit] using h.doneSet_done
    · simpa [emit, isReplyEnter, isReplyExit, hdispatching] using h.replies
  | replyExit hdispatching =>
    constructor
    · exact Trace.always_concat.2 ⟨h.always, trivial⟩
    · simpa [emit] using h.fired_iff
    · exact h.fired_done
    · simpa [emit] using h.destroyed_done
    · simpa [emit] using h.doneSet_done
    · simpa [emit, isReplyEnter, isReplyExit, hdispatching] using h.replies

end Query

/-! ## Walks -/

namespace Walk

open Query

lemma lawful_init (target : NodeId) (command : UInt32) (value : Option (List UInt8))
    (opts : Options) : (init target command value opts).query.Lawful where
  always := Trace.always_nil _
  fired_iff := by simp [init, create]
  fired_done := by simp [init, create]
  destroyed_done := by simp [init, create]
  doneSet_done := by simp [init, create]
  replies := rfl

/-- **The callbacks of a query.** Along every walk, whatever the replies and timeouts are and
wherever the handlers call `destroy()`: `on_done_` is called at most once, and only when every
`on_reply_` has returned; `on_reply_` is not called after `on_done_` or after `destroy()`; no visit
is sent after `done_` is set. And a query that is done between two inputs has called its
`on_done_`.

**Proof sketch.** Every small step keeps to the law, because the flags tell what is on the trace,
and a deferred completion is taken up before the input has been dealt with. -/
theorem callbacks_lawful (blake2b : List UInt8 → NodeId) (target : NodeId) (command : UInt32)
    (value : Option (List UInt8)) (opts : Options) (is : List Input) :
    Trace.Always Allowed
        (Runs.run (step blake2b) (init target command value opts) is).query.trace ∧
      ((Runs.run (step blake2b) (init target command value opts) is).query.done = true →
        (Runs.run (step blake2b) (init target command value opts) is).query.hasOnDone = true →
        ∃ closest, .onDone closest ∈
          (Runs.run (step blake2b) (init target command value opts) is).query.trace) := by
  have hlawful := query_invariant blake2b (P := Lawful) (fun _ _ hmove h => hmove.lawful h)
    (fun _ _ _ h => h.congr rfl rfl rfl rfl) (rest_init target command value opts)
    (lawful_init target command value opts) is
  have hrest := rest_run blake2b (rest_init target command value opts) is
  exact ⟨hlawful.always, fun hdone hhas => hlawful.fired_iff.1 (hrest.settled.2 hdone hhas)⟩

end Walk

end HyperDHT
