import HyperDHT.Query.Callbacks
import HyperDHT.Query.Completeness

/-!
# Queries that commit to nobody

A query without `on_commit_`, whose other two callbacks are installed: it calls `on_reply_` for its
replies and `on_done_` at its end, and until then a visit of it waits for an answer.

## Main definitions

* `Query.Plain` — a query without `on_commit_` that is done once it has ended its walk.
* `Walk.newEvents` — what a walk did in a step.
* `Walk.Reporting` — a started walk between two inputs whose query has the two callbacks.

## Main results

* `Walk.Reporting.step` — what a reporting walk goes on as.
* `Walk.Reporting.outstanding_ne_nil` — a query that has not called `on_done_` waits for an answer.
* `Walk.Reporting.reply_mem` — a response to a visit is reported.
* `Walk.Reporting.newEvents_cases` — the calls of a step: none if `on_done_` was called before, and
  otherwise replies with the call of `on_done_` after them, if the query is done by then.
-/

set_option autoImplicit false

namespace HyperDHT

open Compact Routing Rpc Relation

namespace Query

/-! ## Plain queries -/

/-- A query without `on_commit_` does not commit, so it is done once its walk has ended. -/
structure Plain (q : Query) : Prop where
  hasOnCommit : q.hasOnCommit = false
  done_of_committing : q.committing = true → q.done = true

variable {q q' : Query}

lemma Plain.quiets (hq : q.Plain) (h : Quiets q q') : q'.Plain where
  hasOnCommit := h.smalls.moves.sameConfig.hasOnCommit.trans hq.hasOnCommit
  done_of_committing := by
    rw [h.sameFlags.committing, h.sameFlags.done]
    exact hq.done_of_committing

lemma Plain.closings (hq : q.Plain) (h : Closings q q') : q'.Plain := by
  refine ⟨h.smalls.moves.sameConfig.hasOnCommit.trans hq.hasOnCommit, ?_⟩
  induction h with
  | refl => exact hq.done_of_committing
  | tail _ h ih =>
    cases h with
    | destroy => exact fun _ => rfl
    | finish => exact fun _ => rfl
    | _ => exact ih

lemma Plain.destroyWith {fire : Query → Query} (hfire : ∀ q : Query, q.Plain → (fire q).Plain)
    (hq : q.Plain) : (destroyWith fire q).Plain := by
  unfold Query.destroyWith
  dsimp only
  split
  · exact ⟨hq.hasOnCommit, hq.done_of_committing⟩
  · split
    · exact ⟨hq.hasOnCommit, fun _ => rfl⟩
    · exact hfire _ ⟨hq.hasOnCommit, fun _ => rfl⟩

lemma Plain.fireDoneOnce (hq : q.Plain) (env : Env) : (fireDoneOnce env q).Plain := by
  unfold Query.fireDoneOnce
  split
  · have hiterate : ∀ (n : ℕ) (q : Query), q.Plain → ((Query.destroyWith id)^[n] q).Plain := by
      intro n
      induction n with
      | zero => exact fun q hq => hq
      | succ n ih => exact fun q hq => ih _ (hq.destroyWith fun _ hq => hq)
    exact hiterate _ _ ⟨hq.hasOnCommit, hq.done_of_committing⟩
  · exact hq

lemma Plain.maybeFinish (hq : q.Plain) (env : Env) : (q.maybeFinish env).Plain := by
  unfold Query.maybeFinish
  split_ifs
  · exact hq
  · exact hq
  · exact hq
  · dsimp only
    rw [if_neg (by simp [emit, hq.hasOnCommit])]
    refine Plain.fireDoneOnce ?_ env
    exact ⟨hq.hasOnCommit, fun _ => rfl⟩

lemma Plain.readMore (hq : q.Plain) (hlive : q.done = false → ¬ q.Ended) (env : Env) :
    (q.readMore env).Plain :=
  readMore_rule env (fun _ _ hquiets hq => hq.quiets hquiets) (fun _ hq => hq.maybeFinish env)
    hlive hq

lemma Plain.start (hq : q.Plain) (hlive : ¬ q.Ended) (env : Env) : (q.start env).Plain := by
  have hseeds : Quiets q ((q.takeSeeds env).topUp env) :=
    (takeSeeds_quiets env q).trans (topUp_quiets env _)
  exact (hq.quiets hseeds).readMore (fun _ => hseeds.not_ended hlive) env

lemma fireDoneOnce_trace (env : Env) (q : Query) : q.trace <+: (fireDoneOnce env q).trace := by
  have hdestroy : ∀ q : Query, q.trace <+: (destroyWith id q).trace := by
    intro q
    unfold destroyWith
    dsimp only
    split_ifs
    · exact List.prefix_append _ _
    · exact ⟨[.destroyCalled, .doneSet], by simp [emit, setDone]⟩
    · exact ⟨[.destroyCalled, .doneSet], by simp [emit, setDone]⟩
  have hiterate : ∀ (n : ℕ) (q : Query), q.trace <+: ((destroyWith id)^[n] q).trace := by
    intro n
    induction n with
    | zero => exact fun q => List.prefix_rfl
    | succ n ih => exact fun q => (hdestroy q).trans (ih _)
  unfold fireDoneOnce
  split
  · refine List.IsPrefix.trans ?_ (hiterate _ _)
    exact List.prefix_append _ _
  · exact List.prefix_rfl

lemma onVisitResponse_eq (blake2b : List UInt8 → NodeId) (env : Env) (node : PendingNode)
    (hseen : node.addr.hostPort ∈ q.seen.map Prod.fst) (hlive : ¬ q.Ended)
    (hdone : q.done = false) (hreply : q.hasOnReply = true) (resp : Response) :
    ∃ q₁, Quiets q q₁ ∧ q.onVisitResponse blake2b env node resp =
      let q₂ := (q₁.dispatchReply env (replyOf node resp)).readMore env
      if q₂.pendingDone then fireDoneOnce env { q₂ with pendingDone := false } else q₂ := by
  have habsorb := absorb_quiets blake2b env hseen hlive resp
  have hreply' : (q.absorb blake2b env node resp).hasOnReply = true :=
    habsorb.smalls.moves.sameConfig.hasOnReply.trans hreply
  exact ⟨_, habsorb, by simp [onVisitResponse, hdone, hreply']⟩

lemma onVisitResponse_plain (hq : q.Plain) (blake2b : List UInt8 → NodeId) (env : Env)
    {node : PendingNode} (hseen : node.addr.hostPort ∈ q.seen.map Prod.fst) (hlive : ¬ q.Ended)
    (hdispatching : q.dispatchingReply = false) (hreply : q.hasOnReply = true)
    (resp : Response) :
    (q.onVisitResponse blake2b env node resp).Plain ∧
      (q.done = false → ∃ before after, (q.onVisitResponse blake2b env node resp).trace =
        q.trace ++ (before ++ .replyEnter (replyOf node resp) :: after)) := by
  cases hdone : q.done with
  | true => simpa [onVisitResponse, hdone] using hq
  | false =>
    obtain ⟨q₁, hquiets, heq⟩ := onVisitResponse_eq blake2b env node hseen hlive hdone hreply resp
    have hflags := hquiets.sameFlags
    have hcalled := iterate_destroy_closings env
      ({ q₁ with dispatchingReply := true }.emit (.replyEnter (replyOf node resp)))
      (env.onReply (replyOf node resp))
    obtain ⟨-, hended⟩ := dispatchReply_moves env (hflags.done.trans hdone)
      (hquiets.not_ended hlive) (hflags.dispatchingReply.trans hdispatching) (replyOf node resp)
    obtain ⟨hmore, -⟩ := readMore_spec env (q := q₁.dispatchReply env (replyOf node resp))
      (fun _ => hended) rfl
    have hplain₁ := hq.quiets hquiets
    have hplain : (q₁.dispatchReply env (replyOf node resp)).Plain := by
      have hentered := Plain.closings
        (q := { q₁ with dispatchingReply := true }.emit (.replyEnter (replyOf node resp)))
        ⟨hplain₁.hasOnCommit, hplain₁.done_of_committing⟩ hcalled
      exact ⟨hentered.hasOnCommit, hentered.done_of_committing⟩
    have hread := hplain.readMore (fun _ => hended) env
    obtain ⟨before, hbefore⟩ := hquiets.smalls.moves.trace_prefix
    have hentered : q.trace ++ (before ++ [.replyEnter (replyOf node resp)]) <+:
        (q₁.dispatchReply env (replyOf node resp)).trace := by
      rw [← List.append_assoc, hbefore]
      exact hcalled.smalls.moves.trace_prefix.trans (List.prefix_append _ _)
    have hread' := hentered.trans hmore.moves.trace_prefix
    rw [heq]
    generalize (q₁.dispatchReply env (replyOf node resp)).readMore env = q₂ at hread hread' ⊢
    dsimp only
    split
    · refine ⟨Plain.fireDoneOnce ?_ env, fun _ => ?_⟩
      · exact ⟨hread.hasOnCommit, hread.done_of_committing⟩
      · have hfired : q₂.trace <+: (fireDoneOnce env { q₂ with pendingDone := false }).trace :=
          fireDoneOnce_trace env { q₂ with pendingDone := false }
        obtain ⟨after, hafter⟩ := hread'.trans hfired
        exact ⟨before, after, by rw [← hafter]; simp⟩
    · obtain ⟨after, hafter⟩ := hread'
      exact ⟨hread, fun _ => ⟨before, after, by rw [← hafter]; simp⟩⟩

/-- A call of `on_reply_` or of `on_done_`. -/
def isCall : QueryEvent → Bool
  | .replyEnter _ | .onDone _ => true
  | _ => false

lemma Lawful.isCall_eq_false (h : q.Lawful) {before after : List QueryEvent} {e : QueryEvent}
    (htrace : q.trace = before ++ e :: after) {closest : List QueryReply}
    (hdone : .onDone closest ∈ before) : isCall e = false := by
  have hlaw := h.always before e after htrace
  cases e with
  | replyEnter reply => exact absurd hdone (hlaw.1 closest)
  | onDone closest' => exact absurd hdone (hlaw.1 closest)
  | _ => rfl

end Query

/-! ## Reporting walks -/

namespace Walk

open Query

/-- What a walk did in a step. -/
def newEvents (w w' : Walk) : List QueryEvent := w'.query.trace.drop w.query.trace.length

/-- A walk between two inputs whose query has `on_reply_` and `on_done_`, but no `on_commit_`. -/
structure Reporting (w : Walk) : Prop where
  rest : w.Rest
  lawful : w.query.Lawful
  progress : w.Progress
  plain : w.query.Plain
  concurrency : 1 ≤ w.query.concurrency
  hasOnReply : w.query.hasOnReply = true
  hasOnDone : w.query.hasOnDone = true

lemma reporting_init (target : NodeId) (command : UInt32) (value : Option (List UInt8))
    {opts : Options} (hconcurrency : 1 ≤ opts.concurrency) (hreply : opts.hasOnReply = true)
    (hcommit : opts.hasOnCommit = false) (hdone : opts.hasOnDone = true) :
    (init target command value opts).Reporting where
  rest := rest_init target command value opts
  lawful := lawful_init target command value opts
  progress := fun _ hstarted => by simp [init] at hstarted
  plain := ⟨hcommit, fun h => by simp [init, create] at h⟩
  concurrency := hconcurrency
  hasOnReply := hreply
  hasOnDone := hdone

variable {w : Walk}

lemma Reporting.done_eq_fired (h : w.Reporting) : w.query.done = w.query.pendingDoneFired := by
  rw [Bool.eq_iff_iff]
  exact ⟨fun hdone => h.rest.settled.2 hdone h.hasOnDone, h.lawful.fired_done⟩

lemma Reporting.plain_step (h : w.Reporting) (blake2b : List UInt8 → NodeId) (i : Input) :
    (w.step blake2b i).query.Plain := by
  have hsettle : ∀ {w' : Walk} {q : Query}, q.Plain → (w'.settle q).query.Plain :=
    fun hq => ⟨hq.hasOnCommit, hq.done_of_committing⟩
  cases i with
  | addSeedNode node => exact hsettle (h.plain.quiets (addSeedNode_quiets w.query node))
  | addBootstrap env addr => exact hsettle (h.plain.quiets (addPending_quiets env w.query _))
  | destroy env => exact hsettle (h.plain.destroyWith fun _ hq => hq.fireDoneOnce env)
  | commitDone env =>
    refine hsettle ?_
    unfold Query.commitDone
    dsimp only
    split
    · refine Plain.fireDoneOnce ?_ env
      exact ⟨h.plain.hasOnCommit, fun _ => rfl⟩
    · exact ⟨h.plain.hasOnCommit, h.plain.done_of_committing⟩
  | start env =>
    rw [step]
    split
    · exact h.plain
    · rename_i hstarted
      exact hsettle (h.plain.start (h.rest.idle (by simpa using hstarted)).2 env)
  | response env k resp =>
    rw [step]
    cases hk : w.outstanding[k]? with
    | none => exact h.plain
    | some node =>
      obtain ⟨-, hseen, hlive, -⟩ := h.rest.visitBack hk
      exact hsettle (onVisitResponse_plain (q := w.query.visitBack)
        ⟨h.plain.hasOnCommit, h.plain.done_of_committing⟩ blake2b env hseen hlive
        h.rest.dispatching h.hasOnReply resp).1
  | timeout env k =>
    rw [step]
    cases hk : w.outstanding[k]? with
    | none => exact h.plain
    | some node =>
      obtain ⟨-, hseen, hlive, -⟩ := h.rest.visitBack hk
      refine hsettle ?_
      unfold Query.visitTimedOut onVisitTimeout
      split
      · exact ⟨h.plain.hasOnCommit, h.plain.done_of_committing⟩
      · refine Plain.readMore ?_ ?_ env
        · exact ⟨h.plain.hasOnCommit, h.plain.done_of_committing⟩
        · exact fun _ => hlive

/-- **Every input keeps a walk reporting.** -/
theorem Reporting.step (h : w.Reporting) (blake2b : List UInt8 → NodeId) (i : Input) :
    (w.step blake2b i).Reporting := by
  have hconfig := query_invariant blake2b (P := fun q => SameConfig w.query q)
    (fun q q' hmove hq => by
      have hstep := (Moves.sameConfig (.single hmove))
      exact ⟨hstep.target.trans hq.target, hstep.concurrency.trans hq.concurrency,
        hstep.hasOnReply.trans hq.hasOnReply, hstep.hasOnCommit.trans hq.hasOnCommit,
        hstep.hasOnDone.trans hq.hasOnDone⟩)
    (fun _ _ _ hq => ⟨hq.target, hq.concurrency, hq.hasOnReply, hq.hasOnCommit, hq.hasOnDone⟩)
    h.rest ⟨rfl, rfl, rfl, rfl, rfl⟩ [i]
  rw [Runs.run_cons, Runs.run_nil] at hconfig
  constructor
  · exact rest_step blake2b h.rest i
  · exact query_invariant blake2b (P := Lawful) (fun _ _ hmove h => hmove.lawful h)
      (fun _ _ _ h => h.congr rfl rfl rfl rfl) h.rest h.lawful [i]
  · exact progress_step blake2b h.rest h.progress i
  · exact h.plain_step blake2b i
  · rw [hconfig.concurrency]
    exact h.concurrency
  · rw [hconfig.hasOnReply]
    exact h.hasOnReply
  · rw [hconfig.hasOnDone]
    exact h.hasOnDone

lemma started_step (blake2b : List UInt8 → NodeId) (hstarted : w.started = true) (i : Input) :
    (w.step blake2b i).started = true := by
  unfold step
  split
  any_goals exact hstarted
  all_goals
    split
    · exact hstarted
    · first | rfl | exact hstarted

lemma started_start (blake2b : List UInt8 → NodeId) (w : Walk) (env : Env) :
    (w.step blake2b (.start env)).started = true := by
  rw [step]
  split
  · assumption
  · rfl

lemma Rest.trace_step (h : w.Rest) (blake2b : List UInt8 → NodeId) (i : Input) :
    (w.step blake2b i).query.trace =
      w.query.trace ++ newEvents w (w.step blake2b i) := by
  have hprefix := query_invariant blake2b (P := fun q => w.query.trace <+: q.trace)
    (fun _ _ hmove hq => hq.trans (Moves.trace_prefix (.single hmove))) (fun _ _ _ hq => hq)
    h List.prefix_rfl [i]
  exact (List.prefix_iff_eq_append.1 hprefix).symm

/-- **A query that has not called `on_done_` waits for an answer.** -/
theorem Reporting.outstanding_ne_nil (h : w.Reporting) (hstarted : w.started = true)
    (hfired : w.query.pendingDoneFired = false) : w.outstanding ≠ [] := by
  have hdone : w.query.done = false := h.done_eq_fired.trans hfired
  intro hnone
  rcases h.progress h.concurrency hstarted with hd | ⟨closest, hended⟩ | hpos
  · simp [hdone] at hd
  · have hflags := (h.rest.sound.ended_final closest hended).2.2
    have hcommitting := h.plain.done_of_committing
    simp_all
  · rw [h.rest.inflight, hnone] at hpos
    simp at hpos

/-- **A response to a visit is reported**, unless the query is done. -/
theorem Reporting.reply_mem (h : w.Reporting) (blake2b : List UInt8 → NodeId) (env : Env) {k : ℕ}
    {node : PendingNode} (hk : w.outstanding[k]? = some node)
    (hfired : w.query.pendingDoneFired = false) (resp : Response) :
    .replyEnter (replyOf node resp) ∈ newEvents w (w.step blake2b (.response env k resp)) := by
  obtain ⟨-, hseen, hlive, -⟩ := h.rest.visitBack hk
  obtain ⟨before, after, htrace⟩ := (onVisitResponse_plain (q := w.query.visitBack)
    ⟨h.plain.hasOnCommit, h.plain.done_of_committing⟩ blake2b env hseen hlive
    h.rest.dispatching h.hasOnReply resp).2 (h.done_eq_fired.trans hfired)
  have hstep : (w.step blake2b (.response env k resp)).query.trace =
      w.query.trace ++ (before ++ .replyEnter (replyOf node resp) :: after) := by
    rw [Walk.step, hk]
    exact htrace
  rw [h.rest.trace_step blake2b, List.append_cancel_left_eq] at hstep
  rw [hstep]
  simp

/-! ## The calls of a step -/

lemma Reporting.isCall_eq_false (h : w.Reporting) (blake2b : List UInt8 → NodeId) (i : Input)
    (hfired : w.query.pendingDoneFired = true) {e : QueryEvent}
    (he : e ∈ newEvents w (w.step blake2b i)) : isCall e = false := by
  obtain ⟨closest, hdone⟩ := h.lawful.fired_iff.1 hfired
  obtain ⟨before, after, hsplit⟩ := List.append_of_mem he
  have htrace := h.rest.trace_step blake2b i
  rw [hsplit, ← List.append_assoc] at htrace
  exact (h.step blake2b i).lawful.isCall_eq_false htrace (List.mem_append_left _ hdone)

lemma Reporting.fired_step (h : w.Reporting) (blake2b : List UInt8 → NodeId) (i : Input)
    (hfired : w.query.pendingDoneFired = true) :
    (w.step blake2b i).query.pendingDoneFired = true := by
  obtain ⟨closest, hdone⟩ := h.lawful.fired_iff.1 hfired
  refine (h.step blake2b i).lawful.fired_iff.2 ⟨closest, ?_⟩
  rw [h.rest.trace_step blake2b]
  exact List.mem_append_left _ hdone

lemma Reporting.onDone_notMem (h : w.Reporting) (blake2b : List UInt8 → NodeId) (i : Input)
    (hfired : (w.step blake2b i).query.pendingDoneFired = false) (closest : List QueryReply) :
    .onDone closest ∉ newEvents w (w.step blake2b i) := by
  intro hmem
  have hdone := (h.step blake2b i).lawful.fired_iff.2 ⟨closest, by
    rw [h.rest.trace_step blake2b]
    exact List.mem_append_right _ hmem⟩
  simp [hfired] at hdone

lemma Reporting.newEvents_of_fired (h : w.Reporting) (blake2b : List UInt8 → NodeId) (i : Input)
    (hwaits : w.query.pendingDoneFired = false)
    (hfired : (w.step blake2b i).query.pendingDoneFired = true) :
    ∃ before closest after,
      newEvents w (w.step blake2b i) = before ++ .onDone closest :: after ∧
        (∀ closest, .onDone closest ∉ before) ∧ ∀ e ∈ after, isCall e = false := by
  have hlawful := (h.step blake2b i).lawful
  have htrace := h.rest.trace_step blake2b i
  obtain ⟨closest, hdone⟩ := hlawful.fired_iff.1 hfired
  have hnew : .onDone closest ∈ newEvents w (w.step blake2b i) := by
    rw [htrace] at hdone
    refine (List.mem_append.1 hdone).resolve_left fun hold => ?_
    simpa [hwaits] using h.lawful.fired_iff.2 ⟨closest, hold⟩
  obtain ⟨before, after, hsplit⟩ := List.append_of_mem hnew
  refine ⟨before, closest, after, hsplit, fun closest' hbefore => ?_, fun e he => ?_⟩
  · have hall : (w.step blake2b i).query.trace =
        (w.query.trace ++ before) ++ .onDone closest :: after := by
      rw [htrace, hsplit, List.append_assoc]
    exact (hlawful.always _ _ _ hall).1 closest' (List.mem_append_right _ hbefore)
  · obtain ⟨mid, rest, rfl⟩ := List.append_of_mem he
    have hall : (w.step blake2b i).query.trace =
        (w.query.trace ++ (before ++ .onDone closest :: mid)) ++ e :: rest := by
      rw [htrace, hsplit]
      simp
    have hmem : QueryEvent.onDone closest ∈ w.query.trace ++ (before ++ .onDone closest :: mid) := by
      simp
    exact hlawful.isCall_eq_false hall hmem

end Walk

end HyperDHT
