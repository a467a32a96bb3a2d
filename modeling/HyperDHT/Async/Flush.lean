import HyperDHT.Async.Semaphore
import HyperDHT.Lib.Trace

/-!
# The flush of the semaphore

A flush asks to be called when nothing is active any more. The semaphore has one place for it, so that a flush that is
issued while another one waits takes its place; and a holder that signals while `destroy` rejects the queue calls the
flush with `true`.

## Main definitions

* `Async.FlushCallOk` — a call of a flush comes at a moment when it may.
* `Async.FlushesAnswered` — every flush is called once, and at such a moment.
* `Async.FlushSafe` — the condition on the steps.

## Main results

* `Async.flushesAnswered_iff` — the flushes are answered in every state of exactly the runs whose steps meet the
  condition.
* `Async.not_flushesAnswered_twoFlushes` — two flushes that overlap.
-/

set_option autoImplicit false

namespace HyperDHT.Async

open Runs Trace

namespace Event

/-- The flush that was issued. -/
def flushed : Event → Option ℕ
  | .flush f => some f
  | _ => none

/-- The flush whose callback was called. -/
def flushAnswered : Event → Option ℕ
  | .flushCallback f _ => some f
  | _ => none

end Event

/-- The flushes that were issued. -/
def flushes (trace : List Event) : List ℕ := trace.filterMap Event.flushed

/-- The flushes whose callbacks were called. -/
def flushAnswers (trace : List Event) : List ℕ := trace.filterMap Event.flushAnswered

/-! ## The claim -/

/-- A call of a flush with `true` comes when no grant is outstanding, and all waits issued before the flush were
granted and have signalled; one with `false` comes after `destroy`. -/
def FlushCallOk (before : List Event) : Event → Prop
  | .flushCallback f true =>
    holders before = [] ∧ ∀ w ∈ waits before, w < f → w ∈ grants before ∧ .signal w ∈ before
  | .flushCallback _ false => .destroy ∈ before
  | _ => True

instance (before : List Event) : (e : Event) → Decidable (FlushCallOk before e)
  | .flushCallback f true => inferInstanceAs (Decidable (holders before = [] ∧
      ∀ w ∈ waits before, w < f → w ∈ grants before ∧ .signal w ∈ before))
  | .flushCallback _ false => inferInstanceAs (Decidable (.destroy ∈ before))
  | .wait _ => .isTrue trivial
  | .flush _ => .isTrue trivial
  | .signal _ => .isTrue trivial
  | .destroy => .isTrue trivial
  | .waitCallback _ _ => .isTrue trivial

/-- **Every flush is answered**: its callback is called once, or it waits at its place, and then some grant is
outstanding when no call is in progress; and it is called at the right moment. -/
structure FlushesAnswered (s : Semaphore) : Prop where
  once : (flushAnswers s.trace).Nodup
  kept : ∀ f ∈ flushes s.trace, f ∈ flushAnswers s.trace ∨ s.flushCb = some f
  pending : s.stack = [] → s.flushCb ≠ none → holders s.trace ≠ []
  calls : Always FlushCallOk s.trace

/-- While the semaphore is not destroyed, no flush is issued while another one waits, nor while waits are queued and
nothing is active, as at a limit of zero; and when `destroy` has begun and a flush still waits, no holder signals
unless it is the last one, and the waits issued before the flush were all granted. -/
def FlushSafe (s : Semaphore) : SemaphoreInput → Prop
  | .flush => s.destroyed = false → s.flushCb = none ∧ (s.active = 0 → s.waiting = [])
  | .signal w => w ∈ holders s.trace → s.destroyed = true → ∀ f, s.flushCb = some f →
      (holders s.trace).erase w = [] ∧ ∀ v ∈ waits s.trace, v < f → v ∈ grants s.trace
  | _ => True

/-! ## The trace -/

@[simp] lemma flushes_append (trace events : List Event) :
    flushes (trace ++ events) = flushes trace ++ flushes events := List.filterMap_append

@[simp] lemma flushAnswers_append (trace events : List Event) :
    flushAnswers (trace ++ events) = flushAnswers trace ++ flushAnswers events := List.filterMap_append

lemma holds_or_signalled {trace : List Event} {w : ℕ} (h : w ∈ grants trace) :
    w ∈ holders trace ∨ .signal w ∈ trace := by
  induction trace using List.reverseRecOn with
  | nil => simp [grants] at h
  | append_singleton trace e ih =>
    rw [grants_concat, List.mem_append] at h
    rw [holders_concat, List.mem_append]
    rcases h with hold | hnew
    · rcases ih hold with hholds | hsignalled
      · cases e with
        | signal v =>
          by_cases hv : w = v
          · exact .inr (.inr (by simp [hv]))
          · exact .inl ((List.mem_erase_of_ne hv).2 hholds)
        | waitCallback v ok =>
          cases ok with
          | true => exact .inl (List.mem_append_left _ hholds)
          | false => exact .inl hholds
        | wait v => exact .inl hholds
        | flush f => exact .inl hholds
        | destroy => exact .inl hholds
        | flushCallback f ok => exact .inl hholds
      · exact .inr (.inl hsignalled)
    · cases e with
      | waitCallback v ok =>
        cases ok with
        | true => exact .inl (List.mem_append_right _ (by simpa [Event.granted] using hnew))
        | false => simp [Event.granted] at hnew
      | signal v => simp [Event.granted] at hnew
      | wait v => simp [Event.granted] at hnew
      | flush f => simp [Event.granted] at hnew
      | destroy => simp [Event.granted] at hnew
      | flushCallback f ok => simp [Event.granted] at hnew

/-! ## The place of the flush -/

/-- An event that is not about a flush. -/
def Event.Quiet (e : Event) : Prop := e.flushed = none ∧ e.flushAnswered = none

/-- The flushes are numbered, and one that waits was not called. -/
structure FlushCore (s : Semaphore) : Prop where
  nodup : (flushAnswers s.trace ++ s.flushCb.toList).Nodup
  issued : ∀ f ∈ flushAnswers s.trace ++ s.flushCb.toList, f ∈ flushes s.trace
  next : ∀ f ∈ flushes s.trace, f < s.next

/-- What a step does to the place of the flush. -/
inductive FlushMove (s s' : Semaphore) : Prop
  /-- Nothing. -/
  | quiet (events : List Event) (hquiet : ∀ e ∈ events, e.Quiet) (htrace : s'.trace = s.trace ++ events)
      (hflush : s'.flushCb = s.flushCb) (hnext : s.next ≤ s'.next)
  /-- A new flush is called at once. -/
  | atOnce (ok : Bool) (htrace : s'.trace = s.trace ++ [.flush s.next] ++ [.flushCallback s.next ok])
      (hflush : s'.flushCb = s.flushCb) (hnext : s'.next = s.next + 1)
  /-- A new flush takes the place. -/
  | waits (htrace : s'.trace = s.trace ++ [.flush s.next]) (hflush : s'.flushCb = some s.next)
      (hnext : s'.next = s.next + 1)
  /-- The flush that waits is called. -/
  | called (f : ℕ) (ok : Bool) (event : List Event) (hquiet : ∀ e ∈ event, e.Quiet)
      (htrace : s'.trace = s.trace ++ event ++ [.flushCallback f ok]) (hwaits : s.flushCb = some f)
      (hflush : s'.flushCb = none) (hnext : s.next ≤ s'.next)

lemma flushes_quiet {events : List Event} (h : ∀ e ∈ events, e.Quiet) : flushes events = [] :=
  List.filterMap_eq_nil_iff.2 fun e he => (h e he).1

lemma flushAnswers_quiet {events : List Event} (h : ∀ e ∈ events, e.Quiet) : flushAnswers events = [] :=
  List.filterMap_eq_nil_iff.2 fun e he => (h e he).2

/-- **Every move keeps the numbers of the flushes.** -/
lemma FlushCore.move {s s' : Semaphore} (h : FlushCore s) (hmove : FlushMove s s') : FlushCore s' := by
  obtain ⟨hnodup, hissued, hnext⟩ := h
  have hnew : s.next ∉ flushAnswers s.trace ++ s.flushCb.toList := fun hmem =>
    absurd (hnext _ (hissued _ hmem)) (Nat.lt_irrefl _)
  have hlater (hflushes : flushes s'.trace = flushes s.trace ++ [s.next]) (hnext' : s'.next = s.next + 1) :
      ∀ f ∈ flushes s'.trace, f < s'.next := by
    intro f hf
    rw [hflushes, List.mem_append, List.mem_singleton] at hf
    rw [hnext']
    rcases hf with hold | rfl
    · exact Nat.lt_succ_of_lt (hnext f hold)
    · exact Nat.lt_succ_self _
  cases hmove with
  | quiet events hquiet htrace hflush hle =>
    have hflushes : flushes s'.trace = flushes s.trace := by
      rw [htrace, flushes_append, flushes_quiet hquiet, List.append_nil]
    have hanswers : flushAnswers s'.trace = flushAnswers s.trace := by
      rw [htrace, flushAnswers_append, flushAnswers_quiet hquiet, List.append_nil]
    refine ⟨?_, ?_, fun f hf => ?_⟩
    · rwa [hanswers, hflush]
    · rwa [hanswers, hflush, hflushes]
    · rw [hflushes] at hf
      exact Nat.lt_of_lt_of_le (hnext f hf) hle
  | atOnce ok htrace hflush hnext' =>
    have hflushes : flushes s'.trace = flushes s.trace ++ [s.next] := by
      rw [htrace, flushes_append, flushes_append]
      exact List.append_nil _
    have hanswers : flushAnswers s'.trace = flushAnswers s.trace ++ [s.next] := by
      rw [htrace, flushAnswers_append, flushAnswers_append]
      exact congrArg (· ++ [s.next]) (List.append_nil _)
    have hperm : (flushAnswers s'.trace ++ s'.flushCb.toList).Perm
        (s.next :: (flushAnswers s.trace ++ s.flushCb.toList)) := by
      rw [hanswers, hflush, List.append_assoc]
      exact List.perm_middle
    refine ⟨hperm.nodup_iff.2 (List.nodup_cons.2 ⟨hnew, hnodup⟩), fun f hf => ?_, hlater hflushes hnext'⟩
    · rw [hperm.mem_iff, List.mem_cons] at hf
      rw [hflushes, List.mem_append, List.mem_singleton]
      exact hf.symm.imp_left (hissued f)
  | waits htrace hflush hnext' =>
    have hflushes : flushes s'.trace = flushes s.trace ++ [s.next] := by
      rw [htrace, flushes_append]
      rfl
    have hanswers : flushAnswers s'.trace = flushAnswers s.trace := by
      rw [htrace, flushAnswers_append]
      exact List.append_nil _
    have hbefore : s.next ∉ flushAnswers s.trace := fun hmem => hnew (List.mem_append_left _ hmem)
    rw [List.nodup_append] at hnodup
    refine ⟨?_, fun f hf => ?_, hlater hflushes hnext'⟩
    · rw [hanswers, hflush, Option.toList_some]
      exact (List.perm_append_singleton _ _).nodup_iff.2 (List.nodup_cons.2 ⟨hbefore, hnodup.1⟩)
    · rw [hanswers, hflush, Option.toList_some, List.mem_append, List.mem_singleton] at hf
      rw [hflushes, List.mem_append, List.mem_singleton]
      exact hf.imp_left fun hold => hissued f (List.mem_append_left _ hold)
  | called f ok event hquiet htrace hwaits hflush hle =>
    have hflushes : flushes s'.trace = flushes s.trace := by
      rw [htrace, flushes_append, flushes_append, flushes_quiet hquiet, List.append_nil]
      exact List.append_nil _
    have hanswers : flushAnswers s'.trace ++ s'.flushCb.toList = flushAnswers s.trace ++ s.flushCb.toList := by
      rw [htrace, hflush, hwaits, flushAnswers_append, flushAnswers_append, flushAnswers_quiet hquiet,
        List.append_nil]
      exact List.append_nil _
    refine ⟨hanswers ▸ hnodup, ?_, fun g hg => ?_⟩
    · rw [hanswers, hflushes]
      exact hissued
    · rw [hflushes] at hg
      exact Nat.lt_of_lt_of_le (hnext g hg) hle

/-! ### What a move does to the claim -/

variable {limit : ℕ} {s s' : Semaphore}

lemma flushesAnswered_iff_parts (hinv : Inv limit s) (hcore : FlushCore s) :
    FlushesAnswered s ↔
      (∀ f ∈ flushes s.trace, f ∈ flushAnswers s.trace ∨ s.flushCb = some f) ∧ Always FlushCallOk s.trace := by
  have hnodup := (List.nodup_append.1 hcore.nodup).1
  refine ⟨fun h => ⟨h.kept, h.calls⟩, fun h => ⟨hnodup, h.1, fun hstack hne => ?_, h.2⟩⟩
  have hlive : s.destroyed = false := by
    by_contra hdestroyed
    have hmem := hinv.frames.left (by simpa using hdestroyed) (.inr hne)
    rw [hstack] at hmem
    exact absurd hmem List.not_mem_nil
  have hactive := hinv.flush hlive hne
  rw [hinv.core.active hlive] at hactive
  exact fun hnil => hactive (by rw [hnil]; rfl)

lemma flushCallOk_quiet {before : List Event} {e : Event} (h : e.Quiet) : FlushCallOk before e := by
  cases e with
  | flushCallback f ok => cases h.2
  | wait w => trivial
  | flush f => trivial
  | signal w => trivial
  | destroy => trivial
  | waitCallback w ok => trivial

lemma always_quiet {trace events : List Event} (h : ∀ e ∈ events, e.Quiet) :
    Always FlushCallOk (trace ++ events) ↔ Always FlushCallOk trace := by
  induction events using List.reverseRecOn with
  | nil => rw [List.append_nil]
  | append_singleton events e ih =>
    have hlast := h e (by simp)
    rw [← List.append_assoc, always_concat, ih fun e' he' => h e' (List.mem_append_left _ he')]
    exact and_iff_left (flushCallOk_quiet hlast)

/-- **A step that is not about a flush** leaves the flushes answered. -/
lemma FlushesAnswered.quiet (h : FlushesAnswered s) (hinv : Inv limit s') (hcore : FlushCore s')
    {events : List Event} (hquiet : ∀ e ∈ events, e.Quiet) (htrace : s'.trace = s.trace ++ events)
    (hflush : s'.flushCb = s.flushCb) : FlushesAnswered s' := by
  rw [flushesAnswered_iff_parts hinv hcore, htrace, always_quiet hquiet, flushes_append, flushAnswers_append,
    flushes_quiet hquiet, flushAnswers_quiet hquiet, List.append_nil, List.append_nil, hflush]
  exact ⟨h.kept, h.calls⟩

/-- **A flush that is called at once** is called at the right moment or not. -/
lemma FlushesAnswered.atOnce_iff (h : FlushesAnswered s) (hinv : Inv limit s') (hcore : FlushCore s') {ok : Bool}
    (htrace : s'.trace = s.trace ++ [.flush s.next] ++ [.flushCallback s.next ok])
    (hflush : s'.flushCb = s.flushCb) :
    FlushesAnswered s' ↔ FlushCallOk (s.trace ++ [.flush s.next]) (.flushCallback s.next ok) := by
  have hkept : ∀ f ∈ flushes s'.trace, f ∈ flushAnswers s'.trace ∨ s'.flushCb = some f := by
    intro f hf
    rw [htrace, flushes_append, flushes_append, List.append_assoc, List.mem_append] at hf
    rw [htrace, flushAnswers_append, flushAnswers_append, hflush]
    rcases hf with hold | hnew
    · exact (h.kept f hold).imp_left fun hmem => by simp [hmem]
    · exact .inl (List.mem_append_right _ hnew)
  have hbefore : Always FlushCallOk (s.trace ++ [.flush s.next]) := always_concat.2 ⟨h.calls, trivial⟩
  rw [flushesAnswered_iff_parts hinv hcore, and_iff_right hkept, htrace, always_concat]
  exact and_iff_right hbefore

/-- **A flush that takes the place** must find it empty. -/
lemma FlushesAnswered.waits_iff (h : FlushesAnswered s) (hs : FlushCore s) (hinv : Inv limit s')
    (hcore : FlushCore s') (htrace : s'.trace = s.trace ++ [.flush s.next])
    (hflush : s'.flushCb = some s.next) : FlushesAnswered s' ↔ s.flushCb = none := by
  have hcalls : Always FlushCallOk s'.trace := by
    rw [htrace]
    exact always_concat.2 ⟨h.calls, trivial⟩
  have hanswers : flushAnswers s'.trace = flushAnswers s.trace := by
    rw [htrace, flushAnswers_append]
    exact List.append_nil _
  rw [flushesAnswered_iff_parts hinv hcore, and_iff_left hcalls, hanswers, hflush, htrace, flushes_append]
  constructor
  · intro hkept
    cases hg : s.flushCb with
    | none => rfl
    | some g =>
      -- the flush that waited is lost
      have hnodup := hs.nodup
      have hissued := hs.issued g (by simp [hg])
      have hlt := hs.next g hissued
      rw [hg, List.nodup_append] at hnodup
      rcases hkept g (List.mem_append_left _ hissued) with hmem | hplace
      · exact absurd rfl (hnodup.2.2 g hmem g (by simp))
      · rw [Option.some.inj hplace] at hlt
        exact absurd hlt (Nat.lt_irrefl _)
  · intro hnone f hf
    rcases List.mem_append.1 hf with hold | hnew
    · refine (h.kept f hold).imp_right fun hplace => ?_
      rw [hnone] at hplace
      cases hplace
    · exact .inr (congrArg some (List.mem_singleton.1 hnew).symm)

/-- **The flush that waits** is called at the right moment or not. -/
lemma FlushesAnswered.called_iff (h : FlushesAnswered s) (hinv : Inv limit s') (hcore : FlushCore s') {f : ℕ}
    {ok : Bool} {events : List Event} (hquiet : ∀ e ∈ events, e.Quiet)
    (htrace : s'.trace = s.trace ++ events ++ [.flushCallback f ok]) (hwaits : s.flushCb = some f) :
    FlushesAnswered s' ↔ FlushCallOk (s.trace ++ events) (.flushCallback f ok) := by
  have hkept : ∀ g ∈ flushes s'.trace, g ∈ flushAnswers s'.trace ∨ s'.flushCb = some g := by
    intro g hg
    have hissued : flushes s'.trace = flushes s.trace := by
      rw [htrace, flushes_append, flushes_append, flushes_quiet hquiet, List.append_nil]
      exact List.append_nil _
    rw [hissued] at hg
    rw [htrace, flushAnswers_append, flushAnswers_append]
    rcases h.kept g hg with hold | hplace
    · exact .inl (by simp [hold])
    · rw [hwaits] at hplace
      exact .inl (List.mem_append_right _ (List.mem_singleton.2 (Option.some.inj hplace).symm))
  have hbefore : Always FlushCallOk (s.trace ++ events) := (always_quiet hquiet).2 h.calls
  rw [flushesAnswered_iff_parts hinv hcore, and_iff_right hkept, htrace, always_concat]
  exact and_iff_right hbefore

/-! ### The steps -/

lemma grants_of_answers (h : Core limit s) (hlive : s.destroyed = false) {w : ℕ} (hw : w ∈ answers s.trace) :
    w ∈ grants s.trace := by
  obtain ⟨e, he, hanswered⟩ := List.mem_filterMap.1 hw
  refine List.mem_filterMap.2 ⟨e, he, ?_⟩
  cases e with
  | waitCallback v ok =>
    cases ok with
    | true => exact hanswered
    | false =>
      rw [h.rejected v he] at hlive
      cases hlive
  | wait v => cases hanswered
  | flush f => cases hanswered
  | signal v => cases hanswered
  | destroy => cases hanswered
  | flushCallback f ok => cases hanswered

lemma grants_of_waits (h : Core limit s) (hlive : s.destroyed = false) (hempty : s.waiting = []) {w : ℕ}
    (hw : w ∈ waits s.trace) : w ∈ grants s.trace := by
  have hmem := h.perm.mem_iff.2 hw
  rw [hempty, List.append_nil] at hmem
  exact grants_of_answers h hlive hmem

/-- A step, and what it does to the claim. -/
structure FlushStep (limit : ℕ) (s : Semaphore) (i : SemaphoreInput) : Prop where
  move : FlushMove s (semaphoreStep limit s i)
  iff : FlushCore s → FlushesAnswered s → (FlushesAnswered (semaphoreStep limit s i) ↔ FlushSafe s i)

lemma flushStep_of_quiet (h : Inv limit s) {i : SemaphoreInput} (events : List Event)
    (hquiet : ∀ e ∈ events, e.Quiet) (htrace : (semaphoreStep limit s i).trace = s.trace ++ events)
    (hflush : (semaphoreStep limit s i).flushCb = s.flushCb) (hnext : s.next ≤ (semaphoreStep limit s i).next)
    (hsafe : FlushSafe s i) : FlushStep limit s i := by
  have hmove : FlushMove s (semaphoreStep limit s i) := .quiet events hquiet htrace hflush hnext
  exact ⟨hmove, fun hcore hanswered =>
    iff_of_true (hanswered.quiet (inv_step h i) (hcore.move hmove) hquiet htrace hflush) hsafe⟩

/-- **A step that ends in the loop of `signal`.** -/
lemma flushStep_of_signalLoop (h : Inv limit s) {i : SemaphoreInput} (b : Semaphore) {events : List Event}
    (hquiet : ∀ e ∈ events, e.Quiet) (htrace : b.trace = s.trace ++ events) (hflush : b.flushCb = s.flushCb)
    (hnext : b.next = s.next) (hdestroyed : b.destroyed = s.destroyed) (hzero : s.destroyed = true → b.active = 0)
    (hstep : semaphoreStep limit s i = b.signalLoop limit) (hlive : s.destroyed = false → FlushSafe s i)
    (hnone : s.flushCb = none → FlushSafe s i)
    (hfire : ∀ f, s.flushCb = some f → b.active = 0 → b.waiting = [] ∨ limit ≤ b.active ∨ b.destroyed = true →
      (FlushCallOk b.trace (.flushCallback f true) ↔ FlushSafe s i)) : FlushStep limit s i := by
  rcases signalLoop_cases limit b with
    ⟨w, rest, hw, hroom, hlive', heq⟩ | ⟨hstop, ⟨f, hf, hactive, heq⟩ | ⟨hquiet', heq⟩⟩
  · refine flushStep_of_quiet h (events ++ [.waitCallback w true]) ?_ ?_ ?_ ?_ (hlive (hdestroyed ▸ hlive'))
    · intro e he
      rcases List.mem_append.1 he with hold | hlast
      · exact hquiet e hold
      · rw [List.mem_singleton.1 hlast]
        exact ⟨rfl, rfl⟩
    · rw [hstep, heq, ← List.append_assoc, ← htrace]
      rfl
    · rw [hstep, heq]
      exact hflush
    · rw [hstep, heq]
      exact Nat.le_of_eq hnext.symm
  · have hwaits : s.flushCb = some f := hflush ▸ hf
    have htrace' : (semaphoreStep limit s i).trace = s.trace ++ events ++ [.flushCallback f true] := by
      rw [hstep, heq, ← htrace]
      rfl
    have hmove : FlushMove s (semaphoreStep limit s i) :=
      .called f true events hquiet htrace' hwaits (by rw [hstep, heq]; rfl)
        (by rw [hstep, heq]; exact Nat.le_of_eq hnext.symm)
    refine ⟨hmove, fun hcore hanswered => ?_⟩
    rw [hanswered.called_iff (inv_step h i) (hcore.move hmove) hquiet htrace' hwaits, ← htrace]
    exact hfire f hwaits hactive hstop
  · refine flushStep_of_quiet h events hquiet (by rw [hstep, heq, htrace]) (by rw [hstep, heq, hflush])
      (by rw [hstep, heq]; exact Nat.le_of_eq hnext.symm) ?_
    cases hd : s.destroyed with
    | false => exact hlive hd
    | true => exact hnone (hflush ▸ hquiet'.resolve_right (not_not_intro (hzero hd)))

/-- **A step that ends in the loop of `destroy`.** -/
lemma flushStep_of_destroyLoop (h : Inv limit s) {i : SemaphoreInput} (b : Semaphore) {events : List Event}
    (hquiet : ∀ e ∈ events, e.Quiet) (htrace : b.trace = s.trace ++ events) (hflush : b.flushCb = s.flushCb)
    (hnext : b.next = s.next) (hdestroy : .destroy ∈ b.trace)
    (hstep : semaphoreStep limit s i = b.destroyLoop) (hsafe : FlushSafe s i) : FlushStep limit s i := by
  rcases destroyLoop_cases b with ⟨w, rest, hw, heq⟩ | ⟨hempty, ⟨f, hf, heq⟩ | ⟨hnone, heq⟩⟩
  · refine flushStep_of_quiet h (events ++ [.waitCallback w false]) ?_ ?_ ?_ ?_ hsafe
    · intro e he
      rcases List.mem_append.1 he with hold | hlast
      · exact hquiet e hold
      · rw [List.mem_singleton.1 hlast]
        exact ⟨rfl, rfl⟩
    · rw [hstep, heq, ← List.append_assoc, ← htrace]
      rfl
    · rw [hstep, heq]
      exact hflush
    · rw [hstep, heq]
      exact Nat.le_of_eq hnext.symm
  · have hwaits : s.flushCb = some f := hflush ▸ hf
    have htrace' : (semaphoreStep limit s i).trace = s.trace ++ events ++ [.flushCallback f false] := by
      rw [hstep, heq, ← htrace]
      rfl
    have hmove : FlushMove s (semaphoreStep limit s i) :=
      .called f false events hquiet htrace' hwaits (by rw [hstep, heq]; rfl)
        (by rw [hstep, heq]; exact Nat.le_of_eq hnext.symm)
    refine ⟨hmove, fun hcore hanswered => ?_⟩
    rw [hanswered.called_iff (inv_step h i) (hcore.move hmove) hquiet htrace' hwaits, ← htrace]
    exact iff_of_true hdestroy hsafe
  · exact flushStep_of_quiet h events hquiet (by rw [hstep, heq, htrace]) (by rw [hstep, heq, hflush])
      (by rw [hstep, heq]; exact Nat.le_of_eq hnext.symm) hsafe

/-- **A wait** is not about a flush. -/
lemma flushStep_wait (h : Inv limit s) : FlushStep limit s .wait := by
  have hwait : (Event.wait s.next).Quiet := ⟨rfl, rfl⟩
  have hcallback (ok : Bool) : (Event.waitCallback s.next ok).Quiet := ⟨rfl, rfl⟩
  have htrace : (s.wait limit).trace = s.trace ++ [.wait s.next] ∨
      ∃ ok, (s.wait limit).trace = s.trace ++ [.wait s.next, .waitCallback s.next ok] := by
    rw [Semaphore.wait]
    dsimp only
    split
    · exact .inr ⟨false, List.append_assoc ..⟩
    · split
      · exact .inr ⟨true, List.append_assoc ..⟩
      · exact .inl rfl
  have hplace : (s.wait limit).flushCb = s.flushCb ∧ (s.wait limit).next = s.next + 1 := by
    rw [Semaphore.wait]
    dsimp only
    split
    · exact ⟨rfl, rfl⟩
    · split
      · exact ⟨rfl, rfl⟩
      · exact ⟨rfl, rfl⟩
  have hnext : s.next ≤ (s.wait limit).next := by
    rw [hplace.2]
    exact Nat.le_succ _
  rcases htrace with hqueued | ⟨ok, hcalled⟩
  · exact flushStep_of_quiet h _ (by simpa using hwait) hqueued hplace.1 hnext trivial
  · exact flushStep_of_quiet h _ (by simpa using ⟨hwait, hcallback ok⟩) hcalled hplace.1 hnext trivial

/-- **A holder signals**: the flush that waits is called at the right moment, unless the semaphore is destroyed. -/
lemma flushStep_signal (h : Inv limit s) (w : ℕ) : FlushStep limit s (.signal w) := by
  by_cases hw : w ∈ holders s.trace
  · let b : Semaphore := { s.note (.signal w) with active := s.active - 1 }
    have hstep : semaphoreStep limit s (.signal w) = b.signalLoop limit := if_pos hw
    have hquiet : ∀ e ∈ [Event.signal w], e.Quiet := by
      intro e he
      rw [List.mem_singleton.1 he]
      exact ⟨rfl, rfl⟩
    refine flushStep_of_signalLoop h b hquiet rfl rfl rfl rfl ?_ hstep ?_ ?_ ?_
    · intro hdestroyed
      show s.active - 1 = 0
      rw [h.core.zero hdestroyed]
    · intro hlive _ hdestroyed
      rw [hlive] at hdestroyed
      cases hdestroyed
    · intro hnone _ _ f hf
      rw [hnone] at hf
      cases hf
    · intro f hf hactive hstop
      show (holders (s.trace ++ [.signal w]) = [] ∧ ∀ v ∈ waits (s.trace ++ [.signal w]), v < f →
        v ∈ grants (s.trace ++ [.signal w]) ∧ .signal v ∈ s.trace ++ [.signal w]) ↔ _
      -- what was granted has signalled when no grant is outstanding
      have hsignalled : holders (s.trace ++ [.signal w]) = [] → ∀ v ∈ grants s.trace,
          .signal v ∈ s.trace ++ [.signal w] := by
        intro hnil v hv
        have hv' : v ∈ grants (s.trace ++ [.signal w]) := by simpa [Event.granted] using hv
        have hmem := holds_or_signalled hv'
        rw [hnil] at hmem
        exact hmem.resolve_left List.not_mem_nil
      have hwaits : waits (s.trace ++ [.signal w]) = waits s.trace := by simp [Event.issued]
      have hgrants : grants (s.trace ++ [.signal w]) = grants s.trace := by simp [Event.granted]
      have hholders : holders (s.trace ++ [.signal w]) = (holders s.trace).erase w := holders_concat _ _
      rw [hwaits, hgrants]
      cases hd : s.destroyed with
      | true =>
        rw [hholders] at hsignalled ⊢
        constructor
        · rintro ⟨hnil, hall⟩ _ _ g hg
          obtain rfl := Option.some.inj (hf.symm.trans hg)
          exact ⟨hnil, fun v hv hlt => (hall v hv hlt).1⟩
        · intro hsafe
          obtain ⟨hnil, hall⟩ := hsafe hw hd f hf
          exact ⟨hnil, fun v hv hlt => ⟨hall v hv hlt, hsignalled hnil v (hall v hv hlt)⟩⟩
      | false =>
        have hcount := h.core.active hd
        have hpos := List.length_pos_of_mem hw
        have hatMost := h.core.atMost
        have hnil : (holders s.trace).erase w = [] := by
          rw [← List.length_eq_zero_iff, List.length_erase_of_mem hw, ← hcount]
          exact hactive
        have hempty : s.waiting = [] := by
          rcases hstop with hempty | hle | hdestroyed
          · exact hempty
          · have hle' : limit ≤ s.active - 1 := hle
            have hactive' : s.active - 1 = 0 := hactive
            omega
          · rw [show s.destroyed = true from hdestroyed] at hd
            cases hd
        refine iff_of_true ⟨hholders.trans hnil, fun v hv _ => ?_⟩ fun _ hdestroyed => ?_
        · have hgranted := grants_of_waits h.core hd hempty hv
          exact ⟨hgranted, hsignalled (hholders.trans hnil) v hgranted⟩
        · rw [hd] at hdestroyed
          cases hdestroyed
  · have hstep : semaphoreStep limit s (.signal w) = s := if_neg hw
    exact flushStep_of_quiet h [] (fun e he => absurd he List.not_mem_nil) (by rw [hstep, List.append_nil])
      (by rw [hstep]) (Nat.le_of_eq (by rw [hstep])) fun hmem => absurd hmem hw

lemma flushCallOk_atOnce_iff (h : Core limit s) (hlive : s.destroyed = false) (hactive : s.active = 0) :
    FlushCallOk (s.trace ++ [.flush s.next]) (.flushCallback s.next true) ↔ s.waiting = [] := by
  have hnil : holders (s.trace ++ [.flush s.next]) = [] := by
    have hlength := h.active hlive
    rw [hactive] at hlength
    exact (holders_concat _ _).trans (List.length_eq_zero_iff.1 hlength.symm)
  have hwaits : waits (s.trace ++ [.flush s.next]) = waits s.trace := by simp [Event.issued]
  have hgrants : grants (s.trace ++ [.flush s.next]) = grants s.trace := by simp [Event.granted]
  show (holders (s.trace ++ [.flush s.next]) = [] ∧ ∀ w ∈ waits (s.trace ++ [.flush s.next]), w < s.next →
    w ∈ grants (s.trace ++ [.flush s.next]) ∧ .signal w ∈ s.trace ++ [.flush s.next]) ↔ _
  rw [and_iff_right hnil, hwaits, hgrants]
  constructor
  · intro hall
    by_contra hne
    obtain ⟨w, hw⟩ := List.exists_mem_of_ne_nil _ hne
    have hissued : w ∈ waits s.trace := h.perm.mem_iff.1 (List.mem_append_right _ hw)
    have hgranted := (hall w hissued (h.next w hissued)).1
    exact absurd ((List.pairwise_append.1 h.fifo).2.2 w hgranted w hw) (Nat.lt_irrefl w)
  · intro hempty v hv _
    have hgranted := grants_of_waits h hlive hempty hv
    have hmem := holds_or_signalled (hgrants ▸ hgranted)
    rw [hnil] at hmem
    exact ⟨hgranted, hmem.resolve_left List.not_mem_nil⟩

/-- **A new flush** finds its place empty, or takes it from another one. -/
lemma flushStep_flush (h : Inv limit s) : FlushStep limit s .flush := by
  cases hd : s.destroyed with
  | true =>
    have hstep : semaphoreStep limit s .flush = { s.note (.flush s.next) with next := s.next + 1 }.invoke
        (.flushCallback s.next false) .done := if_pos hd
    have hmove : FlushMove s (semaphoreStep limit s .flush) :=
      .atOnce false (by rw [hstep]; rfl) (by rw [hstep]; rfl) (by rw [hstep]; rfl)
    refine ⟨hmove, fun hcore hanswered => ?_⟩
    rw [hanswered.atOnce_iff (inv_step h _) (hcore.move hmove) (by rw [hstep]; rfl) (by rw [hstep]; rfl)]
    refine iff_of_true (List.mem_append_left _ (h.core.destroyed.1 hd)) fun hlive => ?_
    rw [hd] at hlive
    cases hlive
  | false =>
    have hsafe : FlushSafe s .flush ↔ s.flushCb = none ∧ (s.active = 0 → s.waiting = []) := forall_prop_of_true hd
    have hnot : ¬ s.destroyed = true := by rw [hd]; decide
    by_cases hactive : s.active = 0
    · have hstep : semaphoreStep limit s .flush = { s.note (.flush s.next) with next := s.next + 1 }.invoke
          (.flushCallback s.next true) .done := (if_neg hnot).trans (if_pos hactive)
      have hmove : FlushMove s (semaphoreStep limit s .flush) :=
        .atOnce true (by rw [hstep]; rfl) (by rw [hstep]; rfl) (by rw [hstep]; rfl)
      have hnone : s.flushCb = none := by
        by_contra hne
        exact h.flush hd hne hactive
      refine ⟨hmove, fun hcore hanswered => ?_⟩
      rw [hanswered.atOnce_iff (inv_step h _) (hcore.move hmove) (by rw [hstep]; rfl) (by rw [hstep]; rfl),
        flushCallOk_atOnce_iff h.core hd hactive, hsafe, and_iff_right hnone, forall_prop_of_true hactive]
    · have hstep : semaphoreStep limit s .flush =
          { s.note (.flush s.next) with next := s.next + 1, flushCb := some s.next } :=
        (if_neg hnot).trans (if_neg hactive)
      have hmove : FlushMove s (semaphoreStep limit s .flush) :=
        .waits (by rw [hstep]; rfl) (by rw [hstep]) (by rw [hstep])
      refine ⟨hmove, fun hcore hanswered => ?_⟩
      rw [hanswered.waits_iff hcore (inv_step h _) (hcore.move hmove) (by rw [hstep]; rfl) (by rw [hstep]), hsafe]
      exact (and_iff_left fun hzero => absurd hzero hactive).symm

/-- **A callback returns**: the loop that goes on calls no flush with `true`. -/
lemma flushStep_ret (h : Inv limit s) : FlushStep limit s .ret := by
  have hnothing : ∀ e ∈ ([] : List Event), e.Quiet := fun e he => absurd he List.not_mem_nil
  cases hstack : s.stack with
  | nil =>
    have hstep : semaphoreStep limit s .ret = s := by simp [semaphoreStep, Semaphore.ret, hstack]
    exact flushStep_of_quiet h [] hnothing (by rw [hstep, List.append_nil]) (by rw [hstep])
        (Nat.le_of_eq (by rw [hstep])) trivial
  | cons frame rest =>
    cases frame with
    | done =>
      have hstep : semaphoreStep limit s .ret = { s with stack := rest } := by
        simp [semaphoreStep, Semaphore.ret, hstack]
      exact flushStep_of_quiet h [] hnothing (by rw [hstep, List.append_nil]) (by rw [hstep])
        (Nat.le_of_eq (by rw [hstep])) trivial
    | signal =>
      let b : Semaphore := { s with stack := rest }
      have hstep : semaphoreStep limit s .ret = b.signalLoop limit := by
        simp [b, semaphoreStep, Semaphore.ret, hstack]
      refine flushStep_of_signalLoop h b hnothing (List.append_nil _).symm rfl rfl rfl h.core.zero hstep
        (fun _ => trivial) (fun _ => trivial) fun f hf hactive _ => ?_
      have hne : s.flushCb ≠ none := by
        rw [hf]
        exact Option.some_ne_none f
      cases hd : s.destroyed with
      | false => exact absurd hactive (h.flush hd hne)
      | true =>
        -- a loop of `signal` does not run on top of the one of `destroy`
        have hmem := h.frames.left hd (.inr hne)
        have horder := h.frames.order
        rw [hstack] at hmem horder
        rcases List.mem_cons.1 hmem with hhead | htail
        · cases hhead
        · exact absurd rfl ((List.pairwise_cons.1 horder).1 _ htail rfl)
    | destroy =>
      let b : Semaphore := { s with stack := rest }
      have hstep : semaphoreStep limit s .ret = b.destroyLoop := by
        simp [b, semaphoreStep, Semaphore.ret, hstack]
      have hdestroyed := h.frames.destroyed (by rw [hstack]; exact List.mem_cons_self)
      exact flushStep_of_destroyLoop h b hnothing (List.append_nil _).symm rfl rfl (h.core.destroyed.1 hdestroyed)
        hstep trivial

/-- **Every step**, and what it does to the claim. -/
lemma flushStep (h : Inv limit s) (i : SemaphoreInput) : FlushStep limit s i := by
  cases i with
  | wait => exact flushStep_wait h
  | signal w => exact flushStep_signal h w
  | flush => exact flushStep_flush h
  | destroy =>
    have hquiet : ∀ e ∈ [Event.destroy], e.Quiet := by
      intro e he
      rw [List.mem_singleton.1 he]
      exact ⟨rfl, rfl⟩
    have hmem : Event.destroy ∈ s.trace ++ [.destroy] := List.mem_append_right _ List.mem_cons_self
    exact flushStep_of_destroyLoop h { s.note .destroy with destroyed := true, active := 0 } hquiet rfl rfl rfl hmem
      rfl trivial
  | ret => exact flushStep_ret h

/-- **Which runs answer every flush**: those without a flush that overlaps with another one, and without an early
signal while the semaphore is destroyed. -/
theorem flushesAnswered_iff (limit : ℕ) (inputs : List SemaphoreInput) :
    EveryState (semaphoreStep limit) FlushesAnswered {} inputs ↔
      EveryStep (semaphoreStep limit) FlushSafe {} inputs := by
  have hcore : FlushCore {} := ⟨List.Pairwise.nil, fun f hf => absurd hf List.not_mem_nil,
    fun f hf => absurd hf List.not_mem_nil⟩
  have hanswered : FlushesAnswered {} :=
    ⟨List.Pairwise.nil, fun f hf => absurd hf List.not_mem_nil, fun _ hne => absurd rfl hne, always_nil FlushCallOk⟩
  refine everyState_iff_everyStep (I := fun s => Inv limit s ∧ FlushCore s) (fun s i h => ?_) (fun s i h => ?_)
    ⟨inv_init limit, hcore⟩ hanswered
  · exact ⟨inv_step h.1 i, h.2.move (flushStep h.1 i).move⟩
  · exact (flushStep h.1 i).iff h.2

/-- **Two flushes that overlap**: the first one is never called. -/
theorem not_flushesAnswered_twoFlushes :
    ¬ FlushesAnswered (run (semaphoreStep 1) {} [.wait, .ret, .flush, .flush, .signal 0, .ret]) := by
  intro h
  have hkept := h.kept 1 (by decide)
  revert hkept
  decide

end HyperDHT.Async
