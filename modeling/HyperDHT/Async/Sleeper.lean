import HyperDHT.Lib.Runs
import HyperDHT.Lib.Trace

/-!
# The sleeper

`async_utils::Sleeper` is one timer and one place for the callback of the pause that is active. A new pause first calls
the callback of the active one; what that callback does to the sleeper meanwhile is undone when the new pause takes
the place.

## Main definitions

* `Async.Sleeper`, `Async.sleeperStep` — the sleeper as a machine over the calls of its users, the expiry of its timer
  and the returns of its callbacks.
* `Async.NoneLost` — every pause is called once, unless it was cancelled.
* `Async.SleeperSafe` — the condition on the steps.

## Main results

* `Async.noneLost_iff` — no pause is lost in any state of exactly the runs whose steps meet the condition.
* `Async.not_noneLost_nestedPause` — a callback that pauses again while it is replaced.

## Design

Pauses are numbered in the order in which they are issued. The loop of the timer does not run within a callback, so the
timer expires only when no call is in progress. `stack` holds the functions that wait for a callback to return, the
innermost first. A destroyed sleeper is not called any more, but a `pause` that was in progress goes on when the callback
returns, here as if the memory were still there. An empty callback does nothing, as if it returned at once.
-/

set_option autoImplicit false

namespace HyperDHT.Async

open Runs Trace

/-! ## The trace -/

/-- The calls of the sleeper, the expiry of its timer and the calls of the callbacks, with the number of the pause. -/
inductive SleeperEvent where
  | pause (p : ℕ)
  | resume
  | cancel
  | destroy
  | expire
  | callback (p : ℕ)
  deriving DecidableEq

namespace SleeperEvent

/-- A pause is open until it is called or cancelled. -/
def opens (unresolved : List ℕ) : SleeperEvent → List ℕ
  | .pause p => unresolved ++ [p]
  | .callback p => unresolved.filter (· ≠ p)
  | .cancel => []
  | .destroy => []
  | _ => unresolved

/-- The pause whose callback was called. -/
def called : SleeperEvent → Option ℕ
  | .callback p => some p
  | _ => none

/-- What may call a pause: the timer, a resume, or a later pause. -/
def Calls : SleeperEvent → Prop
  | .pause _ => True
  | .resume => True
  | .expire => True
  | _ => False

end SleeperEvent

/-- The pauses that were issued, and neither called nor cancelled since. -/
def openPauses (trace : List SleeperEvent) : List ℕ := trace.foldl SleeperEvent.opens []

/-- The pauses whose callbacks were called, in this order. -/
def calls (trace : List SleeperEvent) : List ℕ := trace.filterMap SleeperEvent.called

@[simp] lemma openPauses_concat (trace : List SleeperEvent) (e : SleeperEvent) :
    openPauses (trace ++ [e]) = e.opens (openPauses trace) := by
  rw [openPauses, List.foldl_append]
  rfl

@[simp] lemma calls_concat (trace : List SleeperEvent) (e : SleeperEvent) :
    calls (trace ++ [e]) = calls trace ++ e.called.toList := by
  rw [calls, List.filterMap_append]
  cases h : e.called <;> simp [calls, h]

/-! ## The machine -/

/-- What continues when a callback returns. -/
inductive SleeperFrame where
  /-- The function that called it has nothing left to do. -/
  | done
  /-- A `pause` that has yet to take the place. -/
  | pause (p : ℕ)
  deriving DecidableEq

/-- The pause that has yet to take the place. -/
def SleeperFrame.installs : SleeperFrame → Option ℕ
  | .done => none
  | .pause p => some p

/-- The sleeper, the functions that wait for a callback to return, and the trace. -/
structure Sleeper where
  cb : Option ℕ := none
  timerActive : Bool := false
  /-- Whether the timer of the loop runs. -/
  timer : Bool := false
  destroyed : Bool := false
  stack : List SleeperFrame := []
  /-- The number of the next pause. -/
  next : ℕ := 0
  trace : List SleeperEvent := []
  deriving DecidableEq

namespace Sleeper

/-- The pauses that have yet to take the place. -/
def installing (s : Sleeper) : List ℕ := s.stack.filterMap SleeperFrame.installs

/-- An event is recorded. -/
def note (s : Sleeper) (e : SleeperEvent) : Sleeper := { s with trace := s.trace ++ [e] }

/-- The end of `pause`. -/
def install (s : Sleeper) (p : ℕ) : Sleeper := { s with cb := some p, timerActive := true, timer := true }

/-- What comes after a callback. -/
def goOn (s : Sleeper) : SleeperFrame → Sleeper
  | .done => s
  | .pause p => s.install p

/-- `Sleeper::trigger`, called by a function that goes on with `frame`. -/
def trigger (s : Sleeper) (frame : SleeperFrame) : Sleeper :=
  let s' := { s with timerActive := false, cb := none }
  match s.cb with
  | some p => { s'.note (.callback p) with stack := frame :: s.stack }
  | none => s'.goOn frame

/-- `Sleeper::pause`. -/
def pause (s : Sleeper) : Sleeper :=
  let p := s.next
  let s := { s.note (.pause p) with next := p + 1 }
  if s.timerActive then s.trigger (.pause p) else s.install p

/-- `Sleeper::resume`. -/
def resume (s : Sleeper) : Sleeper :=
  let s := s.note .resume
  if s.timerActive then { s with timer := false }.trigger .done else s

/-- `Sleeper::cancel`, without its event. -/
def stop (s : Sleeper) : Sleeper :=
  if s.timerActive then { s with timer := false, timerActive := false, cb := none } else s

/-- `Sleeper::cancel`. -/
def cancel (s : Sleeper) : Sleeper := (s.note .cancel).stop

/-- The destructor, which closes the timer. -/
def destroy (s : Sleeper) : Sleeper := { (s.note .destroy).stop with timer := false, destroyed := true }

/-- `Sleeper::on_timer`, if the timer runs and the loop has control. -/
def expire (s : Sleeper) : Sleeper :=
  if s.timer = true ∧ s.stack = [] then { s.note .expire with timer := false }.trigger .done else s

/-- The innermost callback returns. -/
def ret (s : Sleeper) : Sleeper :=
  match s.stack with
  | [] => s
  | frame :: rest => { s with stack := rest }.goOn frame

end Sleeper

/-- The calls of the users, the expiry of the timer, and the returns of the callbacks. -/
inductive SleeperInput where
  | pause
  | resume
  | cancel
  | destroy
  | expire
  | ret

/-- The sleeper takes a step. A destroyed one is not called. -/
def sleeperStep (s : Sleeper) : SleeperInput → Sleeper
  | .ret => s.ret
  | .pause => if s.destroyed then s else s.pause
  | .resume => if s.destroyed then s else s.resume
  | .cancel => if s.destroyed then s else s.cancel
  | .destroy => if s.destroyed then s else s.destroy
  | .expire => if s.destroyed then s else s.expire

/-! ## The claim -/

/-- A pause is called while it is open, by the timer, by a resume or by a later pause. -/
def PauseCallOk (before : List SleeperEvent) : SleeperEvent → Prop
  | .callback p => p ∈ openPauses before ∧ ∃ e ∈ before.getLast?, e.Calls
  | _ => True

/-- **No pause is lost**: none is called twice, nor after it was cancelled; those that were neither called nor cancelled
are the active one and those that have yet to take its place; and when no call is in progress, the timer runs for the
active one. -/
structure NoneLost (s : Sleeper) : Prop where
  once : (calls s.trace).Nodup
  calls : Always PauseCallOk s.trace
  kept : ∀ p, p ∈ openPauses s.trace ↔ s.cb = some p ∨ p ∈ s.installing
  armed : s.stack = [] → s.destroyed = false → s.cb ≠ none → s.timer = true

/-- When the callback of a replaced pause returns, no pause is active; and nobody cancels or destroys the sleeper while
a pause has yet to take its place. -/
def SleeperSafe (s : Sleeper) : SleeperInput → Prop
  | .ret => ∀ p rest, s.stack = .pause p :: rest → s.timerActive = false
  | .cancel => s.destroyed = false → s.installing = []
  | .destroy => s.destroyed = false → s.installing = []
  | _ => True

/-! ## What a step does -/

/-- The pauses that were called, the active one, and those that have yet to take its place. -/
def Sleeper.numbers (s : Sleeper) : List ℕ := calls s.trace ++ s.cb.toList ++ s.installing

/-- A pause has one number, and the timer runs for the active one. -/
structure SleeperInv (s : Sleeper) : Prop where
  active : s.timerActive = s.cb.isSome
  timer : s.installing = [] → s.timer = s.timerActive
  nodup : s.numbers.Nodup
  next : ∀ p ∈ s.numbers, p < s.next

/-- What a step does to the trace and to the places of the pauses, and when nothing is lost by it. -/
inductive SleeperMove (s s' : Sleeper) : Prop → Prop
  /-- Nothing. -/
  | quiet (htrace : s'.trace = s.trace) (hcb : s'.cb = s.cb) (hinstalling : s'.installing = s.installing)
      (hnext : s'.next = s.next) : SleeperMove s s' True
  /-- A resume finds no active pause. -/
  | resumed (htrace : s'.trace = s.trace ++ [.resume]) (hcb : s'.cb = s.cb)
      (hinstalling : s'.installing = s.installing) (hnext : s'.next = s.next) : SleeperMove s s' True
  /-- A new pause takes the place. -/
  | paused (htrace : s'.trace = s.trace ++ [.pause s.next]) (hnone : s.cb = none) (hcb : s'.cb = some s.next)
      (hinstalling : s'.installing = s.installing) (hnext : s'.next = s.next + 1) : SleeperMove s s' True
  /-- A new pause calls the active one. -/
  | replaced (q : ℕ) (htrace : s'.trace = s.trace ++ [.pause s.next] ++ [.callback q]) (hq : s.cb = some q)
      (hcb : s'.cb = none) (hinstalling : s'.installing = s.next :: s.installing) (hnext : s'.next = s.next + 1) :
      SleeperMove s s' True
  /-- A resume or the timer calls the active pause. -/
  | called (q : ℕ) (e : SleeperEvent) (he : e = .resume ∨ e = .expire)
      (htrace : s'.trace = s.trace ++ [e] ++ [.callback q]) (hq : s.cb = some q) (hcb : s'.cb = none)
      (hinstalling : s'.installing = s.installing) (hnext : s'.next = s.next) : SleeperMove s s' True
  /-- The active pause is cancelled. -/
  | stopped (e : SleeperEvent) (he : e = .cancel ∨ e = .destroy) (htrace : s'.trace = s.trace ++ [e])
      (hcb : s'.cb = none) (hinstalling : s'.installing = s.installing) (hnext : s'.next = s.next) :
      SleeperMove s s' (s.installing = [])
  /-- The callback of the replaced pause returns. -/
  | installed (p : ℕ) (htrace : s'.trace = s.trace) (hcb : s'.cb = some p)
      (hinstalling : s.installing = p :: s'.installing) (hnext : s'.next = s.next) : SleeperMove s s' (s.cb = none)

variable {s s' : Sleeper} {safe : Prop}

/-- **Every move keeps the numbers of the pauses apart.** -/
lemma SleeperMove.numbers (hmove : SleeperMove s s' safe) (h : SleeperInv s) :
    s'.numbers.Nodup ∧ ∀ p ∈ s'.numbers, p < s'.next := by
  have hfresh : s.next ∉ s.numbers := fun hmem => absurd (h.next _ hmem) (Nat.lt_irrefl _)
  have hnew (hnext : s'.next = s.next + 1) (hperm : s'.numbers.Perm (s.next :: s.numbers)) :
      s'.numbers.Nodup ∧ ∀ p ∈ s'.numbers, p < s'.next := by
    refine ⟨hperm.nodup_iff.2 (List.nodup_cons.2 ⟨hfresh, h.nodup⟩), fun p hp => ?_⟩
    rw [hnext]
    rcases List.mem_cons.1 (hperm.mem_iff.1 hp) with rfl | hold
    · exact Nat.lt_succ_self _
    · exact Nat.lt_succ_of_lt (h.next p hold)
  have hold (hnext : s'.next = s.next) (hsub : s'.numbers.Sublist s.numbers) :
      s'.numbers.Nodup ∧ ∀ p ∈ s'.numbers, p < s'.next := by
    rw [hnext]
    exact ⟨h.nodup.sublist hsub, fun p hp => h.next p (hsub.subset hp)⟩
  cases hmove with
  | quiet htrace hcb hinstalling hnext =>
    have heq : s'.numbers = s.numbers := by rw [Sleeper.numbers, htrace, hcb, hinstalling, Sleeper.numbers]
    exact hold hnext (heq ▸ List.Sublist.refl _)
  | resumed htrace hcb hinstalling hnext =>
    have heq : s'.numbers = s.numbers := by
      rw [Sleeper.numbers, htrace, hcb, hinstalling, calls_concat]
      simp [SleeperEvent.called, Sleeper.numbers]
    exact hold hnext (heq ▸ List.Sublist.refl _)
  | paused htrace hnone hcb hinstalling hnext =>
    refine hnew hnext ?_
    rw [Sleeper.numbers, Sleeper.numbers, htrace, hcb, hinstalling, hnone, calls_concat]
    simp [SleeperEvent.called]
  | replaced q htrace hq hcb hinstalling hnext =>
    refine hnew hnext ?_
    rw [Sleeper.numbers, Sleeper.numbers, htrace, hcb, hinstalling, hq, calls_concat, calls_concat]
    simp only [SleeperEvent.called, Option.toList_none, Option.toList_some, List.append_nil]
    exact List.perm_middle
  | called q e he htrace hq hcb hinstalling hnext =>
    have hcalled : e.called = none := by
      rcases he with rfl | rfl
      · rfl
      · rfl
    have heq : s'.numbers = s.numbers := by
      rw [Sleeper.numbers, Sleeper.numbers, htrace, hcb, hinstalling, hq, calls_concat, calls_concat, hcalled]
      simp [SleeperEvent.called]
    exact hold hnext (heq ▸ List.Sublist.refl _)
  | stopped e he htrace hcb hinstalling hnext =>
    have hcalled : e.called = none := by
      rcases he with rfl | rfl
      · rfl
      · rfl
    refine hold hnext ?_
    rw [Sleeper.numbers, Sleeper.numbers, htrace, hcb, hinstalling, calls_concat, hcalled]
    simp
  | installed p htrace hcb hinstalling hnext =>
    refine hold hnext ?_
    rw [Sleeper.numbers, Sleeper.numbers, htrace, hcb, hinstalling]
    simp

lemma SleeperInv.noneLost (h : SleeperInv s) : NoneLost s ↔ Always PauseCallOk s.trace ∧
    ∀ p, p ∈ openPauses s.trace ↔ s.cb = some p ∨ p ∈ s.installing := by
  refine ⟨fun hn => ⟨hn.calls, hn.kept⟩, fun hn => ⟨?_, hn.1, hn.2, fun hstack _ hcb => ?_⟩⟩
  · have hnodup := h.nodup
    rw [Sleeper.numbers, List.append_assoc] at hnodup
    exact (List.nodup_append.1 hnodup).1
  · rw [h.timer (by rw [Sleeper.installing, hstack]; rfl), h.active]
    exact Option.isSome_iff_ne_none.2 hcb

lemma SleeperInv.open_of_active (h : SleeperInv s) (hs : NoneLost s) {q : ℕ} (hq : s.cb = some q) :
    q ∉ s.installing ∧ q ≠ s.next ∧ q ∈ openPauses s.trace := by
  have hnodup := h.nodup
  have hlt := h.next q (by simp [Sleeper.numbers, hq])
  rw [Sleeper.numbers, hq, List.nodup_append] at hnodup
  exact ⟨fun hmem => hnodup.2.2 q (by simp) q hmem rfl, Nat.ne_of_lt hlt, (hs.kept q).2 (.inl hq)⟩

/-- **What a move does to the claim.** -/
lemma SleeperMove.keeps_iff (hmove : SleeperMove s s' safe) (h : SleeperInv s) (h' : SleeperInv s')
    (hs : NoneLost s) : NoneLost s' ↔ safe := by
  rw [h'.noneLost]
  cases hmove with
  | quiet htrace hcb hinstalling hnext =>
    rw [htrace, hcb, hinstalling]
    exact iff_of_true ⟨hs.calls, hs.kept⟩ trivial
  | resumed htrace hcb hinstalling hnext =>
    rw [htrace, hcb, hinstalling, always_concat, openPauses_concat]
    exact iff_of_true ⟨⟨hs.calls, trivial⟩, hs.kept⟩ trivial
  | paused htrace hnone hcb hinstalling hnext =>
    refine iff_of_true ⟨?_, fun p => ?_⟩ trivial
    · rw [htrace]
      exact always_concat.2 ⟨hs.calls, trivial⟩
    · have hkept := hs.kept p
      rw [hnone] at hkept
      rw [htrace, openPauses_concat, SleeperEvent.opens, List.mem_append, List.mem_singleton, hcb, hinstalling,
        Option.some_inj, hkept]
      simp only [reduceCtorEq, false_or]
      exact or_comm.trans (or_congr_left eq_comm)
  | replaced q htrace hq hcb hinstalling hnext =>
    obtain ⟨hplace, hne, hopen⟩ := h.open_of_active hs hq
    refine iff_of_true ⟨?_, fun p => ?_⟩ trivial
    · rw [htrace]
      refine always_concat.2 ⟨always_concat.2 ⟨hs.calls, trivial⟩, ?_, .pause s.next, by simp, trivial⟩
      rw [openPauses_concat]
      exact List.mem_append_left _ hopen
    · have hkept := hs.kept p
      rw [hq, Option.some_inj] at hkept
      rw [htrace, openPauses_concat, openPauses_concat, hcb, hinstalling]
      simp only [SleeperEvent.opens, List.mem_filter, List.mem_append, List.mem_cons, List.not_mem_nil, or_false,
        decide_eq_true_eq, hkept, reduceCtorEq, false_or]
      grind
  | called q e he htrace hq hcb hinstalling hnext =>
    obtain ⟨hplace, hne, hopen⟩ := h.open_of_active hs hq
    have hopens : e.opens (openPauses s.trace) = openPauses s.trace ∧ e.Calls ∧ PauseCallOk s.trace e := by
      rcases he with rfl | rfl
      · exact ⟨rfl, trivial, trivial⟩
      · exact ⟨rfl, trivial, trivial⟩
    refine iff_of_true ⟨?_, fun p => ?_⟩ trivial
    · rw [htrace]
      refine always_concat.2 ⟨always_concat.2 ⟨hs.calls, hopens.2.2⟩, ?_, e, by simp, hopens.2.1⟩
      rw [openPauses_concat, hopens.1]
      exact hopen
    · have hkept := hs.kept p
      rw [hq, Option.some_inj] at hkept
      rw [htrace, openPauses_concat, openPauses_concat, hopens.1, hcb, hinstalling]
      simp only [SleeperEvent.opens, List.mem_filter, decide_eq_true_eq, hkept, reduceCtorEq, false_or]
      grind
  | stopped e he htrace hcb hinstalling hnext =>
    have hopens : e.opens (openPauses s.trace) = [] ∧ PauseCallOk s.trace e := by
      rcases he with rfl | rfl
      · exact ⟨rfl, trivial⟩
      · exact ⟨rfl, trivial⟩
    rw [htrace, always_concat, and_iff_right (⟨hs.calls, hopens.2⟩ : _ ∧ _), openPauses_concat, hopens.1, hcb,
      hinstalling, List.eq_nil_iff_forall_not_mem]
    simp
  | installed p htrace hcb hinstalling hnext =>
    rw [htrace, and_iff_right hs.calls, hcb]
    constructor
    · intro hkept
      cases hq : s.cb with
      | none => rfl
      | some q =>
        -- the active pause is lost
        obtain ⟨hplace, hne, hopen⟩ := h.open_of_active hs hq
        rw [hinstalling] at hplace
        rcases (hkept q).1 hopen with heq | hmem
        · exact absurd (List.mem_cons.2 (.inl (Option.some.inj heq).symm)) hplace
        · exact absurd (List.mem_cons_of_mem _ hmem) hplace
    · intro hnone q
      rw [hs.kept, hnone, hinstalling, List.mem_cons, Option.some_inj]
      simp only [reduceCtorEq, false_or]
      exact or_congr_left eq_comm

/-- What a step keeps of the timer, and its move. -/
structure SleeperStep (s : Sleeper) (i : SleeperInput) : Prop where
  active : (sleeperStep s i).timerActive = (sleeperStep s i).cb.isSome
  timer : (sleeperStep s i).installing = [] → (sleeperStep s i).timer = (sleeperStep s i).timerActive
  move : ∃ safe, SleeperMove s (sleeperStep s i) safe ∧ (safe ↔ SleeperSafe s i)

lemma Sleeper.trigger_eq {q : ℕ} (hq : s.cb = some q) (frame : SleeperFrame) :
    s.trigger frame =
      { s with timerActive := false, cb := none, trace := s.trace ++ [.callback q], stack := frame :: s.stack } := by
  rw [Sleeper.trigger, hq]
  rfl

lemma SleeperInv.cb_cases (h : SleeperInv s) :
    s.timerActive = true ∧ (∃ q, s.cb = some q) ∨ s.timerActive = false ∧ s.cb = none := by
  rw [h.active]
  cases s.cb with
  | none => exact .inr ⟨rfl, rfl⟩
  | some q => exact .inl ⟨rfl, q, rfl⟩

lemma sleeperStep_of_eq (h : SleeperInv s) {i : SleeperInput} (heq : sleeperStep s i = s) (hsafe : SleeperSafe s i) :
    SleeperStep s i := by
  refine ⟨?_, ?_, True, ?_, iff_of_true trivial hsafe⟩
  · rw [heq]
    exact h.active
  · rw [heq]
    exact h.timer
  · rw [heq]
    exact .quiet rfl rfl rfl rfl

/-- **A new pause.** -/
lemma sleeperStep_pause (h : SleeperInv s) (hlive : s.destroyed = false) : SleeperStep s .pause := by
  have hstep : sleeperStep s .pause = s.pause := if_neg (by rw [hlive]; decide)
  rcases h.cb_cases with ⟨hactive, q, hq⟩ | ⟨hactive, hnone⟩
  · let b : Sleeper := { s.note (.pause s.next) with next := s.next + 1 }
    have hb : b.cb = some q := hq
    have heq : s.pause = _ := (if_pos hactive).trans (Sleeper.trigger_eq hb _)
    rw [heq] at hstep
    refine ⟨by rw [hstep]; rfl, fun hempty => ?_, True, ?_, iff_of_true trivial trivial⟩
    · rw [hstep] at hempty
      cases hempty
    · rw [hstep]
      exact .replaced q rfl hq rfl rfl rfl
  · have hnot : ¬ s.timerActive = true := by rw [hactive]; decide
    have heq : s.pause = { s.note (.pause s.next) with next := s.next + 1 }.install s.next := if_neg hnot
    rw [heq] at hstep
    refine ⟨by rw [hstep]; rfl, fun _ => by rw [hstep]; rfl, True, ?_, iff_of_true trivial trivial⟩
    rw [hstep]
    exact .paused rfl hnone rfl rfl rfl

/-- **A resume.** -/
lemma sleeperStep_resume (h : SleeperInv s) (hlive : s.destroyed = false) : SleeperStep s .resume := by
  have hstep : sleeperStep s .resume = s.resume := if_neg (by rw [hlive]; decide)
  rcases h.cb_cases with ⟨hactive, q, hq⟩ | ⟨hactive, hnone⟩
  · let b : Sleeper := { s.note .resume with timer := false }
    have hb : b.cb = some q := hq
    have heq : s.resume = _ := (if_pos hactive).trans (Sleeper.trigger_eq hb _)
    rw [heq] at hstep
    refine ⟨by rw [hstep]; rfl, fun _ => by rw [hstep], True, ?_, iff_of_true trivial trivial⟩
    rw [hstep]
    exact .called q .resume (.inl rfl) rfl hq rfl rfl rfl
  · have hnot : ¬ s.timerActive = true := by rw [hactive]; decide
    have heq : s.resume = s.note .resume := if_neg hnot
    rw [heq] at hstep
    refine ⟨by rw [hstep]; exact h.active, fun hempty => ?_, True, ?_, iff_of_true trivial trivial⟩
    · rw [hstep] at hempty ⊢
      exact h.timer hempty
    · rw [hstep]
      exact .resumed rfl rfl rfl rfl

/-- **The timer expires.** -/
lemma sleeperStep_expire (h : SleeperInv s) (hlive : s.destroyed = false) : SleeperStep s .expire := by
  have hstep : sleeperStep s .expire = s.expire := if_neg (by rw [hlive]; decide)
  by_cases hready : s.timer = true ∧ s.stack = []
  · have hempty : s.installing = [] := by rw [Sleeper.installing, hready.2]; rfl
    have hactive : s.timerActive = true := by rw [← h.timer hempty, hready.1]
    obtain ⟨q, hq⟩ := Option.isSome_iff_exists.1 (h.active ▸ hactive)
    let b : Sleeper := { s.note .expire with timer := false }
    have hb : b.cb = some q := hq
    have heq : s.expire = _ := (if_pos hready).trans (Sleeper.trigger_eq hb _)
    rw [heq] at hstep
    refine ⟨by rw [hstep]; rfl, fun _ => by rw [hstep], True, ?_, iff_of_true trivial trivial⟩
    rw [hstep]
    exact .called q .expire (.inr rfl) rfl hq rfl rfl rfl
  · exact sleeperStep_of_eq h (hstep.trans (if_neg hready)) trivial

lemma Sleeper.stop_spec (hactive : s.timerActive = s.cb.isSome) (htimer : s.installing = [] → s.timer = s.timerActive) :
    s.stop.cb = none ∧ s.stop.timerActive = false ∧ s.stop.trace = s.trace ∧ s.stop.stack = s.stack ∧
      s.stop.next = s.next ∧ (s.installing = [] → s.stop.timer = false) := by
  rw [Sleeper.stop]
  cases hcb : s.cb with
  | some q =>
    rw [if_pos (by rw [hactive, hcb]; rfl)]
    exact ⟨rfl, rfl, rfl, rfl, rfl, fun _ => rfl⟩
  | none =>
    have hidle : s.timerActive = false := by rw [hactive, hcb]; rfl
    rw [if_neg (by rw [hidle]; decide)]
    exact ⟨hcb, hidle, rfl, rfl, rfl, fun hempty => (htimer hempty).trans hidle⟩

/-- **The innermost callback returns.** -/
lemma sleeperStep_ret (h : SleeperInv s) : SleeperStep s .ret := by
  cases hstack : s.stack with
  | nil =>
    refine sleeperStep_of_eq h (by rw [sleeperStep, Sleeper.ret, hstack]) fun p rest hcons => ?_
    rw [hstack] at hcons
    cases hcons
  | cons frame rest =>
    have hstep : sleeperStep s .ret = { s with stack := rest }.goOn frame := by
      rw [sleeperStep, Sleeper.ret, hstack]
    cases frame with
    | done =>
      have hinstalling : ({ s with stack := rest } : Sleeper).installing = s.installing := by
        rw [Sleeper.installing, Sleeper.installing, hstack]
        rfl
      have hsafe : SleeperSafe s .ret := by
        intro p rest' hcons
        rw [hstack] at hcons
        cases hcons
      refine ⟨by rw [hstep]; exact h.active, fun hempty => ?_, True, ?_, iff_of_true trivial hsafe⟩
      · rw [hstep] at hempty ⊢
        exact h.timer (hinstalling ▸ hempty)
      · rw [hstep]
        exact .quiet rfl rfl hinstalling rfl
    | pause p =>
      have hinstalling : s.installing = p :: ({ s with stack := rest } : Sleeper).installing := by
        rw [Sleeper.installing, Sleeper.installing, hstack]
        rfl
      refine ⟨by rw [hstep]; rfl, fun _ => by rw [hstep]; rfl, s.cb = none, ?_, ?_⟩
      · rw [hstep]
        exact .installed p rfl rfl hinstalling rfl
      · have hiff : s.cb = none ↔ s.timerActive = false := by
          rw [h.active, Option.isSome_eq_false_iff, Option.isNone_iff_eq_none]
        rw [hiff]
        exact ⟨fun hidle _ _ _ => hidle, fun hsafe => hsafe p rest hstack⟩

/-- **Every step**, and when nothing is lost by it. -/
lemma sleeperStep_spec (h : SleeperInv s) (i : SleeperInput) : SleeperStep s i := by
  cases hlive : s.destroyed with
  | true =>
    cases i with
    | ret => exact sleeperStep_ret h
    | pause => exact sleeperStep_of_eq h (if_pos hlive) trivial
    | resume => exact sleeperStep_of_eq h (if_pos hlive) trivial
    | expire => exact sleeperStep_of_eq h (if_pos hlive) trivial
    | cancel =>
      refine sleeperStep_of_eq h (if_pos hlive) fun hnot => ?_
      rw [hlive] at hnot
      cases hnot
    | destroy =>
      refine sleeperStep_of_eq h (if_pos hlive) fun hnot => ?_
      rw [hlive] at hnot
      cases hnot
  | false =>
    have hnot : ¬ s.destroyed = true := by rw [hlive]; decide
    cases i with
    | ret => exact sleeperStep_ret h
    | pause => exact sleeperStep_pause h hlive
    | resume => exact sleeperStep_resume h hlive
    | expire => exact sleeperStep_expire h hlive
    | cancel =>
      have hstep : sleeperStep s .cancel = (s.note .cancel).stop := if_neg hnot
      obtain ⟨hcb, hactive, htrace, hstack, hnext, htimer⟩ :=
        Sleeper.stop_spec (s := s.note .cancel) h.active h.timer
      have hinstalling : (sleeperStep s .cancel).installing = s.installing := by
        rw [hstep, Sleeper.installing, hstack]
        rfl
      refine ⟨by rw [hstep, hcb, hactive]; rfl, fun hempty => ?_, s.installing = [], ?_, ?_⟩
      · rw [hstep, hactive]
        exact htimer (hinstalling ▸ hempty)
      · exact .stopped .cancel (.inl rfl) (hstep ▸ htrace) (hstep ▸ hcb) hinstalling (hstep ▸ hnext)
      · exact ⟨fun hempty _ => hempty, fun hsafe => hsafe hlive⟩
    | destroy =>
      have hstep : sleeperStep s .destroy = { (s.note .destroy).stop with timer := false, destroyed := true } :=
        if_neg hnot
      obtain ⟨hcb, hactive, htrace, hstack, hnext, htimer⟩ :=
        Sleeper.stop_spec (s := s.note .destroy) h.active h.timer
      have hinstalling : (sleeperStep s .destroy).installing = s.installing := by
        rw [hstep]
        show (s.note .destroy).stop.stack.filterMap SleeperFrame.installs = _
        rw [hstack]
        rfl
      refine ⟨by rw [hstep]; exact hactive.trans (by rw [hcb]; rfl), fun _ => ?_, s.installing = [], ?_, ?_⟩
      · rw [hstep]
        exact hactive.symm
      · exact .stopped .destroy (.inr rfl) (hstep ▸ htrace) (hstep ▸ hcb) hinstalling (hstep ▸ hnext)
      · exact ⟨fun hempty _ => hempty, fun hsafe => hsafe hlive⟩

/-- **Every step keeps the invariant.** -/
lemma sleeperInv_step (h : SleeperInv s) (i : SleeperInput) : SleeperInv (sleeperStep s i) := by
  obtain ⟨hactive, htimer, safe, hmove, -⟩ := sleeperStep_spec h i
  obtain ⟨hnodup, hnext⟩ := hmove.numbers h
  exact ⟨hactive, htimer, hnodup, hnext⟩

/-- **Which runs lose no pause**: those in which the callback of a replaced pause leaves no pause active, and does not
cancel or destroy the sleeper. -/
theorem noneLost_iff (inputs : List SleeperInput) :
    EveryState sleeperStep NoneLost {} inputs ↔ EveryStep sleeperStep SleeperSafe {} inputs := by
  have hinv : SleeperInv {} := ⟨rfl, fun _ => rfl, List.Pairwise.nil, fun p hp => absurd hp List.not_mem_nil⟩
  have hnone : NoneLost {} :=
    ⟨List.Pairwise.nil, always_nil PauseCallOk, fun p => by simp [openPauses, Sleeper.installing],
      fun _ _ hne => absurd rfl hne⟩
  refine everyState_iff_everyStep (I := SleeperInv) (fun s i h => sleeperInv_step h i) (fun s i h hs => ?_) hinv hnone
  obtain ⟨-, -, safe, hmove, hsafe⟩ := sleeperStep_spec h i
  rw [hmove.keeps_iff h (sleeperInv_step h i) hs, hsafe]

/-- **A callback that pauses again while it is replaced**: the pause it issues is never called. -/
theorem not_noneLost_nestedPause :
    ¬ NoneLost (run sleeperStep {} [.pause, .pause, .pause, .ret, .expire, .ret]) := by
  intro h
  have hkept := h.kept 2
  revert hkept
  decide

end HyperDHT.Async
