import Mathlib.Data.List.Basic
import HyperDHT.Lib.Runs

/-!
# The semaphore

`async_utils::Semaphore` limits how many sections run at a time. Its callbacks run within the calls that grant or
reject them, so that they may call the semaphore again.

## Main definitions

* `Async.Event` — the calls of the semaphore and of its callbacks.
* `Async.Semaphore`, `Async.semaphoreStep` — the semaphore as a machine over the calls of its users and the returns of
  their callbacks.
* `Async.Disciplined` — how the semaphore grants and rejects.

## Main results

* `Async.Core.step` — what every step keeps.
* `Async.disciplined_run` — the semaphore is disciplined after every run.

## Design

Waits and flushes are numbered in the order in which they are issued. Between two callbacks the code runs without a
break; `stack` holds the functions that wait for a callback to return, the innermost first, and a call is in progress
as long as there is one. Only a holder signals. An empty callback does nothing, as if it returned at once.
-/

set_option autoImplicit false

namespace HyperDHT.Async

open Runs

/-! ## The trace -/

/-- The calls of the semaphore and of its callbacks, with the number of the wait or of the flush. -/
inductive Event where
  | wait (w : ℕ)
  | flush (f : ℕ)
  | signal (w : ℕ)
  | destroy
  | waitCallback (w : ℕ) (acquired : Bool)
  | flushCallback (f : ℕ) (acquired : Bool)
  deriving DecidableEq

namespace Event

/-- The wait that was issued. -/
def issued : Event → Option ℕ
  | .wait w => some w
  | _ => none

/-- The wait whose callback was called. -/
def answered : Event → Option ℕ
  | .waitCallback w _ => some w
  | _ => none

/-- The wait that was granted. -/
def granted : Event → Option ℕ
  | .waitCallback w true => some w
  | _ => none

/-- A granted wait is outstanding until it signals. -/
def outstanding (holders : List ℕ) : Event → List ℕ
  | .waitCallback w true => holders ++ [w]
  | .signal w => holders.erase w
  | _ => holders

end Event

/-- The waits that were issued, in this order. -/
def waits (trace : List Event) : List ℕ := trace.filterMap Event.issued

/-- The waits whose callbacks were called, in this order. -/
def answers (trace : List Event) : List ℕ := trace.filterMap Event.answered

/-- The waits that were granted, in this order. -/
def grants (trace : List Event) : List ℕ := trace.filterMap Event.granted

/-- The waits that were granted and have not signalled. -/
def holders (trace : List Event) : List ℕ := trace.foldl Event.outstanding []

@[simp] lemma waits_concat (trace : List Event) (e : Event) :
    waits (trace ++ [e]) = waits trace ++ e.issued.toList := by
  rw [waits, List.filterMap_append]
  cases h : e.issued <;> simp [waits, h]

@[simp] lemma answers_concat (trace : List Event) (e : Event) :
    answers (trace ++ [e]) = answers trace ++ e.answered.toList := by
  rw [answers, List.filterMap_append]
  cases h : e.answered <;> simp [answers, h]

@[simp] lemma grants_concat (trace : List Event) (e : Event) :
    grants (trace ++ [e]) = grants trace ++ e.granted.toList := by
  rw [grants, List.filterMap_append]
  cases h : e.granted <;> simp [grants, h]

@[simp] lemma holders_concat (trace : List Event) (e : Event) :
    holders (trace ++ [e]) = e.outstanding (holders trace) := by
  rw [holders, List.foldl_append]
  rfl

/-! ## The machine -/

/-- What continues when a callback returns. -/
inductive Frame where
  /-- The function that called it has nothing left to do. -/
  | done
  /-- The loop of `signal`. -/
  | signal
  /-- The loop of `destroy`. -/
  | destroy
  deriving DecidableEq

/-- The semaphore, the functions that wait for a callback to return, and the trace. -/
structure Semaphore where
  active : ℕ := 0
  destroyed : Bool := false
  waiting : List ℕ := []
  flushCb : Option ℕ := none
  stack : List Frame := []
  /-- The number of the next wait or flush. -/
  next : ℕ := 0
  trace : List Event := []
  deriving DecidableEq

namespace Semaphore

/-- An event is recorded. -/
def note (s : Semaphore) (e : Event) : Semaphore := { s with trace := s.trace ++ [e] }

/-- A callback is called by a function that goes on with `frame`. -/
def invoke (s : Semaphore) (e : Event) (frame : Frame) : Semaphore :=
  { s.note e with stack := frame :: s.stack }

/-- `Semaphore::wait`. -/
def wait (limit : ℕ) (s : Semaphore) : Semaphore :=
  let w := s.next
  let s := { s.note (.wait w) with next := w + 1 }
  if s.destroyed then s.invoke (.waitCallback w false) .done
  else if s.active < limit ∧ s.waiting = [] then
    { s with active := s.active + 1 }.invoke (.waitCallback w true) .done
  else { s with waiting := s.waiting ++ [w] }

/-- The end of `signal`: the flush, if nothing is active. -/
def checkFlush (s : Semaphore) : Semaphore :=
  match s.flushCb with
  | some f =>
    if s.active = 0 then { s with flushCb := none }.invoke (.flushCallback f true) .done else s
  | none => s

/-- The loop of `signal` and what comes after it. -/
def signalLoop (limit : ℕ) (s : Semaphore) : Semaphore :=
  match s.waiting with
  | w :: rest =>
    if s.active < limit ∧ s.destroyed = false then
      { s with active := s.active + 1, waiting := rest }.invoke (.waitCallback w true) .signal
    else s.checkFlush
  | [] => s.checkFlush

/-- `Semaphore::signal`, called by the holder `w`. -/
def signal (limit w : ℕ) (s : Semaphore) : Semaphore :=
  if w ∈ holders s.trace then
    { s.note (.signal w) with active := s.active - 1 }.signalLoop limit
  else s

/-- `Semaphore::flush`. -/
def flush (s : Semaphore) : Semaphore :=
  let f := s.next
  let s := { s.note (.flush f) with next := f + 1 }
  if s.destroyed then s.invoke (.flushCallback f false) .done
  else if s.active = 0 then s.invoke (.flushCallback f true) .done
  else { s with flushCb := some f }

/-- The loop of `destroy`, from the end of the queue, and what comes after it. -/
def destroyLoop (s : Semaphore) : Semaphore :=
  match s.waiting.getLast? with
  | some w => { s with waiting := s.waiting.dropLast }.invoke (.waitCallback w false) .destroy
  | none =>
    match s.flushCb with
    | some f => { s with flushCb := none }.invoke (.flushCallback f false) .done
    | none => s

/-- `Semaphore::destroy`. -/
def destroy (s : Semaphore) : Semaphore :=
  { s.note .destroy with destroyed := true, active := 0 }.destroyLoop

/-- The innermost callback returns. -/
def ret (limit : ℕ) (s : Semaphore) : Semaphore :=
  match s.stack with
  | [] => s
  | .done :: rest => { s with stack := rest }
  | .signal :: rest => { s with stack := rest }.signalLoop limit
  | .destroy :: rest => { s with stack := rest }.destroyLoop

end Semaphore

/-- The calls of the users, and the returns of their callbacks. -/
inductive SemaphoreInput where
  | wait
  | signal (w : ℕ)
  | flush
  | destroy
  | ret

/-- The semaphore takes a step. -/
def semaphoreStep (limit : ℕ) (s : Semaphore) : SemaphoreInput → Semaphore
  | .wait => s.wait limit
  | .signal w => s.signal limit w
  | .flush => s.flush
  | .destroy => s.destroy
  | .ret => s.ret limit

/-! ## The claim -/

/-- **The discipline of the semaphore**: the granted waits that have not signalled are at most `limit`; waits are
granted in the order in which they were issued, none before one that is still queued; when no call is in progress and
the semaphore is not destroyed, waits are queued only at the limit; and every callback is called once: a queued one not
yet, and after `destroy` all of them; with `false` only when destroyed. -/
structure Disciplined (limit : ℕ) (s : Semaphore) : Prop where
  atMost : (holders s.trace).length ≤ limit
  issued : (waits s.trace).Pairwise (· < ·)
  fifo : (grants s.trace ++ s.waiting).Pairwise (· < ·)
  wakeUp : s.stack = [] → s.destroyed = false → s.waiting ≠ [] → s.active = limit
  once : (answers s.trace).Nodup
  answered : ∀ w ∈ answers s.trace, w ∈ waits s.trace
  pending : ∀ w ∈ waits s.trace, w ∈ answers s.trace ∨ w ∈ s.waiting
  settled : s.stack = [] → s.destroyed = true → ∀ w ∈ waits s.trace, w ∈ answers s.trace
  rejected : ∀ w, .waitCallback w false ∈ s.trace → s.destroyed = true
  destroyed : s.destroyed = true ↔ .destroy ∈ s.trace

/-! ## What every step keeps -/

/-- The counters and the queue agree with the trace. -/
structure Core (limit : ℕ) (s : Semaphore) : Prop where
  active : s.destroyed = false → s.active = (holders s.trace).length
  zero : s.destroyed = true → s.active = 0
  atMost : (holders s.trace).length ≤ limit
  issued : (waits s.trace).Pairwise (· < ·)
  next : ∀ w ∈ waits s.trace, w < s.next
  perm : (answers s.trace ++ s.waiting).Perm (waits s.trace)
  fifo : (grants s.trace ++ s.waiting).Pairwise (· < ·)
  rejected : ∀ w, .waitCallback w false ∈ s.trace → s.destroyed = true
  destroyed : s.destroyed = true ↔ .destroy ∈ s.trace

/-- While the semaphore is not destroyed, waits are queued only if at most `slack` more could be active. -/
def Full (limit slack : ℕ) (s : Semaphore) : Prop :=
  s.destroyed = false → s.waiting ≠ [] → limit ≤ s.active + slack

/-- What is left when the semaphore is destroyed is left to the loop of `destroy`, and a loop of `signal` does not run
on top of one of `destroy`. -/
structure Frames (s : Semaphore) : Prop where
  left : s.destroyed = true → s.waiting ≠ [] ∨ s.flushCb ≠ none → .destroy ∈ s.stack
  destroyed : .destroy ∈ s.stack → s.destroyed = true
  order : s.stack.Pairwise fun upper lower => upper = .signal → lower ≠ .destroy

/-- What holds whenever the users have control. -/
structure Inv (limit : ℕ) (s : Semaphore) : Prop where
  core : Core limit s
  full : Full limit 0 s
  frames : Frames s
  flush : s.destroyed = false → s.flushCb ≠ none → s.active ≠ 0

variable {limit : ℕ} {s : Semaphore}

namespace Core

lemma congr {s' : Semaphore} (h : Core limit s) (hactive : s'.active = s.active)
    (hdestroyed : s'.destroyed = s.destroyed) (hwaiting : s'.waiting = s.waiting) (hnext : s.next ≤ s'.next)
    (htrace : s'.trace = s.trace) : Core limit s' := by
  refine ⟨?_, ?_, ?_, ?_, fun w hw => ?_, ?_, ?_, ?_, ?_⟩
  · rw [hactive, hdestroyed, htrace]
    exact h.active
  · rw [hactive, hdestroyed]
    exact h.zero
  · rw [htrace]
    exact h.atMost
  · rw [htrace]
    exact h.issued
  · rw [htrace] at hw
    exact Nat.lt_of_lt_of_le (h.next w hw) hnext
  · rw [htrace, hwaiting]
    exact h.perm
  · rw [htrace, hwaiting]
    exact h.fifo
  · rw [htrace, hdestroyed]
    exact h.rejected
  · rw [htrace, hdestroyed]
    exact h.destroyed

lemma note (h : Core limit s) {e : Event} (hflush : ∃ f, e = .flush f ∨ ∃ ok, e = .flushCallback f ok) :
    Core limit (s.note e) := by
  obtain ⟨f, rfl | ⟨ok, rfl⟩⟩ := hflush
  all_goals
    obtain ⟨h1, h2, h3, h4, h5, h6, h7, h8, h9⟩ := h
    constructor
    all_goals simpa [Semaphore.note, Event.issued, Event.answered, Event.granted, Event.outstanding]

lemma mem_waits_of_grants (h : Core limit s) {w : ℕ} (hw : w ∈ grants s.trace) : w ∈ waits s.trace := by
  obtain ⟨e, he, hgranted⟩ := List.mem_filterMap.1 hw
  have hanswer : w ∈ answers s.trace := by
    refine List.mem_filterMap.2 ⟨e, he, ?_⟩
    cases e with
    | waitCallback v ok =>
      cases ok with
      | true => exact hgranted
      | false => simp [Event.granted] at hgranted
    | wait v => simp [Event.granted] at hgranted
    | flush f => simp [Event.granted] at hgranted
    | signal v => simp [Event.granted] at hgranted
    | destroy => simp [Event.granted] at hgranted
    | flushCallback f ok => simp [Event.granted] at hgranted
  exact h.perm.mem_iff.1 (List.mem_append_left _ hanswer)

lemma queue (h : Core limit s) :
    Core limit { s.note (.wait s.next) with next := s.next + 1, waiting := s.waiting ++ [s.next] } := by
  have hbefore : ∀ w ∈ grants s.trace ++ s.waiting, w < s.next := by
    intro w hw
    rcases List.mem_append.1 hw with hgranted | hqueued
    · exact h.next w (h.mem_waits_of_grants hgranted)
    · exact h.next w (h.perm.mem_iff.1 (List.mem_append_right _ hqueued))
  refine ⟨?_, h.zero, ?_, ?_, fun w hw => ?_, ?_, ?_, ?_, ?_⟩
  · simpa [Semaphore.note, Event.outstanding] using h.active
  · simpa [Semaphore.note, Event.outstanding] using h.atMost
  · simp only [Semaphore.note, waits_concat, Event.issued, Option.toList_some]
    exact List.pairwise_append.2 ⟨h.issued, List.pairwise_singleton _ _, by simpa using h.next⟩
  · simp only [Semaphore.note, waits_concat, Event.issued, Option.toList_some, List.mem_append,
      List.mem_singleton] at hw
    rcases hw with hold | rfl
    · exact Nat.lt_succ_of_lt (h.next w hold)
    · exact Nat.lt_succ_self _
  · simp only [Semaphore.note, waits_concat, answers_concat, Event.issued, Event.answered, Option.toList_some,
      Option.toList_none, List.append_nil, ← List.append_assoc]
    exact h.perm.append_right _
  · simp only [Semaphore.note, grants_concat, Event.granted, Option.toList_none, List.append_nil,
      ← List.append_assoc]
    exact List.pairwise_append.2 ⟨h.fifo, List.pairwise_singleton _ _, by simpa using hbefore⟩
  · simpa [Semaphore.note] using h.rejected
  · simpa [Semaphore.note] using h.destroyed

lemma grantFirst (h : Core limit s) {w : ℕ} {rest : List ℕ} (hw : s.waiting = w :: rest)
    (hroom : s.active < limit) (hlive : s.destroyed = false) (frame : Frame) :
    Core limit ({ s with active := s.active + 1, waiting := rest }.invoke (.waitCallback w true) frame) := by
  have hactive := h.active hlive
  have hperm := h.perm
  have hfifo := h.fifo
  rw [hw] at hperm hfifo
  refine ⟨fun _ => ?_, fun hdestroyed => ?_, ?_, ?_, ?_, ?_, ?_, ?_, ?_⟩
  · simp [Semaphore.invoke, Semaphore.note, Event.outstanding, hactive]
  · simp [Semaphore.invoke, Semaphore.note, hlive] at hdestroyed
  · simp only [Semaphore.invoke, Semaphore.note, holders_concat, Event.outstanding, List.length_append,
      List.length_singleton]
    omega
  · simpa [Semaphore.invoke, Semaphore.note, Event.issued] using h.issued
  · simpa [Semaphore.invoke, Semaphore.note, Event.issued] using h.next
  · simpa [Semaphore.invoke, Semaphore.note, Event.issued, Event.answered] using hperm
  · simpa [Semaphore.invoke, Semaphore.note, Event.granted] using hfifo
  · simpa [Semaphore.invoke, Semaphore.note] using h.rejected
  · simpa [Semaphore.invoke, Semaphore.note] using h.destroyed

lemma rejectLast (h : Core limit s) {w : ℕ} {rest : List ℕ} (hw : s.waiting = rest ++ [w])
    (hdestroyed : s.destroyed = true) (frame : Frame) :
    Core limit ({ s with waiting := rest }.invoke (.waitCallback w false) frame) := by
  have hperm := h.perm
  have hfifo := h.fifo
  rw [hw, ← List.append_assoc] at hfifo
  rw [hw] at hperm
  refine ⟨fun hlive => ?_, h.zero, ?_, ?_, ?_, ?_, ?_, fun _ _ => hdestroyed, ?_⟩
  · simp [Semaphore.invoke, Semaphore.note, hdestroyed] at hlive
  · simpa [Semaphore.invoke, Semaphore.note, Event.outstanding] using h.atMost
  · simpa [Semaphore.invoke, Semaphore.note, Event.issued] using h.issued
  · simpa [Semaphore.invoke, Semaphore.note, Event.issued] using h.next
  · simp only [Semaphore.invoke, Semaphore.note, waits_concat, answers_concat, Event.issued, Event.answered,
      Option.toList_some, Option.toList_none, List.append_nil, List.append_assoc]
    exact (List.perm_append_comm.append_left _).trans hperm
  · simpa [Semaphore.invoke, Semaphore.note, Event.granted] using (List.pairwise_append.1 hfifo).1
  · simpa [Semaphore.invoke, Semaphore.note] using h.destroyed

lemma signal (h : Core limit s) {w : ℕ} (hw : w ∈ holders s.trace) :
    Core limit { s.note (.signal w) with active := s.active - 1 } := by
  have hlength := List.length_erase_of_mem hw
  have hatMost := h.atMost
  refine ⟨fun hlive => ?_, fun hdestroyed => ?_, ?_, ?_, ?_, ?_, ?_, ?_, ?_⟩
  · simp [Semaphore.note, Event.outstanding, hlength, h.active hlive]
  · simp [h.zero hdestroyed]
  · simp only [Semaphore.note, holders_concat, Event.outstanding, hlength]
    omega
  · simpa [Semaphore.note, Event.issued] using h.issued
  · simpa [Semaphore.note, Event.issued] using h.next
  · simpa [Semaphore.note, Event.issued, Event.answered] using h.perm
  · simpa [Semaphore.note, Event.granted] using h.fifo
  · simpa [Semaphore.note] using h.rejected
  · simpa [Semaphore.note] using h.destroyed

lemma destroy (h : Core limit s) : Core limit { s.note .destroy with destroyed := true, active := 0 } := by
  refine ⟨fun hlive => absurd hlive (by simp), fun _ => rfl, ?_, ?_, ?_, ?_, ?_, fun _ _ => rfl, ?_⟩
  · simpa [Semaphore.note, Event.outstanding] using h.atMost
  · simpa [Semaphore.note, Event.issued] using h.issued
  · simpa [Semaphore.note, Event.issued] using h.next
  · simpa [Semaphore.note, Event.issued, Event.answered] using h.perm
  · simpa [Semaphore.note, Event.granted] using h.fifo
  · simp [Semaphore.note]

end Core

/-! ## The loops -/

/-- **What the loop of `signal` does**: it grants the first of the queue, or it calls the flush, or nothing. -/
lemma signalLoop_cases (limit : ℕ) (s : Semaphore) :
    (∃ w rest, s.waiting = w :: rest ∧ s.active < limit ∧ s.destroyed = false ∧
        s.signalLoop limit =
          { s with active := s.active + 1, waiting := rest }.invoke (.waitCallback w true) .signal) ∨
      (s.waiting = [] ∨ limit ≤ s.active ∨ s.destroyed = true) ∧
        ((∃ f, s.flushCb = some f ∧ s.active = 0 ∧
            s.signalLoop limit = { s with flushCb := none }.invoke (.flushCallback f true) .done) ∨
          (s.flushCb = none ∨ s.active ≠ 0) ∧ s.signalLoop limit = s) := by
  have hflush : (∃ f, s.flushCb = some f ∧ s.active = 0 ∧
      s.checkFlush = { s with flushCb := none }.invoke (.flushCallback f true) .done) ∨
      (s.flushCb = none ∨ s.active ≠ 0) ∧ s.checkFlush = s := by
    rw [Semaphore.checkFlush]
    cases hf : s.flushCb with
    | none => exact .inr ⟨.inl rfl, rfl⟩
    | some f =>
      by_cases hactive : s.active = 0
      · exact .inl ⟨f, rfl, hactive, if_pos hactive⟩
      · exact .inr ⟨.inr hactive, if_neg hactive⟩
  by_cases hempty : s.waiting = []
  · have hloop : s.signalLoop limit = s.checkFlush := by rw [Semaphore.signalLoop, hempty]
    rw [hloop]
    exact .inr ⟨.inl hempty, hflush⟩
  · obtain ⟨w, rest, hw⟩ := List.exists_cons_of_ne_nil hempty
    by_cases hroom : s.active < limit ∧ s.destroyed = false
    · refine .inl ⟨w, rest, hw, hroom.1, hroom.2, ?_⟩
      rw [Semaphore.signalLoop, hw]
      exact if_pos hroom
    · have hloop : s.signalLoop limit = s.checkFlush := by
        rw [Semaphore.signalLoop, hw]
        exact if_neg hroom
      rw [not_and_or, Nat.not_lt, Bool.not_eq_false] at hroom
      rw [hloop]
      exact .inr ⟨.inr hroom, hflush⟩

/-- **What the loop of `destroy` does**: it rejects the last of the queue, or the flush, or nothing. -/
lemma destroyLoop_cases (s : Semaphore) :
    (∃ w rest, s.waiting = rest ++ [w] ∧
        s.destroyLoop = { s with waiting := rest }.invoke (.waitCallback w false) .destroy) ∨
      s.waiting = [] ∧
        ((∃ f, s.flushCb = some f ∧
            s.destroyLoop = { s with flushCb := none }.invoke (.flushCallback f false) .done) ∨
          s.flushCb = none ∧ s.destroyLoop = s) := by
  rcases List.eq_nil_or_concat' s.waiting with hempty | ⟨rest, w, hw⟩
  · refine .inr ⟨hempty, ?_⟩
    rcases Option.eq_none_or_eq_some s.flushCb with hf | ⟨f, hf⟩
    · exact .inr ⟨hf, by simp [Semaphore.destroyLoop, hempty, hf]⟩
    · exact .inl ⟨f, hf, by simp [Semaphore.destroyLoop, hempty, hf]⟩
  · exact .inl ⟨w, rest, hw, by simp [Semaphore.destroyLoop, hw]⟩

lemma Frames.done (h : Frames s) {s' : Semaphore} (hdestroyed : s'.destroyed = s.destroyed)
    (hstack : s'.stack = .done :: s.stack)
    (hleft : s'.waiting ≠ [] ∨ s'.flushCb ≠ none → s.waiting ≠ [] ∨ s.flushCb ≠ none) : Frames s' := by
  refine ⟨fun hd hl => ?_, fun hmem => ?_, ?_⟩
  · rw [hstack]
    exact List.mem_cons_of_mem _ (h.left (hdestroyed ▸ hd) (hleft hl))
  · rw [hstack] at hmem
    rw [hdestroyed]
    exact h.destroyed (by simpa using hmem)
  · rw [hstack]
    exact List.pairwise_cons.2 ⟨fun lower _ hupper => absurd hupper (by decide), h.order⟩

lemma Frames.pop (h : Frames s) {frame : Frame} {rest : List Frame} (hstack : s.stack = frame :: rest)
    (hframe : frame ≠ .destroy) : Frames { s with stack := rest } := by
  obtain ⟨hleft, hdestroyed, horder⟩ := h
  rw [hstack] at hleft hdestroyed horder
  refine ⟨fun hd hl => ?_, fun hmem => hdestroyed (List.mem_cons_of_mem _ hmem), (List.pairwise_cons.1 horder).2⟩
  exact (List.mem_cons.1 (hleft hd hl)).resolve_left hframe.symm

lemma Core.invokeFlush (h : Core limit s) (f : ℕ) (ok : Bool) :
    Core limit ({ s with flushCb := none }.invoke (.flushCallback f ok) .done) :=
  (h.note ⟨f, .inr ⟨ok, rfl⟩⟩).congr rfl rfl rfl (Nat.le_refl _) rfl

/-- **The loop of `signal` restores the invariant**, if at most one more could be active. -/
lemma inv_signalLoop (hcore : Core limit s) (hfull : Full limit 1 s) (hframes : Frames s) :
    Inv limit (s.signalLoop limit) := by
  rcases signalLoop_cases limit s with ⟨w, rest, hw, hroom, hlive, heq⟩ | ⟨hstop, hend⟩
  · rw [heq]
    refine ⟨hcore.grantFirst hw hroom hlive .signal, fun _ _ => hfull hlive (by simp [hw]), ?_,
      fun _ _ => Nat.succ_ne_zero _⟩
    have hnone : ∀ lower ∈ s.stack, lower ≠ .destroy := by
      rintro lower hlower rfl
      rw [hframes.destroyed hlower] at hlive
      cases hlive
    refine ⟨fun hd => ?_, fun hmem => ?_, List.pairwise_cons.2 ⟨fun lower hlower _ => hnone lower hlower, hframes.order⟩⟩
    · rw [show s.destroyed = true from hd] at hlive
      cases hlive
    · rcases List.mem_cons.1 hmem with hhead | htail
      · cases hhead
      · exact absurd rfl (hnone _ htail)
  · have hfull' : Full limit 0 s := by
      intro hlive hne
      rcases hstop with hempty | hle | hdestroyed
      · exact absurd hempty hne
      · exact hle
      · rw [hdestroyed] at hlive
        cases hlive
    rcases hend with ⟨f, hf, hactive, heq⟩ | ⟨hquiet, heq⟩
    · rw [heq]
      refine ⟨hcore.invokeFlush f true, hfull', hframes.done rfl rfl ?_, fun _ hne => absurd rfl hne⟩
      exact fun hl => hl.imp_right fun hne => absurd rfl hne
    · rw [heq]
      exact ⟨hcore, hfull', hframes, fun _ hne => hquiet.resolve_left hne⟩

/-- **The loop of `destroy` restores the invariant.** -/
lemma inv_destroyLoop (hcore : Core limit s) (hdestroyed : s.destroyed = true)
    (horder : s.stack.Pairwise fun upper lower => upper = .signal → lower ≠ .destroy) :
    Inv limit s.destroyLoop := by
  have hlive {p : Prop} (h : s.destroyed = false) : p := by
    rw [hdestroyed] at h
    cases h
  rcases destroyLoop_cases s with ⟨w, rest, hw, heq⟩ | ⟨hempty, ⟨f, hf, heq⟩ | ⟨hnone, heq⟩⟩
  · rw [heq]
    refine ⟨hcore.rejectLast hw hdestroyed .destroy, fun h => hlive h, ⟨fun _ _ => List.mem_cons_self, fun _ => hdestroyed,
      List.pairwise_cons.2 ⟨fun lower _ hupper => absurd hupper (by decide), horder⟩⟩, fun h => hlive h⟩
  · rw [heq]
    refine ⟨hcore.invokeFlush f false, fun h => hlive h, ⟨fun _ hleft => ?_, fun _ => hdestroyed,
      List.pairwise_cons.2 ⟨fun lower _ hupper => absurd hupper (by decide), horder⟩⟩, fun h => hlive h⟩
    rcases hleft with hne | hne
    · exact absurd hempty hne
    · exact absurd rfl hne
  · rw [heq]
    refine ⟨hcore, fun h => hlive h, ⟨fun _ hleft => ?_, fun _ => hdestroyed, horder⟩, fun h => hlive h⟩
    rcases hleft with hne | hne
    · exact absurd hempty hne
    · exact absurd hnone hne

/-- **Every step keeps the invariant.** -/
lemma inv_step (h : Inv limit s) (i : SemaphoreInput) : Inv limit (semaphoreStep limit s i) := by
  cases i with
  | wait =>
    have hqueued := h.core.queue
    show Inv limit (s.wait limit)
    rw [Semaphore.wait]
    dsimp only
    split
    next hdestroyed =>
      exact ⟨hqueued.rejectLast rfl hdestroyed .done, fun hlive => h.full hlive, h.frames.done rfl rfl id, h.flush⟩
    next hlive =>
      split
      next hroom =>
        have hempty : s.waiting = [] := hroom.2
        have hfirst : s.waiting ++ [s.next] = s.next :: s.waiting := by rw [hempty, List.nil_append]
        exact ⟨hqueued.grantFirst hfirst hroom.1 (by simpa using hlive) .done, fun _ hne => absurd hempty hne,
          h.frames.done rfl rfl id, fun _ _ => Nat.succ_ne_zero _⟩
      next hno =>
        refine ⟨hqueued, fun hlive' _ => ?_, ⟨fun hd => absurd hd hlive, h.frames.destroyed, h.frames.order⟩, h.flush⟩
        by_cases hempty : s.waiting = []
        · rw [not_and_or, Nat.not_lt] at hno
          exact hno.resolve_right (not_not_intro hempty)
        · exact h.full hlive' hempty
  | signal w =>
    show Inv limit (s.signal limit w)
    rw [Semaphore.signal]
    split
    next hw =>
      refine inv_signalLoop (h.core.signal hw) (fun hlive hne => ?_) ⟨h.frames.left, h.frames.destroyed, h.frames.order⟩
      have hfull := h.full hlive hne
      show limit ≤ s.active - 1 + 1
      omega
    · exact h
  | flush =>
    have hnoted (f : ℕ) : Core limit { s.note (.flush f) with next := s.next + 1 } :=
      (h.core.note ⟨f, .inl rfl⟩).congr rfl rfl rfl (Nat.le_succ _) rfl
    show Inv limit s.flush
    rw [Semaphore.flush]
    dsimp only
    split
    · refine ⟨((hnoted s.next).note ⟨s.next, .inr ⟨false, rfl⟩⟩).congr rfl rfl rfl (Nat.le_refl _) rfl, h.full,
        h.frames.done rfl rfl id, h.flush⟩
    next hlive =>
      split
      · exact ⟨((hnoted s.next).note ⟨s.next, .inr ⟨true, rfl⟩⟩).congr rfl rfl rfl (Nat.le_refl _) rfl, h.full,
          h.frames.done rfl rfl id, h.flush⟩
      next hactive =>
        exact ⟨(hnoted s.next).congr rfl rfl rfl (Nat.le_refl _) rfl, h.full,
          ⟨fun hd => absurd hd hlive, h.frames.destroyed, h.frames.order⟩, fun _ _ => hactive⟩
  | destroy =>
    exact inv_destroyLoop h.core.destroy rfl h.frames.order
  | ret =>
    show Inv limit (s.ret limit)
    rw [Semaphore.ret]
    split
    · exact h
    next rest hstack =>
      exact ⟨h.core.congr rfl rfl rfl (Nat.le_refl _) rfl, h.full, h.frames.pop hstack (by decide), h.flush⟩
    next rest hstack =>
      refine inv_signalLoop (h.core.congr rfl rfl rfl (Nat.le_refl _) rfl) (fun hlive hne => ?_)
        (h.frames.pop hstack (by decide))
      exact Nat.le_succ_of_le (h.full hlive hne)
    next rest hstack =>
      have hframes := h.frames
      have horder := hframes.order
      rw [hstack] at horder
      have hdestroyed := hframes.destroyed (by rw [hstack]; exact List.mem_cons_self)
      exact inv_destroyLoop (h.core.congr rfl rfl rfl (Nat.le_refl _) rfl) hdestroyed (List.pairwise_cons.1 horder).2

lemma inv_init (limit : ℕ) : Inv limit {} := by
  refine ⟨⟨fun _ => rfl, fun h => absurd h (by decide), Nat.zero_le _, List.Pairwise.nil, ?_, List.Perm.refl _,
    List.Pairwise.nil, ?_, ?_⟩, ?_, ⟨?_, ?_, List.Pairwise.nil⟩, ?_⟩
  all_goals simp [waits, Full]

/-- **The semaphore is disciplined** after every run. -/
theorem disciplined_run (limit : ℕ) (inputs : List SemaphoreInput) :
    Disciplined limit (run (semaphoreStep limit) {} inputs) := by
  have hinv : Inv limit (run (semaphoreStep limit) {} inputs) :=
    run_invariant (P := Inv limit) (fun _ i h => inv_step h i) (inv_init limit) inputs
  generalize run (semaphoreStep limit) {} inputs = s at hinv
  have hcore := hinv.core
  have hnodup : (answers s.trace ++ s.waiting).Nodup := by
    rw [hcore.perm.nodup_iff]
    exact hcore.issued.imp fun hlt => Nat.ne_of_lt hlt
  refine ⟨hcore.atMost, hcore.issued, hcore.fifo, fun _ hlive hne => ?_, (List.nodup_append.1 hnodup).1,
    fun w hw => hcore.perm.mem_iff.1 (List.mem_append_left _ hw),
    fun w hw => List.mem_append.1 (hcore.perm.mem_iff.2 hw), fun hstack hdestroyed w hw => ?_, hcore.rejected,
    hcore.destroyed⟩
  · have hle := hcore.atMost
    have hfull := hinv.full hlive hne
    rw [← hcore.active hlive] at hle
    omega
  · have hempty : s.waiting = [] := by
      by_contra hne
      have hmem := hinv.frames.left hdestroyed (.inl hne)
      rw [hstack] at hmem
      exact absurd hmem List.not_mem_nil
    have hmem := hcore.perm.mem_iff.2 hw
    rwa [hempty, List.append_nil] at hmem

end HyperDHT.Async
