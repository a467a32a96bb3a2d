import Mathlib.Data.List.Induction
import Mathlib.Tactic.Common

/-!
# Runs of a deterministic machine

A machine is a step function `step : σ → ι → σ`; the inputs are everything its environment
may do, and a run is a list of inputs. An input the machine cannot take in a state leaves the
state unchanged, so every list of inputs is a run.

## Main definitions

* `Runs.run` — the state reached from `s` by a list of inputs.
* `Runs.EveryStep` — every step of a run meets a condition on the state before the step and
  the input taken.
* `Runs.EveryPair` — every two steps of a run are related.
* `Runs.EveryState` — every state of a run, the first and the last included, meets a
  condition.

## Main results

* `Runs.run_invariant`, `Runs.run_invariant_of_everyStep` — invariants of runs, plain and for runs
  whose steps all meet a condition.
* `Runs.origin_of`, `Runs.origin` — what a run ends with it began with, or one of its steps brought it.
* `Runs.everyState_of_everyStep` — such an invariant holds in every state of the run.
* `Runs.everyStep_iff` — two conditions that agree in the states of an invariant select the
  same runs.
* `Runs.everyState_iff_everyStep` — a property of states is kept by exactly the steps that meet a
  condition, so it holds in every state of exactly the runs whose steps all meet it.
* `Runs.holds_run_iff` — what holds after a run was given by one of its steps and not taken since.
-/

set_option autoImplicit false

namespace Runs

variable {σ ι : Type*} (step : σ → ι → σ)

/-- The state reached from `s` by the inputs `is`, in order. -/
def run (s : σ) (is : List ι) : σ := is.foldl step s

@[simp] lemma run_nil (s : σ) : run step s [] = s := rfl

@[simp] lemma run_cons (s : σ) (i : ι) (is : List ι) :
    run step s (i :: is) = run step (step s i) is := rfl

lemma run_append (s : σ) (is js : List ι) :
    run step s (is ++ js) = run step (run step s is) js :=
  List.foldl_append

/-- Every step of the run from `s` by `is` meets `C` at the state before it. -/
def EveryStep (C : σ → ι → Prop) : σ → List ι → Prop
  | _, [] => True
  | s, i :: is => C s i ∧ EveryStep C (step s i) is

/-- Every two steps of the run from `s` by `is`, one before the other, are related by `C`, each with
the state before it. -/
def EveryPair (C : σ → ι → σ → ι → Prop) (s : σ) (is : List ι) : Prop :=
  ∀ before i mid j after, is = before ++ i :: (mid ++ j :: after) →
    C (run step s before) i (run step s (before ++ i :: mid)) j

/-- Every state of the run from `s` by `is` meets `P`. -/
def EveryState (P : σ → Prop) : σ → List ι → Prop
  | s, [] => P s
  | s, i :: is => P s ∧ EveryState P (step s i) is

instance decidableEveryStep (C : σ → ι → Prop) [∀ s i, Decidable (C s i)] :
    ∀ s is, Decidable (EveryStep step C s is)
  | _, [] => .isTrue trivial
  | s, i :: is =>
    haveI := decidableEveryStep C (step s i) is
    inferInstanceAs (Decidable (C s i ∧ EveryStep step C (step s i) is))

variable {step}

lemma everyStep_append {C : σ → ι → Prop} {s : σ} {is js : List ι} :
    EveryStep step C s (is ++ js) ↔
      EveryStep step C s is ∧ EveryStep step C (run step s is) js := by
  induction is generalizing s with
  | nil => simp [EveryStep]
  | cons i is ih => simp [EveryStep, ih, and_assoc]

lemma EveryStep.mono {C D : σ → ι → Prop} (h : ∀ s i, C s i → D s i) {s : σ} {is : List ι}
    (hC : EveryStep step C s is) : EveryStep step D s is := by
  induction is generalizing s with
  | nil => trivial
  | cons i is ih => exact ⟨h s i hC.1, ih hC.2⟩

lemma EveryStep.and {C D : σ → ι → Prop} {s : σ} {is : List ι} (hC : EveryStep step C s is)
    (hD : EveryStep step D s is) : EveryStep step (fun s i => C s i ∧ D s i) s is := by
  induction is generalizing s with
  | nil => trivial
  | cons i is ih => exact ⟨⟨hC.1, hD.1⟩, ih hC.2 hD.2⟩

lemma EveryPair.iff_of {R C D : σ → ι → σ → ι → Prop} {s : σ} {is : List ι}
    (hR : EveryPair step R s is) (hCD : ∀ s i t j, R s i t j → (C s i t j ↔ D s i t j)) :
    EveryPair step C s is ↔ EveryPair step D s is := by
  constructor
  · intro hC before i mid j after his
    exact (hCD _ _ _ _ (hR before i mid j after his)).1 (hC before i mid j after his)
  · intro hD before i mid j after his
    exact (hCD _ _ _ _ (hR before i mid j after his)).2 (hD before i mid j after his)

lemma EveryStep.and_of_forall {C : σ → ι → Prop} {D : ι → Prop} {s : σ} {is : List ι}
    (hC : EveryStep step C s is) (hD : ∀ i ∈ is, D i) :
    EveryStep step (fun s i => D i ∧ C s i) s is := by
  induction is generalizing s with
  | nil => trivial
  | cons i is ih =>
    exact ⟨⟨hD i (by simp), hC.1⟩, ih hC.2 fun j hj => hD j (by simp [hj])⟩

lemma EveryState.mono {P Q : σ → Prop} (h : ∀ s, P s → Q s) {s : σ} {is : List ι}
    (hP : EveryState step P s is) : EveryState step Q s is := by
  induction is generalizing s with
  | nil => exact h s hP
  | cons i is ih => exact ⟨h s hP.1, ih hP.2⟩

lemma EveryState.run {P : σ → Prop} {s : σ} {is : List ι} (h : EveryState step P s is) :
    P (run step s is) := by
  induction is generalizing s with
  | nil => exact h
  | cons i is ih => exact ih h.2

/-- **The invariant rule**: what every step keeps holds at the end of every run. -/
theorem run_invariant {P : σ → Prop} (hstep : ∀ s i, P s → P (step s i)) {s : σ} (h : P s)
    (is : List ι) : P (run step s is) := by
  induction is generalizing s with
  | nil => exact h
  | cons i is ih => exact ih (hstep s i h)

/-- **The origin rule**: what the last state of a run has, the first one had, or a step of the run
brought it, if this is so of every step from a state of an invariant. `P s x` says that the state `s`
has `x`, and `Q s i x` that the input `i` brings it there. -/
theorem origin_of {χ : Type*} {I : σ → Prop} {P : σ → χ → Prop} {Q : σ → ι → χ → Prop}
    (hI : ∀ s i, I s → I (step s i)) (hstep : ∀ s i x, I s → P (step s i) x → P s x ∨ Q s i x)
    {s : σ} (hs : I s) {is : List ι} {x : χ} (h : P (run step s is) x) :
    P s x ∨ ∃ before i after, is = before ++ i :: after ∧ Q (run step s before) i x := by
  induction is generalizing s with
  | nil => exact .inl h
  | cons i is ih =>
    rcases ih (hI s i hs) h with hnext | ⟨before, j, after, rfl, hbrought⟩
    · rcases hstep s i x hs hnext with hfirst | hbrought
      · exact .inl hfirst
      · exact .inr ⟨[], i, is, rfl, hbrought⟩
    · exact .inr ⟨i :: before, j, after, rfl, hbrought⟩

/-- The origin rule for every step. -/
theorem origin {χ : Type*} {P : σ → χ → Prop} {Q : σ → ι → χ → Prop}
    (hstep : ∀ s i x, P (step s i) x → P s x ∨ Q s i x) {s : σ} {is : List ι} {x : χ}
    (h : P (run step s is) x) :
    P s x ∨ ∃ before i after, is = before ++ i :: after ∧ Q (run step s before) i x :=
  origin_of (I := fun _ => True) (fun _ _ _ => trivial) (fun s i x _ => hstep s i x) trivial h

/-- **The invariant rule for guarded runs**: what every step that meets `C` keeps holds at the
end of every run whose steps all meet `C`. -/
theorem run_invariant_of_everyStep {P : σ → Prop} {C : σ → ι → Prop}
    (hstep : ∀ s i, P s → C s i → P (step s i)) {s : σ} (h : P s) {is : List ι}
    (hC : EveryStep step C s is) : P (run step s is) := by
  induction is generalizing s with
  | nil => exact h
  | cons i is ih => exact ih (hstep s i h hC.1) hC.2

/-- The guarded invariant holds in every state of the run, not only in the last one. -/
theorem everyState_of_everyStep {P : σ → Prop} {C : σ → ι → Prop}
    (hstep : ∀ s i, P s → C s i → P (step s i)) {s : σ} (h : P s) {is : List ι}
    (hC : EveryStep step C s is) : EveryState step P s is := by
  induction is generalizing s with
  | nil => exact h
  | cons i is ih => exact ⟨h, ih (hstep s i h hC.1) hC.2⟩

/-- Two conditions on steps that agree in every state of an invariant, which the steps that
meet the second keep, select the same runs. -/
theorem everyStep_iff {I : σ → Prop} {C D : σ → ι → Prop}
    (hCD : ∀ s i, I s → (C s i ↔ D s i)) (hI : ∀ s i, I s → D s i → I (step s i)) {s : σ}
    (h : I s) {is : List ι} : EveryStep step C s is ↔ EveryStep step D s is := by
  induction is generalizing s with
  | nil => exact Iff.rfl
  | cons i is ih =>
    constructor
    · rintro ⟨h1, h2⟩
      have hD := (hCD s i h).1 h1
      exact ⟨hD, (ih (hI s i h hD)).1 h2⟩
    · rintro ⟨h1, h2⟩
      exact ⟨(hCD s i h).2 h1, (ih (hI s i h h1)).2 h2⟩

lemma EveryState.head {P : σ → Prop} {s : σ} {is : List ι} (h : EveryState step P s is) :
    P s := by
  cases is with
  | nil => exact h
  | cons i is => exact h.1

lemma EveryState.of_append {P : σ → Prop} {s : σ} {is js : List ι}
    (h : EveryState step P s (is ++ js)) : EveryState step P s is := by
  induction is generalizing s with
  | nil => exact h.head
  | cons i is ih => exact ⟨h.1, ih h.2⟩

/-- **Exactly the good steps**: if, under an invariant `I` of all steps, a step keeps `P` exactly
when it meets `C`, then `P` holds in every state of a run that starts with it exactly when every
step of the run meets `C`. -/
theorem everyState_iff_everyStep {I P : σ → Prop} {C : σ → ι → Prop}
    (hI : ∀ s i, I s → I (step s i)) (hstep : ∀ s i, I s → P s → (P (step s i) ↔ C s i))
    {s : σ} (hs : I s) (h : P s) {is : List ι} :
    EveryState step P s is ↔ EveryStep step C s is := by
  constructor
  · intro hall
    induction is generalizing s with
    | nil => trivial
    | cons i is ih =>
      have hnext := hall.2.head
      exact ⟨(hstep s i hs h).1 hnext, ih (hI s i hs) hnext hall.2⟩
  · intro hC
    refine (everyState_of_everyStep (P := fun s => I s ∧ P s) (fun s i hs hCi => ?_)
      ⟨hs, h⟩ hC).mono fun s hs => hs.2
    exact ⟨hI s i hs.1, (hstep s i hs.1 hs.2).2 hCi⟩

lemma everyStep_iff_forall {C : σ → ι → Prop} {s : σ} {is : List ι} :
    EveryStep step C s is ↔
      ∀ before i after, is = before ++ i :: after → C (run step s before) i := by
  induction is generalizing s with
  | nil => simp [EveryStep]
  | cons i is ih =>
    rw [EveryStep, ih]
    constructor
    · rintro ⟨hhead, htail⟩ before j after hsplit
      cases before with
      | nil =>
        obtain ⟨rfl, -⟩ := List.cons.inj hsplit
        exact hhead
      | cons k before =>
        obtain ⟨rfl, hrest⟩ := List.cons.inj hsplit
        exact htail before j after hrest
    · intro hall
      refine ⟨hall [] i is rfl, fun before j after hsplit => ?_⟩
      exact hall (i :: before) j after (by rw [hsplit, List.cons_append])

lemma everyPair_cons {C : σ → ι → σ → ι → Prop} {s : σ} {i : ι} {is : List ι} :
    EveryPair step C s (i :: is) ↔
      EveryStep step (C s i) (step s i) is ∧ EveryPair step C (step s i) is := by
  rw [everyStep_iff_forall]
  constructor
  · intro h
    refine ⟨fun mid j after hsplit => h [] i mid j after (by rw [hsplit, List.nil_append]), ?_⟩
    exact fun before k mid j after hsplit => h (i :: before) k mid j after (by rw [hsplit, List.cons_append])
  · rintro ⟨hfirst, hrest⟩ before k mid j after hsplit
    cases before with
    | nil =>
      obtain ⟨rfl, htail⟩ := List.cons.inj hsplit
      exact hfirst mid j after htail
    | cons l before =>
      obtain ⟨rfl, htail⟩ := List.cons.inj hsplit
      exact hrest before k mid j after htail

/-- **What holds after a run** was given by one of its steps and not taken since, if what holds
after a step was given by it, or held before and was not taken by it. -/
theorem holds_run_iff {χ : Type*} {I : σ → Prop} {P : σ → χ → Prop} {Gives Takes : σ → ι → χ → Prop}
    (hI : ∀ s i, I s → I (step s i))
    (hstep : ∀ s i x, I s → (P (step s i) x ↔ Gives s i x ∨ P s x ∧ ¬ Takes s i x)) {s : σ}
    (hs : I s) {x : χ} (hfirst : ¬ P s x) {is : List ι} :
    P (run step s is) x ↔ ∃ before i mid, is = before ++ i :: mid ∧
      Gives (run step s before) i x ∧
      EveryStep step (fun s i => ¬ Takes s i x) (run step s (before ++ [i])) mid := by
  induction is using List.reverseRecOn with
  | nil => simpa using hfirst
  | append_singleton is k ih =>
    rw [run_append, run_cons, run_nil, hstep _ k x (run_invariant hI hs is), ih]
    constructor
    · rintro (hgives | ⟨⟨before, i, mid, rfl, hgives, hkept⟩, hkeeps⟩)
      · exact ⟨is, k, [], rfl, hgives, trivial⟩
      · refine ⟨before, i, mid ++ [k], by simp, hgives, everyStep_append.2 ⟨hkept, ?_⟩⟩
        rw [← run_append, List.append_assoc, List.singleton_append]
        exact ⟨hkeeps, trivial⟩
    · rintro ⟨before, i, mid, hsplit, hgives, hkept⟩
      -- the step that gave it is the last one, or comes before it
      cases mid using List.reverseRecOn with
      | nil =>
        obtain ⟨rfl, hlast⟩ := List.append_inj' hsplit rfl
        obtain rfl := List.singleton_inj.1 hlast
        exact .inl hgives
      | append_singleton mid k' =>
        have hassoc : before ++ i :: (mid ++ [k']) = (before ++ i :: mid) ++ [k'] := by simp
        rw [hassoc] at hsplit
        obtain ⟨rfl, hlast⟩ := List.append_inj' hsplit rfl
        obtain rfl := List.singleton_inj.1 hlast
        obtain ⟨hkept, hkeeps, -⟩ := everyStep_append.1 hkept
        rw [← run_append, List.append_assoc, List.singleton_append] at hkeeps
        exact .inr ⟨⟨before, i, mid, rfl, hgives, hkept⟩, hkeeps⟩

end Runs
