import Mathlib.Data.List.Basic
import Mathlib.Data.Option.Basic
import Mathlib.Tactic.Common

/-!
# References on a call stack

The frames of a call stack refer to objects, and some frames free the object they refer to when their
turn comes. A frame has its turn when all the frames above it are gone. The stack is sound if every
frame refers to an object that is still there, and no frame below one that frees an object refers to
that object.

## Main definitions

* `Lifetimes.Sound` — a stack that is sound for the objects that are there.

## Main results

* `Lifetimes.Sound.push`, `Lifetimes.Sound.push_list` — frames that are added on top.
* `Lifetimes.Sound.become` — a frame that frees an object becomes another one that will free it.
* `Lifetimes.Sound.free` — when a frame frees its object, the frames below do not miss it.
-/

set_option autoImplicit false

namespace Lifetimes

variable {φ ρ : Type*}

/-- The frames refer to objects that are there, and no frame below one that frees an object refers to
that object. The frame on top comes first. -/
structure Sound (ref : φ → Option ρ) (frees : φ → Prop) (live : ρ → Prop) (stack : List φ) :
    Prop where
  live : ∀ f ∈ stack, ∀ p, ref f = some p → live p
  apart : stack.Pairwise fun f g => frees f → ∀ p, ref f = some p → ref g ≠ some p

namespace Sound

variable {ref : φ → Option ρ} {frees : φ → Prop} {live live' : ρ → Prop} {stack : List φ} {f g : φ}
  {p : ρ}

lemma nil : Sound ref frees live [] := ⟨by simp, .nil⟩

lemma mono (h : Sound ref frees live stack) (hlive : ∀ p, live p → live' p) :
    Sound ref frees live' stack :=
  ⟨fun f hf p hp => hlive p (h.live f hf p hp), h.apart⟩

lemma pop (h : Sound ref frees live (f :: stack)) : Sound ref frees live stack :=
  ⟨fun g hg => h.live g (List.mem_cons_of_mem _ hg), h.apart.of_cons⟩

/-- **A new frame on top** refers to an object that is there; if it frees it, no other frame may refer
to it. -/
lemma push (h : Sound ref frees live stack) (hlive : ∀ p, ref f = some p → live p)
    (hfree : frees f → ∀ p, ref f = some p → ∀ g ∈ stack, ref g ≠ some p) :
    Sound ref frees live (f :: stack) := by
  refine ⟨fun g hg p hp => ?_, List.pairwise_cons.2 ⟨?_, h.apart⟩⟩
  · rcases List.mem_cons.1 hg with rfl | hg
    · exact hlive p hp
    · exact h.live g hg p hp
  · exact fun g hg hf p hp => hfree hf p hp g hg

lemma push_list (h : Sound ref frees live stack) {fs : List φ}
    (hlive : ∀ f ∈ fs, ∀ p, ref f = some p → live p) (hfree : ∀ f ∈ fs, ¬ frees f) :
    Sound ref frees live (fs ++ stack) := by
  induction fs with
  | nil => exact h
  | cons f fs ih =>
    have hrest := ih (fun g hg => hlive g (List.mem_cons_of_mem _ hg))
      fun g hg => hfree g (List.mem_cons_of_mem _ hg)
    exact hrest.push (hlive f (List.mem_cons_self ..))
      fun hf => absurd hf (hfree f (List.mem_cons_self ..))

lemma ne_of_mem (h : Sound ref frees live (f :: stack)) (hf : frees f) (hp : ref f = some p)
    (hg : g ∈ stack) : ref g ≠ some p :=
  List.rel_of_pairwise_cons h.apart hg hf p hp

/-- **A frame that frees an object goes on** as another frame for the same object. -/
lemma become (h : Sound ref frees live (f :: stack)) (hf : frees f) (hp : ref f = some p)
    (hg : ref g = some p) : Sound ref frees live (g :: stack) := by
  refine h.pop.push (fun q hq => ?_) fun _ q hq k hk => ?_
  · rw [hg] at hq
    exact h.live f (List.mem_cons_self ..) q (hp.trans hq)
  · rw [hg] at hq
    exact h.ne_of_mem hf (hp.trans hq) hk

/-- **An object is freed**: the frames that are left do not refer to it. -/
theorem free (h : Sound ref frees live (f :: stack)) (hf : frees f) (hp : ref f = some p) :
    Sound ref frees (fun q => live q ∧ q ≠ p) stack := by
  refine ⟨fun g hg q hq => ⟨h.pop.live g hg q hq, ?_⟩, h.pop.apart⟩
  rintro rfl
  exact h.ne_of_mem hf hp hg hq

end Sound

end Lifetimes
