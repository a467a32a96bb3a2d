import Mathlib.Data.Finset.Insert
import Mathlib.Data.List.Nodup
import Mathlib.Logic.Function.Basic
import Mathlib.Logic.Relation

/-!
# Custody of things that are handed out

An owner makes things, one after another, and keeps each in a place of its own. What is in a place is
destroyed, or handed out, or it goes away by itself. A thing that was handed out belongs to somebody
else, so that it may neither be handed out again nor destroyed.

## Main definitions

* `Custody` — what was made, where it is kept, and what was destroyed and handed out.
* `Custody.Step` — what the owner may do.
* `Custody.Sound`, `Custody.Fair` — what is kept was neither destroyed nor handed out; what was handed
  out was handed out once, and is not destroyed.

## Main results

* `Custody.Sound.steps`, `Custody.Fair.steps` — an owner that only does what it may stays fair.
* `Custody.fair_stray_iff` — to hand out what is kept nowhere is fair exactly if it is still there and
  was not handed out before.
-/

set_option autoImplicit false

/-- Things are numbers, in the order in which they are made; `κ` are the places. -/
structure Custody (κ : Type*) where
  made : ℕ
  /-- What is kept in a place. -/
  held : κ → Option ℕ
  destroyed : ℕ → Prop
  given : List ℕ

namespace Custody

variable {κ : Type*} {c c' : Custody κ}

/-- What is kept was made, is kept in one place and was neither destroyed nor handed out. -/
structure Sound (c : Custody κ) : Prop where
  held_lt : ∀ k p, c.held k = some p → p < c.made
  held_inj : ∀ k k' p, c.held k = some p → c.held k' = some p → k = k'
  held_kept : ∀ k p, c.held k = some p → ¬ c.destroyed p ∧ p ∉ c.given
  destroyed_lt : ∀ p, c.destroyed p → p < c.made
  given_lt : ∀ p ∈ c.given, p < c.made

/-- What was handed out was handed out once and is not destroyed. -/
def Fair (c : Custody κ) : Prop :=
  c.given.Nodup ∧ ∀ p ∈ c.given, ¬ c.destroyed p

/-- The thing is destroyed. -/
def destroy (c : Custody κ) (p : ℕ) : Custody κ :=
  { c with destroyed := fun q => q = p ∨ c.destroyed q }

/-- The thing is handed out. -/
def give (c : Custody κ) (p : ℕ) : Custody κ := { c with given := c.given ++ [p] }

/-! ## Things that are kept nowhere -/

lemma Sound.destroy (h : Sound c) {p : ℕ} (hlt : p < c.made) (hfree : ∀ k, c.held k ≠ some p) :
    Sound (c.destroy p) where
  held_lt := h.held_lt
  held_inj := h.held_inj
  held_kept := by
    intro k q hheld
    refine ⟨?_, (h.held_kept k q hheld).2⟩
    rintro (rfl | hdestroyed)
    · exact hfree k hheld
    · exact (h.held_kept k q hheld).1 hdestroyed
  destroyed_lt := by
    rintro q (rfl | hdestroyed)
    · exact hlt
    · exact h.destroyed_lt q hdestroyed
  given_lt := h.given_lt

lemma Sound.give (h : Sound c) {p : ℕ} (hlt : p < c.made) (hfree : ∀ k, c.held k ≠ some p) :
    Sound (c.give p) where
  held_lt := h.held_lt
  held_inj := h.held_inj
  held_kept := by
    intro k q hheld
    refine ⟨(h.held_kept k q hheld).1, ?_⟩
    simp only [Custody.give, List.mem_append, List.mem_singleton, not_or]
    exact ⟨(h.held_kept k q hheld).2, fun heq => hfree k (heq ▸ hheld)⟩
  destroyed_lt := h.destroyed_lt
  given_lt := by
    intro q hq
    rcases List.mem_append.1 hq with hgiven | hnew
    · exact h.given_lt q hgiven
    · rwa [List.mem_singleton.1 hnew]

lemma Sound.make (h : Sound c) : Sound { c with made := c.made + 1 } where
  held_lt k p hheld := (h.held_lt k p hheld).trans (Nat.lt_succ_self _)
  held_inj := h.held_inj
  held_kept := h.held_kept
  destroyed_lt p hdestroyed := (h.destroyed_lt p hdestroyed).trans (Nat.lt_succ_self _)
  given_lt p hgiven := (h.given_lt p hgiven).trans (Nat.lt_succ_self _)

lemma nodup_give (h : c.given.Nodup) {p : ℕ} (hp : p ∉ c.given) : (c.give p).given.Nodup := by
  refine List.nodup_append.2 ⟨h, List.nodup_singleton p, ?_⟩
  rintro q hq r hr rfl
  exact hp (List.mem_singleton.1 hr ▸ hq)

/-- **What is kept nowhere** is handed out fairly exactly if it is there and was not handed out. -/
theorem fair_stray_iff {p : ℕ} (h : Fair c) :
    Fair (c.give p) ↔ ¬ c.destroyed p ∧ p ∉ c.given := by
  constructor
  · rintro ⟨hnodup, hkept⟩
    refine ⟨hkept p (by simp [give]), fun hgiven => ?_⟩
    exact (List.nodup_append.1 hnodup).2.2 p hgiven p (by simp) rfl
  · rintro ⟨hthere, hnew⟩
    refine ⟨nodup_give h.1 hnew, fun q hq => ?_⟩
    rcases List.mem_append.1 hq with hgiven | hlast
    · exact h.2 q hgiven
    · rwa [List.mem_singleton.1 hlast]

lemma Fair.destroy (h : Fair c) {p : ℕ} (hp : p ∉ c.given) : Fair (c.destroy p) := by
  refine ⟨h.1, ?_⟩
  rintro q hq (rfl | hdestroyed)
  · exact hp hq
  · exact h.2 q hq hdestroyed

section
variable [DecidableEq κ]

/-! ## Places -/

/-- The place is emptied. -/
def empty (c : Custody κ) (k : κ) : Custody κ :=
  { c with held := Function.update c.held k none }

/-- What is in a place is destroyed. -/
def drop (c : Custody κ) (k : κ) : Custody κ :=
  match c.held k with
  | none => c.empty k
  | some p => (c.empty k).destroy p

/-- What the owner may do: to make a thing and to keep it in an empty place, to destroy it at once or
to hand it out at once; to destroy or to hand out what is in a place, or to leave it alone. -/
inductive Step : Custody κ → Custody κ → Prop
  | keep {c : Custody κ} {k : κ} (hempty : c.held k = none) :
      Step c { c with made := c.made + 1, held := Function.update c.held k (some c.made) }
  | discard {c : Custody κ} : Step c { c.destroy c.made with made := c.made + 1 }
  | deliver {c : Custody κ} : Step c { c.give c.made with made := c.made + 1 }
  | drop {c : Custody κ} {k : κ} {p : ℕ} (hheld : c.held k = some p) :
      Step c ((c.empty k).destroy p)
  | hand {c : Custody κ} {k : κ} {p : ℕ} (hheld : c.held k = some p) : Step c ((c.empty k).give p)
  | lose {c : Custody κ} {k : κ} : Step c (c.empty k)

/-! ## What the owner does keeps what is kept sound -/

lemma held_of_update {held : κ → Option ℕ} {k k' : κ} {o : Option ℕ} {p : ℕ}
    (h : Function.update held k o k' = some p) : k' = k ∧ o = some p ∨ k' ≠ k ∧ held k' = some p := by
  by_cases hk : k' = k
  · subst hk
    exact .inl ⟨rfl, by simpa using h⟩
  · exact .inr ⟨hk, by simpa [hk] using h⟩

lemma held_of_empty {k k' : κ} {p : ℕ} (h : (c.empty k).held k' = some p) :
    k' ≠ k ∧ c.held k' = some p := by
  rcases held_of_update h with ⟨-, hnone⟩ | hheld
  · cases hnone
  · exact hheld

lemma Sound.empty (h : Sound c) (k : κ) : Sound (c.empty k) where
  held_lt k' p hheld := h.held_lt k' p (held_of_empty hheld).2
  held_inj k₁ k₂ p h₁ h₂ := h.held_inj k₁ k₂ p (held_of_empty h₁).2 (held_of_empty h₂).2
  held_kept k' p hheld := h.held_kept k' p (held_of_empty hheld).2
  destroyed_lt := h.destroyed_lt
  given_lt := h.given_lt

lemma Sound.held_empty_ne (h : Sound c) {k : κ} {p : ℕ} (hheld : c.held k = some p) (k' : κ) :
    (c.empty k).held k' ≠ some p := by
  intro hother
  obtain ⟨hne, hother⟩ := held_of_empty hother
  exact hne (h.held_inj k' k p hother hheld)

theorem Sound.step (h : Sound c) (hstep : Step c c') : Sound c' := by
  cases hstep with
  | @keep k hempty =>
    have hnew : ∀ k' p, Function.update c.held k (some c.made) k' = some p →
        k' = k ∧ p = c.made ∨ c.held k' = some p := by
      intro k' p hheld
      rcases held_of_update hheld with ⟨hk, hp⟩ | ⟨-, hold⟩
      · exact .inl ⟨hk, (Option.some.inj hp).symm⟩
      · exact .inr hold
    refine ⟨?_, ?_, ?_, h.make.destroyed_lt, h.make.given_lt⟩
    · intro k' p hheld
      rcases hnew k' p hheld with ⟨-, rfl⟩ | hold
      · exact Nat.lt_succ_self _
      · exact h.make.held_lt k' p hold
    · intro k₁ k₂ p h₁ h₂
      rcases hnew k₁ p h₁ with ⟨hk₁, hp₁⟩ | hold₁ <;> rcases hnew k₂ p h₂ with ⟨hk₂, hp₂⟩ | hold₂
      · rw [hk₁, hk₂]
      · exact absurd hp₁ (h.held_lt k₂ p hold₂).ne
      · exact absurd hp₂ (h.held_lt k₁ p hold₁).ne
      · exact h.held_inj k₁ k₂ p hold₁ hold₂
    · intro k' p hheld
      rcases hnew k' p hheld with ⟨-, rfl⟩ | hold
      · exact ⟨fun hdestroyed => (h.destroyed_lt _ hdestroyed).ne rfl,
          fun hgiven => (h.given_lt _ hgiven).ne rfl⟩
      · exact h.held_kept k' p hold
  | discard =>
    exact h.make.destroy (Nat.lt_succ_self _) fun k hheld => (h.held_lt k _ hheld).ne rfl
  | deliver =>
    exact h.make.give (Nat.lt_succ_self _) fun k hheld => (h.held_lt k _ hheld).ne rfl
  | drop hheld => exact (h.empty _).destroy (h.held_lt _ _ hheld) (h.held_empty_ne hheld)
  | hand hheld => exact (h.empty _).give (h.held_lt _ _ hheld) (h.held_empty_ne hheld)
  | lose => exact h.empty _

/-- What was handed out was handed out once, even if it may be destroyed. -/
theorem Sound.nodup_step (h : Sound c) (hnodup : c.given.Nodup) (hstep : Step c c') :
    c'.given.Nodup := by
  cases hstep with
  | deliver => exact nodup_give hnodup fun hgiven => (h.given_lt _ hgiven).ne rfl
  | hand hheld => exact nodup_give hnodup (h.held_kept _ _ hheld).2
  | _ => exact hnodup

theorem Fair.step (h : Fair c) (hsound : Sound c) (hstep : Step c c') : Fair c' := by
  have hmade : c.made ∉ c.given := fun hgiven => (hsound.given_lt _ hgiven).ne rfl
  have hthere : ¬ c.destroyed c.made := fun hdestroyed => (hsound.destroyed_lt _ hdestroyed).ne rfl
  cases hstep with
  | keep => exact h
  | discard => exact h.destroy hmade
  | deliver => exact (fair_stray_iff h).2 ⟨hthere, hmade⟩
  | drop hheld => exact Fair.destroy h (hsound.held_kept _ _ hheld).2
  | hand hheld => exact (fair_stray_iff (c := c.empty _) h).2 (hsound.held_kept _ _ hheld)
  | lose => exact h

/-! ## Many steps -/

/-- The owner does one thing after another. -/
abbrev Steps : Custody κ → Custody κ → Prop := Relation.ReflTransGen Step

lemma steps_drop (c : Custody κ) (k : κ) : Steps c (c.drop k) := by
  unfold drop
  split
  · exact .single .lose
  · next hheld => exact .single (.drop hheld)

@[simp] lemma made_drop (c : Custody κ) (k : κ) : (c.drop k).made = c.made := by
  unfold drop
  split <;> rfl

@[simp] lemma held_drop (c : Custody κ) (k : κ) :
    (c.drop k).held = Function.update c.held k none := by
  unfold drop
  split <;> rfl

lemma drop_make (c : Custody κ) (k : κ) (n : ℕ) :
    drop { c with made := n } k = { c.drop k with made := n } := by
  unfold drop
  dsimp only
  split <;> rfl

theorem Sound.steps (h : Sound c) (hsteps : Steps c c') : Sound c' := by
  induction hsteps with
  | refl => exact h
  | tail _ hstep ih => exact ih.step hstep

theorem Sound.nodup_steps (h : Sound c) (hnodup : c.given.Nodup) (hsteps : Steps c c') :
    c'.given.Nodup := by
  induction hsteps with
  | refl => exact hnodup
  | tail hbefore hstep ih => exact (h.steps hbefore).nodup_step ih hstep

/-- **An owner that only does what it may stays fair.** -/
theorem Fair.steps (h : Fair c) (hsound : Sound c) (hsteps : Steps c c') : Fair c' := by
  induction hsteps with
  | refl => exact h
  | tail hbefore hstep ih => exact ih.step (hsound.steps hbefore) hstep

end

end Custody
