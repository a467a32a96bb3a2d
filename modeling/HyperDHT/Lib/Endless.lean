import HyperDHT.Lib.Runs
import Mathlib.Order.OrderIsoNat

/-!
# Runs without end

The environment of a machine never stops, so its inputs are a sequence. What must happen in such a run is
shown by a rank: it falls with every step that does not stall, so if only finitely many of them do, the run
comes to what it must come to.

## Main definitions

* `Runs.after` — the state after the first `n` inputs of a sequence.

## Main results

* `Runs.after_invariant` — the invariant rule.
* `Runs.exists_after_of_rank` — the ranking rule.
-/

set_option autoImplicit false

namespace Runs

variable {σ ι : Type*} (step : σ → ι → σ)

/-- The state that is reached from `s` by the first inputs of the sequence. -/
def after (s : σ) (is : ℕ → ι) : ℕ → σ
  | 0 => s
  | n + 1 => step (after s is n) (is n)

@[simp] lemma after_zero (s : σ) (is : ℕ → ι) : after step s is 0 = s := rfl

lemma after_succ (s : σ) (is : ℕ → ι) (n : ℕ) :
    after step s is (n + 1) = step (after step s is n) (is n) := rfl

variable {step}

/-- **The invariant rule**: what every step keeps holds from then on. -/
theorem after_invariant {P : σ → Prop} (hstep : ∀ s i, P s → P (step s i)) {s : σ} {is : ℕ → ι} {m n : ℕ}
    (hle : m ≤ n) (h : P (after step s is m)) : P (after step s is n) := by
  induction n, hle using Nat.le_induction with
  | base => exact h
  | succ n _ ih => exact hstep _ _ ih

/-- **The ranking rule**: if in every state without `P` the next step leads to one of a smaller rank, to one
with `P`, or stalls, and only finitely many steps stall, then some state has `P`. -/
theorem exists_after_of_rank {P : σ → Prop} {Stalls : σ → ι → Prop} (rank : σ → ℕ) {s : σ} {is : ℕ → ι}
    (hstep : ∀ n, ¬ P (after step s is n) → P (after step s is (n + 1)) ∨
      rank (after step s is (n + 1)) < rank (after step s is n) ∨ Stalls (after step s is n) (is n))
    (hstalls : ∃ m, ∀ n ≥ m, ¬ Stalls (after step s is n) (is n)) :
    ∃ n, P (after step s is n) := by
  obtain ⟨m, hm⟩ := hstalls
  by_contra hnever
  have hfalls : StrictAnti fun k => rank (after step s is (m + k)) := by
    refine strictAnti_nat_of_succ_lt fun k => ?_
    rcases hstep (m + k) fun h => hnever ⟨_, h⟩ with h | hlt | hstall
    · exact absurd ⟨_, h⟩ hnever
    · exact hlt
    · exact absurd hstall (hm _ (Nat.le_add_right m k))
  exact not_strictAnti_of_wellFoundedLT _ hfalls

end Runs
