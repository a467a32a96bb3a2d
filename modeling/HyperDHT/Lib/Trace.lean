import Mathlib.Data.List.Induction
import Mathlib.Tactic.Common

/-!
# Laws of a trace

A trace is the list of what happened, the oldest event first. A law says of each event what may
have happened before it; a trace is lawful if every event of it meets the law with the events
before it as its history. Laws are checked one event at a time, as the trace grows.

## Main definitions

* `Trace.Always` — every event of a trace meets a law with its history.

## Main results

* `Trace.always_concat` — a trace with one more event is lawful if it was and the new event meets
  the law with the whole trace as its history.
* `Trace.always_append` — the same for some more events.
* `Trace.Always.countP_le` — a law that admits an event of a kind only while there were fewer than
  `n` of them bounds their number.
* `Trace.Always.not_mem_after` — a law that excludes an event once another one happened keeps it
  out of the rest of the trace.
-/

set_option autoImplicit false

namespace Trace

variable {ε : Type*}

/-- Every event of the trace meets the law with the events before it as its history. -/
def Always (law : List ε → ε → Prop) (trace : List ε) : Prop :=
  ∀ history e rest, trace = history ++ e :: rest → law history e

lemma always_nil (law : List ε → ε → Prop) : Always law [] := by
  intro history e rest h
  simp at h

/-- **One more event**: the law has to be checked for the new event only. -/
theorem always_concat {law : List ε → ε → Prop} {trace : List ε} {e : ε} :
    Always law (trace ++ [e]) ↔ Always law trace ∧ law trace e := by
  constructor
  · intro h
    refine ⟨fun history e' rest htrace => ?_, h trace e [] rfl⟩
    exact h history e' (rest ++ [e]) (by simp [htrace])
  · rintro ⟨hold, hnew⟩ history e' rest htrace
    -- the event is the last one exactly when nothing follows it
    rcases List.eq_nil_or_concat rest with rfl | ⟨rest, last, rfl⟩
    · obtain ⟨rfl, hlast⟩ := List.append_inj' htrace rfl
      obtain rfl : e = e' := by simpa using hlast
      exact hnew
    · have hsplit : trace ++ [e] = (history ++ e' :: rest) ++ [last] := by simpa using htrace
      exact hold history e' rest (List.append_inj' hsplit rfl).1

/-- A trace is lawful if its first part is, and the events of the second part are after the first one. -/
theorem always_append {law : List ε → ε → Prop} {trace events : List ε} :
    Always law (trace ++ events) ↔
      Always law trace ∧ Always (fun history e => law (trace ++ history) e) events := by
  induction events using List.reverseRecOn with
  | nil => simp [always_nil]
  | append_singleton events e ih =>
    rw [← List.append_assoc, always_concat, always_concat, ih, and_assoc]

/-- **Bounded events**: if the law admits an event of a kind only with fewer than `n` of them
before it, a lawful trace has at most `n` of them. -/
theorem Always.countP_le {law : List ε → ε → Prop} {kind : ε → Bool} {n : ℕ}
    (hlaw : ∀ history e, law history e → kind e = true → history.countP kind < n)
    {trace : List ε} (h : Always law trace) : trace.countP kind ≤ n := by
  induction trace using List.reverseRecOn with
  | nil => simp
  | append_singleton trace e ih =>
    obtain ⟨hold, hnew⟩ := always_concat.1 h
    rw [List.countP_append, List.countP_singleton]
    cases hkind : kind e with
    | true =>
      have := hlaw trace e hnew hkind
      simp only [if_true]
      omega
    | false => simpa using ih hold

/-- **Excluded events**: if the law excludes `e` from then on once `mark` is in the history, no `e`
follows `mark` in a lawful trace. -/
theorem Always.not_mem_after {law : List ε → ε → Prop} {mark e : ε}
    (hlaw : ∀ history, law history e → mark ∉ history) {before after : List ε}
    (h : Always law (before ++ mark :: after)) : e ∉ after := by
  intro he
  obtain ⟨mid, rest, rfl⟩ := List.append_of_mem he
  exact hlaw (before ++ mark :: mid) (h _ e rest (by simp)) (by simp)

end Trace
