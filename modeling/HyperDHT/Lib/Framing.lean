import Mathlib.Data.List.Basic
import Mathlib.Data.Nat.Init
import Mathlib.Tactic.Common

/-!
# Framed byte streams

A stream is cut into frames by a function `next` that takes the first frame off a buffer, or says
that no whole frame is there yet. An encoder writes a frame so that `next` takes exactly it off
again.

## Main definitions

* `Framing.Codec` — an encoder of the valid frames and a `next` that inverts it.
* `Framing.split` — the frames of a buffer, and what remains behind them.

## Main results

* `Framing.Codec.split_append` — what comes later is split behind the rest of what came before:
  how a stream is cut into chunks does not matter.
* `Framing.Codec.split_flatten` — encoded frames are split into the same frames.
* `Framing.Codec.split_isPrefix` — a first part of encoded frames is split into a first part of
  the frames, and the rest is a first part of the other ones.
-/

set_option autoImplicit false

namespace Framing

variable {α β : Type*}

/-- `next` takes a frame off a buffer exactly if the buffer begins with the encoding of a valid
frame. -/
structure Codec (next : List α → Option (β × List α)) (encode : β → List α)
    (Valid : β → Prop) : Prop where
  exact : ∀ {bytes b rest}, next bytes = some (b, rest) → Valid b ∧ bytes = encode b ++ rest
  accept : ∀ {b}, Valid b → ∀ rest, next (encode b ++ rest) = some (b, rest)
  nonempty : ∀ {b}, Valid b → encode b ≠ []

section Split

variable (next : List α → Option (β × List α))

/-- Take at most `n` frames off a buffer. -/
def splitN : ℕ → List α → List β × List α
  | 0, bytes => ([], bytes)
  | n + 1, bytes =>
    match next bytes with
    | none => ([], bytes)
    | some (b, rest) => (b :: (splitN n rest).1, (splitN n rest).2)

/-- The frames of a buffer, and what remains behind them. A frame is never empty, so that there
are at most as many frames as bytes. -/
def split (bytes : List α) : List β × List α := splitN next bytes.length bytes

end Split

namespace Codec

variable {next : List α → Option (β × List α)} {encode : β → List α} {Valid : β → Prop}
  (h : Codec next encode Valid)

include h

lemma next_nil : next [] = none := by
  cases hnext : next [] with
  | none => rfl
  | some r =>
    obtain ⟨b, rest⟩ := r
    obtain ⟨hvalid, hbytes⟩ := h.exact hnext
    exact absurd (List.append_eq_nil_iff.1 hbytes.symm).1 (h.nonempty hvalid)

lemma next_append {bytes rest : List α} {b : β} (hnext : next bytes = some (b, rest))
    (more : List α) : next (bytes ++ more) = some (b, rest ++ more) := by
  obtain ⟨hvalid, rfl⟩ := h.exact hnext
  rw [List.append_assoc]
  exact h.accept hvalid _

lemma length_lt {bytes rest : List α} {b : β} (hnext : next bytes = some (b, rest)) :
    rest.length < bytes.length := by
  obtain ⟨hvalid, rfl⟩ := h.exact hnext
  have hpos : 0 < (encode b).length := List.length_pos_iff.2 (h.nonempty hvalid)
  rw [List.length_append]
  omega

lemma splitN_eq {m n : ℕ} {bytes : List α} (hm : bytes.length ≤ m) (hn : bytes.length ≤ n) :
    splitN next m bytes = splitN next n bytes := by
  induction m generalizing n bytes with
  | zero =>
    obtain rfl : bytes = [] := List.length_eq_zero_iff.1 (by omega)
    cases n with
    | zero => rfl
    | succ n => simp [splitN, h.next_nil]
  | succ m ih =>
    cases n with
    | zero =>
      obtain rfl : bytes = [] := List.length_eq_zero_iff.1 (by omega)
      simp [splitN, h.next_nil]
    | succ n =>
      rw [splitN, splitN]
      cases hnext : next bytes with
      | none => rfl
      | some r =>
        obtain ⟨b, rest⟩ := r
        have hlt := h.length_lt hnext
        have hrest : splitN next m rest = splitN next n rest := ih (by omega) (by omega)
        simp only [hrest]

lemma split_none {bytes : List α} (hnext : next bytes = none) :
    split next bytes = ([], bytes) := by
  rw [split, h.splitN_eq (n := bytes.length + 1) (Nat.le_refl _) (by omega), splitN, hnext]

lemma split_some {bytes rest : List α} {b : β} (hnext : next bytes = some (b, rest)) :
    split next bytes = (b :: (split next rest).1, (split next rest).2) := by
  have hlt := h.length_lt hnext
  rw [split, h.splitN_eq (n := bytes.length + 1) (Nat.le_refl _) (by omega), splitN, hnext]
  simp only [split, h.splitN_eq (m := bytes.length) (n := rest.length) (by omega) (Nat.le_refl _)]

/-- The frames and the rest make up the buffer. -/
theorem split_exact (bytes : List α) :
    (∀ b ∈ (split next bytes).1, Valid b) ∧ next (split next bytes).2 = none ∧
      bytes = ((split next bytes).1.map encode).flatten ++ (split next bytes).2 := by
  induction hn : bytes.length using Nat.strongRecOn generalizing bytes with
  | _ n ih =>
    cases hnext : next bytes with
    | none => simpa [h.split_none hnext] using hnext
    | some r =>
      obtain ⟨b, rest⟩ := r
      obtain ⟨hvalid, hbytes⟩ := h.exact hnext
      obtain ⟨hall, hlast, hrest⟩ := ih rest.length (hn ▸ h.length_lt hnext) rest rfl
      rw [h.split_some hnext]
      refine ⟨by simpa using ⟨hvalid, hall⟩, hlast, ?_⟩
      rw [List.map_cons, List.flatten_cons, List.append_assoc, ← hrest]
      exact hbytes

/-- **Chunks**: what comes later is split behind the rest of what came before. -/
theorem split_append (xs ys : List α) :
    split next (xs ++ ys) =
      ((split next xs).1 ++ (split next ((split next xs).2 ++ ys)).1,
        (split next ((split next xs).2 ++ ys)).2) := by
  induction hn : xs.length using Nat.strongRecOn generalizing xs with
  | _ n ih =>
    cases hnext : next xs with
    | none => simp [h.split_none hnext]
    | some r =>
      obtain ⟨b, rest⟩ := r
      rw [h.split_some (h.next_append hnext ys), h.split_some hnext,
        ih rest.length (hn ▸ h.length_lt hnext) rest rfl]
      rfl

/-- Encoded frames are split into the same frames. -/
theorem split_flatten {bs : List β} (hbs : ∀ b ∈ bs, Valid b) (rest : List α) :
    split next ((bs.map encode).flatten ++ rest) =
      (bs ++ (split next rest).1, (split next rest).2) := by
  induction bs with
  | nil => rfl
  | cons b bs ih =>
    have hfirst : next (((b :: bs).map encode).flatten ++ rest) =
        some (b, (bs.map encode).flatten ++ rest) := by
      rw [List.map_cons, List.flatten_cons, List.append_assoc]
      exact h.accept (hbs b (by simp)) _
    rw [h.split_some hfirst, ih fun b hb => hbs b (by simp [hb])]
    rfl

/-- **A first part of encoded frames** is split into a first part of the frames, and the rest is a
first part of the encoding of the other ones. -/
theorem split_isPrefix {bs : List β} (hbs : ∀ b ∈ bs, Valid b) {bytes more : List α}
    (hbytes : bytes ++ more = (bs.map encode).flatten) :
    ∃ later, bs = (split next bytes).1 ++ later ∧
      (split next bytes).2 ++ more = (later.map encode).flatten := by
  have hsplit := h.split_append bytes more
  have hwhole := h.split_flatten hbs []
  have hnil : split next ([] : List α) = ([], []) := h.split_none h.next_nil
  rw [List.append_nil, hnil, List.append_nil, ← hbytes, hsplit, Prod.mk.injEq] at hwhole
  obtain ⟨hlater, hrest⟩ := hwhole
  refine ⟨_, hlater.symm, ?_⟩
  obtain ⟨-, -, hexact⟩ := h.split_exact ((split next bytes).2 ++ more)
  rw [hrest, List.append_nil] at hexact
  exact hexact

end Codec

end Framing
