import Mathlib.Algebra.GroupWithZero.Nat
import Mathlib.Data.List.TakeWhile
import Mathlib.Data.Vector.Basic
import Mathlib.Tactic.Common

/-!
# IPv4 addresses and their text form

The address type of the compact encoding (`compact.hpp`, `compact.cpp`): four octets and a
port, its dotted text, and the parser of that text. Texts are lists of characters.

## Main definitions

* `Compact.Ipv4Address` — an address, with `hostString` and `fromString`.
* `Compact.Ipv4Address.hostPort` — the text `host:port` under which the program files an
  address in its maps and sets.

## Main results

* `Compact.Ipv4Address.fromString_port` — the parser returns the port it was given, or port
  zero when it rejects the text.
* `Compact.Ipv4Address.fromString_hostString` — an address is read back from its text.
-/

set_option autoImplicit false

namespace HyperDHT.Compact

/-- An IPv4 address: four octets in network order and a port. -/
structure Ipv4Address where
  /-- The octets. -/
  host : List.Vector UInt8 4
  /-- The port. -/
  port : UInt16
  deriving DecidableEq

/-- The address with these octets and this port. -/
abbrev Ipv4Address.ofOctets (a b c d : UInt8) (port : UInt16) : Ipv4Address :=
  ⟨⟨[a, b, c, d], rfl⟩, port⟩

instance neZero_four : NeZero 4 := ⟨by decide⟩

/-- The decimal text of a number, as `std::to_chars` and `std::to_string` write it. -/
def toChars (n : ℕ) : List Char := Nat.toDigits 10 n

/-- `std::from_chars` for an `unsigned int`: the number written by the leading digits, and
nothing when there is no digit or the number does not fit 32 bits. Characters after the
digits are not looked at. -/
def fromChars (s : List Char) : Option ℕ :=
  let digits := s.takeWhile Char.isDigit
  if digits.isEmpty then none
  else
    let v := Nat.ofDigitChars 10 digits 0
    if v < 2 ^ 32 then some v else none

namespace Ipv4Address

def zero : Ipv4Address := ⟨List.Vector.replicate 4 0, 0⟩

/-- The dotted text of the octets. -/
def hostString (a : Ipv4Address) : List Char :=
  List.intercalate ['.'] (a.host.toList.map fun b => toChars b.toNat)

/-- The text `host:port`, the key of an address in the maps and sets of the program. -/
def hostPort (a : Ipv4Address) : List Char :=
  a.hostString ++ ':' :: toChars a.port.toNat

/-- The characters before the first dot, and those after it if there is one. -/
def splitDot : List Char → List Char × Option (List Char)
  | [] => ([], none)
  | c :: cs => if c = '.' then ([], some cs) else ((c :: (splitDot cs).1), (splitDot cs).2)

/-- The octet loop of the parser, with `n` octets left to read. The text is `none` once the
position has passed its end; the octets not read keep their initial zero. -/
def fromStringLoop : (n : ℕ) → Option (List Char) → Option (List.Vector UInt8 n)
  | 0, _ => some List.Vector.nil
  | n + 1, none => some (List.Vector.replicate (n + 1) 0)
  | n + 1, some text =>
    match fromChars (splitDot text).1 with
    | none => none
    | some octet =>
      if octet > 255 then none
      else (fromStringLoop n (splitDot text).2).map fun rest =>
        List.Vector.cons (UInt8.ofNat octet) rest

/-- Parse a dotted text; the zeroed address on a parse error. -/
def fromString (text : List Char) (port : UInt16) : Ipv4Address :=
  match fromStringLoop 4 (some text) with
  | none => zero
  | some host => ⟨host, port⟩

lemma fromString_port (text : List Char) (port : UInt16) :
    (fromString text port).port = port ∨ (fromString text port).port = 0 := by
  unfold fromString
  cases fromStringLoop 4 (some text) with
  | none => exact Or.inr rfl
  | some host => exact Or.inl rfl

/-! ### Reading an address back -/

lemma fromChars_toChars (b : UInt8) : fromChars (toChars b.toNat) = some b.toNat := by
  have hdigits : (toChars b.toNat).takeWhile Char.isDigit = toChars b.toNat :=
    List.takeWhile_eq_self_iff.2 fun c hc =>
      Nat.isDigit_of_mem_toDigits (by decide) (by decide) hc
  have hne : toChars b.toNat ≠ [] := Nat.toDigits_ne_nil
  have hlt : b.toNat < 2 ^ 32 := lt_trans b.toNat_lt (by decide)
  have hvalue : Nat.ofDigitChars 10 (toChars b.toNat) 0 = b.toNat := Nat.ofDigitChars_ten_toDigits
  simpa [fromChars, hdigits, hne, hvalue] using hlt

lemma splitDot_toChars (n : ℕ) (rest : Option (List Char)) :
    splitDot (toChars n ++ (rest.elim [] ('.' :: ·))) = (toChars n, rest) := by
  have hdigit : ∀ c ∈ toChars n, c ≠ '.' := by
    intro c hc hdot
    have := Nat.isDigit_of_mem_toDigits (by decide) (by decide) hc
    simp [hdot, Char.isDigit] at this
  revert hdigit
  generalize toChars n = cs
  induction cs with
  | nil =>
    intro _
    cases rest with
    | none => rfl
    | some rest => simp [splitDot]
  | cons c cs ih =>
    intro hdigit
    have hc : c ≠ '.' := hdigit c List.mem_cons_self
    have hrest := ih fun c' hc' => hdigit c' (List.mem_cons_of_mem c hc')
    simp [splitDot, hc, hrest]

lemma fromStringLoop_toChars {n : ℕ} (octets : List.Vector UInt8 n) (hn : n ≠ 0) :
    fromStringLoop n (some (List.intercalate ['.'] (octets.toList.map fun b => toChars b.toNat))) =
      some octets := by
  induction n with
  | zero => exact absurd rfl hn
  | succ n ih =>
    obtain ⟨b, octets, rfl⟩ := octets.exists_eq_cons
    have hb : b.toNat ≤ 255 := Nat.le_of_lt_succ b.toNat_lt
    have hcast : UInt8.ofNat b.toNat = b := by simp
    cases n with
    | zero =>
      have hsplit := splitDot_toChars b.toNat none
      simp only [Option.elim_none, List.append_nil] at hsplit
      have hnil : octets = List.Vector.nil := List.Vector.eq_nil octets
      simp [fromStringLoop, hnil, hsplit, fromChars_toChars, not_lt.2 hb]
    | succ n =>
      have hrest := ih octets (Nat.succ_ne_zero n)
      obtain ⟨c, tail, rfl⟩ := octets.exists_eq_cons
      have hsplit := splitDot_toChars b.toNat (some (List.intercalate ['.']
        ((c ::ᵥ tail).toList.map fun b => toChars b.toNat)))
      have htext : List.intercalate ['.'] ((b ::ᵥ c ::ᵥ tail).toList.map fun b => toChars b.toNat) =
          toChars b.toNat ++ '.' :: List.intercalate ['.']
            ((c ::ᵥ tail).toList.map fun b => toChars b.toNat) := by
        simp [List.intercalate]
      simp only [Option.elim_some] at hsplit
      rw [htext, fromStringLoop, hsplit, fromChars_toChars]
      simp only [gt_iff_lt, not_lt.2 hb, if_false, hrest, hcast, Option.map_some]

/-- **An address is read back** from the text of its host. -/
theorem fromString_hostString (a : Ipv4Address) : fromString a.hostString a.port = a := by
  rw [fromString, hostString, fromStringLoop_toChars a.host (by decide)]

lemma hostString_and_port_eq_iff {a b : Ipv4Address} :
    a.hostString = b.hostString ∧ a.port = b.port ↔ a = b := by
  constructor
  · rintro ⟨hhost, hport⟩
    rw [← fromString_hostString a, hhost, hport, fromString_hostString]
  · rintro rfl
    exact ⟨rfl, rfl⟩

end Ipv4Address

end HyperDHT.Compact
