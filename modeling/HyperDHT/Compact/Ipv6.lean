import HyperDHT.Compact.Codec

/-!
# IPv6 addresses and their text form

The text of an IPv6 address is its eight groups in hexadecimal, without leading zeros and without `::`; the parser
also takes texts in which `::` stands for groups of zeros. Texts are lists of characters.

## Main definitions

* `Compact.Ipv6Address.hostString`, `Compact.Ipv6Address.fromString` — the text of an address, and the parser.
* `Compact.colonParts`, `splitDoubleColon`, `parseGroups` — the loops of the parser.

## Main results

* `Compact.Ipv6Address.fromString_hostString` — an address is read back from its text.
* `Compact.addressesReadBack` — the texts of both kinds of addresses, and the texts `host:port`, tell them apart.
-/

set_option autoImplicit false

namespace HyperDHT.Compact

/-! ## Groups -/

/-- The table `hex_chars`. -/
def hexChars : List Char :=
  ['0', '1', '2', '3', '4', '5', '6', '7', '8', '9', 'a', 'b', 'c', 'd', 'e', 'f']

/-- The digits of a group, the lowest one first, as the loop puts them into its buffer; four rounds are enough. -/
def nibbles : ℕ → UInt16 → List Char
  | 0, _ => []
  | n + 1, v => if v > 0 then hexChars.getD (v &&& 0xF).toNat '0' :: nibbles n (v >>> 4) else []

/-- The text of a group, without leading zeros. -/
def groupText (v : UInt16) : List Char := if v = 0 then ['0'] else (nibbles 4 v).reverse

/-- The value of a hexadecimal digit. -/
def hexValue (c : Char) : Option UInt16 :=
  if '0' ≤ c ∧ c ≤ '9' then some (UInt16.ofNat (c.toNat - '0'.toNat))
  else if 'a' ≤ c ∧ c ≤ 'f' then some (UInt16.ofNat (c.toNat - 'a'.toNat + 10))
  else if 'A' ≤ c ∧ c ≤ 'F' then some (UInt16.ofNat (c.toNat - 'A'.toNat + 10))
  else none

/-- The loop over the characters of a group: `none` at a character that is no digit. The value wraps around. -/
def parseGroupLoop (val : UInt16) : List Char → Option UInt16
  | [] => some val
  | c :: cs =>
    match hexValue c with
    | none => none
    | some digit => parseGroupLoop (val * 16 + digit) cs

/-- The value of a group. -/
def parseGroup (text : List Char) : Option UInt16 := parseGroupLoop 0 text

/-! ## The parser -/

/-- The pieces between the colons, as the outer loop finds them: it ends at the end of the text, so that a colon
there has no piece after it. -/
def colonParts : List Char → List (List Char)
  | [] => []
  | c :: cs =>
    if c = ':' then [] :: colonParts cs
    else
      match colonParts cs with
      | [] => [[c]]
      | part :: parts => (c :: part) :: parts

/-- What is before the first `::` and after it. -/
def splitDoubleColon : List Char → Option (List Char × List Char)
  | [] => none
  | c :: cs =>
    if c = ':' ∧ cs.head? = some ':' then some ([], cs.tail)
    else (splitDoubleColon cs).map fun halves => (c :: halves.1, halves.2)

/-- `parse_groups`. -/
def parseGroups (text : List Char) : Option (List UInt16) := (colonParts text).mapM parseGroup

/-- The octets of the first eight groups. -/
def hostOfGroups (groups : List UInt16) : List.Vector UInt8 16 :=
  List.Vector.ofFn fun i =>
    let group := groups.getD (i / 2) 0
    if i.val % 2 = 0 then (group >>> 8).toUInt8 else (group &&& 0xFF).toUInt8

namespace Ipv6Address

/-- The group of two octets. -/
def group (a : Ipv6Address) (g : ℕ) : UInt16 :=
  (a.host.toList.getD (g * 2) 0).toUInt16 <<< 8 ||| (a.host.toList.getD (g * 2 + 1) 0).toUInt16

/-- The text of the groups. -/
def hostString (a : Ipv6Address) : List Char :=
  List.intercalate [':'] ((List.range 8).map fun g => groupText (a.group g))

/-- Parse a text. Where a group is not hexadecimal the octets are zero. -/
def fromString (text : List Char) (port : UInt16) : Ipv6Address :=
  match splitDoubleColon text with
  | some (before, after) =>
    match parseGroups before, parseGroups after with
    | some beforeGroups, some afterGroups =>
      let missing := 8 - (beforeGroups.length + afterGroups.length)
      ⟨hostOfGroups (beforeGroups ++ List.replicate missing 0 ++ afterGroups), port⟩
    | _, _ => { zero with port }
  | none =>
    match parseGroups text with
    | some groups => ⟨hostOfGroups groups, port⟩
    | none => { zero with port }

end Ipv6Address

/-! ## Reading a group back -/

lemma hexValue_hexChar : ∀ d : Fin 16, hexValue (hexChars.getD d.val '0') = some (UInt16.ofNat d.val) := by
  decide

lemma parseGroupLoop_append (val : UInt16) (text more : List Char) :
    parseGroupLoop val (text ++ more) = (parseGroupLoop val text).bind fun v => parseGroupLoop v more := by
  induction text generalizing val with
  | nil => rfl
  | cons c cs ih =>
    rw [List.cons_append, parseGroupLoop, parseGroupLoop]
    cases hexValue c with
    | none => rfl
    | some digit => exact ih _

lemma parseGroup_nibbles {n : ℕ} {v : UInt16} (h : v.toNat < 16 ^ n) :
    parseGroup (nibbles n v).reverse = some v := by
  induction n generalizing v with
  | zero =>
    have hzero : v = 0 := UInt16.toNat_inj.1 (by simpa using h)
    rw [hzero]
    rfl
  | succ n ih =>
    rw [nibbles]
    split
    · have hlow : (v &&& 0xF).toNat = v.toNat % 16 := by
        rw [UInt16.toNat_and]
        exact Nat.and_two_pow_sub_one_eq_mod v.toNat 4
      have hhigh : (v >>> 4).toNat = v.toNat / 16 := by
        simp [Nat.shiftRight_eq_div_pow]
      have hrest := @ih (v >>> 4) (by rw [hhigh]; omega)
      have hdigit := hexValue_hexChar ⟨v.toNat % 16, by omega⟩
      rw [parseGroup] at hrest
      rw [List.reverse_cons, parseGroup, parseGroupLoop_append, hrest, Option.bind_some, parseGroupLoop, hlow]
      simp only [hdigit, parseGroupLoop]
      refine congrArg some (UInt16.toNat_inj.1 ?_)
      have hlt := v.toNat_lt
      rw [UInt16.toNat_add, UInt16.toNat_mul, hhigh, UInt16.toNat_ofNat']
      simp
      omega
    next hpos =>
      have hzero : v = 0 := by simpa using hpos
      rw [hzero]
      rfl

/-- **A group is read back.** -/
lemma parseGroup_groupText (v : UInt16) : parseGroup (groupText v) = some v := by
  rw [groupText]
  split
  next hzero =>
    rw [hzero]
    rfl
  · exact parseGroup_nibbles v.toNat_lt

/-! ## The pieces of a text -/

lemma groupText_ne_nil (v : UInt16) : groupText v ≠ [] := by
  rw [groupText]
  split
  · simp
  next hzero =>
    have hpos : v > 0 := UInt16.pos_iff_ne_zero.2 hzero
    simp [nibbles, hpos]

lemma colon_notMem_nibbles (n : ℕ) (v : UInt16) : ':' ∉ nibbles n v := by
  have hchars : ∀ d : Fin 16, ':' ≠ hexChars.getD d.val '0' := by decide
  induction n generalizing v with
  | zero => simp [nibbles]
  | succ n ih =>
    rw [nibbles]
    split
    · have hlow : (v &&& 0xF).toNat < 16 := by
        rw [UInt16.toNat_and]
        exact Nat.and_lt_two_pow _ (by decide : (0xF : UInt16).toNat < 2 ^ 4)
      rw [List.mem_cons, not_or]
      exact ⟨hchars ⟨_, hlow⟩, ih _⟩
    · simp

lemma colon_notMem_groupText (v : UInt16) : ':' ∉ groupText v := by
  rw [groupText]
  split
  · simp
  · simpa using colon_notMem_nibbles 4 v

lemma colonParts_of_notMem {piece : List Char} (h : ':' ∉ piece) (hne : piece ≠ []) :
    colonParts piece = [piece] := by
  induction piece with
  | nil => exact absurd rfl hne
  | cons c cs ih =>
    rw [List.mem_cons, not_or] at h
    rw [colonParts, if_neg (Ne.symm h.1)]
    cases cs with
    | nil => rfl
    | cons c' rest => rw [ih h.2 (List.cons_ne_nil _ _)]

lemma colonParts_append {piece : List Char} (h : ':' ∉ piece) (rest : List Char) :
    colonParts (piece ++ ':' :: rest) = piece :: colonParts rest := by
  induction piece with
  | nil => simp [colonParts]
  | cons c cs ih =>
    rw [List.mem_cons, not_or] at h
    rw [List.cons_append, colonParts, if_neg (Ne.symm h.1), ih h.2]

/-- **The pieces of a text**, each of which is there. -/
lemma colonParts_intercalate {pieces : List (List Char)} (hcolon : ∀ p ∈ pieces, ':' ∉ p)
    (hne : ∀ p ∈ pieces, p ≠ []) : colonParts (List.intercalate [':'] pieces) = pieces := by
  induction pieces with
  | nil => rfl
  | cons p ps ih =>
    rw [List.forall_mem_cons] at hcolon hne
    cases ps with
    | nil => rw [List.intercalate_singleton, colonParts_of_notMem hcolon.1 hne.1]
    | cons q qs =>
      rw [List.intercalate_cons_cons, List.append_assoc, List.singleton_append, colonParts_append hcolon.1,
        ih hcolon.2 hne.2]

lemma splitDoubleColon_append {piece : List Char} (h : ':' ∉ piece) (rest : List Char) :
    splitDoubleColon (piece ++ rest) =
      (splitDoubleColon rest).map fun halves => (piece ++ halves.1, halves.2) := by
  induction piece with
  | nil => simp
  | cons c cs ih =>
    rw [List.mem_cons, not_or] at h
    rw [List.cons_append, splitDoubleColon, if_neg fun hc => h.1 hc.1.symm, ih h.2, Option.map_map]
    rfl

lemma splitDoubleColon_colon {rest : List Char} (h : rest.head? ≠ some ':') :
    splitDoubleColon (':' :: rest) =
      (splitDoubleColon rest).map fun halves => (':' :: halves.1, halves.2) := by
  rw [splitDoubleColon, if_neg fun hc => h hc.2]

lemma head?_ne_of_notMem {piece : List Char} (h : ':' ∉ piece) (hne : piece ≠ []) (rest : List Char) :
    (piece ++ rest).head? ≠ some ':' := by
  cases piece with
  | nil => exact absurd rfl hne
  | cons c cs =>
    rw [List.mem_cons, not_or] at h
    simpa using Ne.symm h.1

/-- **Between pieces there is one colon**: the first `::` is the first one after the pieces. -/
lemma splitDoubleColon_intercalate {pieces : List (List Char)} (hcolon : ∀ p ∈ pieces, ':' ∉ p)
    (hne : ∀ p ∈ pieces, p ≠ []) (rest : List Char) :
    splitDoubleColon (List.intercalate [':'] pieces ++ rest) =
      (splitDoubleColon rest).map fun halves => (List.intercalate [':'] pieces ++ halves.1, halves.2) := by
  induction pieces with
  | nil => simp
  | cons p ps ih =>
    rw [List.forall_mem_cons] at hcolon hne
    cases ps with
    | nil => rw [List.intercalate_singleton, splitDoubleColon_append hcolon.1]
    | cons q qs =>
      have hq := List.forall_mem_cons.1 hcolon.2
      have hq' := List.forall_mem_cons.1 hne.2
      have hhead : (List.intercalate [':'] (q :: qs) ++ rest).head? ≠ some ':' := by
        cases qs with
        | nil =>
          rw [List.intercalate_singleton]
          exact head?_ne_of_notMem hq.1 hq'.1 rest
        | cons r rs =>
          rw [List.intercalate_cons_cons, List.append_assoc, List.append_assoc]
          exact head?_ne_of_notMem hq.1 hq'.1 _
      rw [List.intercalate_cons_cons, List.append_assoc, List.append_assoc, List.singleton_append,
        splitDoubleColon_append hcolon.1, splitDoubleColon_colon hhead, ih hcolon.2 hne.2, Option.map_map,
        Option.map_map]
      refine congrArg (Option.map · _) (funext fun halves => ?_)
      simp

/-! ## Reading an address back -/

namespace Ipv6Address

/-- The groups of an address. -/
def groups (a : Ipv6Address) : List UInt16 := (List.range 8).map a.group

lemma hostString_eq (a : Ipv6Address) :
    a.hostString = List.intercalate [':'] (a.groups.map groupText) := by
  rw [groups, List.map_map]
  rfl

lemma toNat_octets (high low : UInt8) :
    (high.toUInt16 <<< 8 ||| low.toUInt16).toNat = low.toNat + 256 * high.toNat := by
  have hhigh := high.toNat_lt
  have hfit : high.toNat <<< 8 % 2 ^ 16 = high.toNat <<< 8 := by
    rw [Nat.shiftLeft_eq]
    exact Nat.mod_eq_of_lt (by omega)
  simp only [UInt16.toNat_or, UInt16.toNat_shiftLeft, UInt8.toNat_toUInt16, UInt16.reduceToNat, Nat.reduceMod,
    hfit]
  rw [Nat.or_comm]
  exact LittleEndian.or_shiftLeft low.toNat_lt high.toNat

/-- **The octets are those of the groups.** -/
lemma hostOfGroups_groups (a : Ipv6Address) : hostOfGroups a.groups = a.host := by
  refine List.Vector.ext fun i => ?_
  have hlt := i.isLt
  have hgroup : a.groups.getD (i / 2) 0 = a.group (i / 2) := by
    have hi : i.val / 2 < 8 := by omega
    simp [groups, List.getD_eq_getElem?_getD, hi]
  have hget : a.host.get i = a.host.toList.getD i 0 := by
    have hi : i.val < a.host.toList.length := by simp
    rw [List.Vector.get_eq_get_toList, List.getD_eq_getElem?_getD, List.getElem?_eq_getElem hi, Option.getD_some]
    rfl
  have hnat := toNat_octets (a.host.toList.getD (i / 2 * 2) 0) (a.host.toList.getD (i / 2 * 2 + 1) 0)
  have hhigh := (a.host.toList.getD (i / 2 * 2) 0).toNat_lt
  have hlow := (a.host.toList.getD (i / 2 * 2 + 1) 0).toNat_lt
  rw [hostOfGroups, List.Vector.get_ofFn, hgroup, hget, ← UInt8.toNat_inj, group]
  dsimp only
  split
  next heven =>
    have hi : i.val / 2 * 2 = i.val := by omega
    rw [hi] at hnat hhigh hlow ⊢
    rw [UInt16.toNat_toUInt8, UInt16.toNat_shiftRight, hnat]
    simp only [UInt16.reduceToNat, Nat.reduceMod, Nat.shiftRight_eq_div_pow]
    omega
  next hodd =>
    have hi : i.val / 2 * 2 + 1 = i.val := by omega
    rw [hi] at hnat hlow ⊢
    have hmask (n : ℕ) : n &&& (0xFF : UInt16).toNat = n % 2 ^ 8 := Nat.and_two_pow_sub_one_eq_mod n 8
    rw [UInt16.toNat_toUInt8, UInt16.toNat_and, hnat, hmask]
    omega

/-- **An address is read back** from the text of its host. -/
theorem fromString_hostString (a : Ipv6Address) : fromString a.hostString a.port = a := by
  have hcolon : ∀ p ∈ a.groups.map groupText, ':' ∉ p := by
    intro p hp
    obtain ⟨v, -, rfl⟩ := List.mem_map.1 hp
    exact colon_notMem_groupText v
  have hne : ∀ p ∈ a.groups.map groupText, p ≠ [] := by
    intro p hp
    obtain ⟨v, -, rfl⟩ := List.mem_map.1 hp
    exact groupText_ne_nil v
  have hsplit : splitDoubleColon a.hostString = none := by
    have h := splitDoubleColon_intercalate hcolon hne []
    rwa [List.append_nil, ← hostString_eq] at h
  have hparse : parseGroups a.hostString = some a.groups := by
    rw [parseGroups, hostString_eq, colonParts_intercalate hcolon hne, List.mapM_map]
    have hread : parseGroup ∘ groupText = fun v => pure v := funext parseGroup_groupText
    rw [hread, List.mapM_pure, List.map_id']
    rfl
  rw [fromString, hsplit]
  simp only [hparse, hostOfGroups_groups]

end Ipv6Address

/-! ## Keys -/

lemma colon_notMem_toChars (n : ℕ) : ':' ∉ toChars n := by
  intro hmem
  have hdigit := Nat.isDigit_of_mem_toDigits (by decide) (by decide) hmem
  simp [Char.isDigit] at hdigit

lemma toChars_injective : Function.Injective toChars := by
  intro m n h
  have hm : Nat.ofDigitChars 10 (toChars m) 0 = m := Nat.ofDigitChars_ten_toDigits
  rw [← hm, h]
  exact Nat.ofDigitChars_ten_toDigits

/-- **A key is read from its end**: the port is what is after the last colon. -/
lemma hostPort_inj {host host' : List Char} {port port' : UInt16}
    (h : host ++ ':' :: toChars port.toNat = host' ++ ':' :: toChars port'.toNat) :
    host = host' ∧ port = port' := by
  have hlast (host : List Char) (port : UInt16) :
      (host ++ ':' :: toChars port.toNat).reverse.takeWhile (· ≠ ':') = (toChars port.toNat).reverse := by
    have hdigits : ∀ c ∈ (toChars port.toNat).reverse, decide (c ≠ ':') = true := by
      intro c hc
      refine decide_eq_true fun hcolon => ?_
      rw [hcolon, List.mem_reverse] at hc
      exact colon_notMem_toChars _ hc
    rw [List.reverse_append, List.reverse_cons, List.append_assoc, List.takeWhile_append_of_pos hdigits]
    simp
  have hchars : toChars port.toNat = toChars port'.toNat := by
    rw [← List.reverse_inj, ← hlast host port, h, hlast]
  have hport : port = port' := UInt16.toNat_inj.1 (toChars_injective hchars)
  rw [hport] at h
  exact ⟨List.append_cancel_right h, hport⟩

/-- Addresses of both kinds are read back from their texts; so these, and the keys `host:port`, tell the addresses
apart. -/
structure AddressesReadBack : Prop where
  ipv4 : ∀ a : Ipv4Address, Ipv4Address.fromString a.hostString a.port = a
  ipv6 : ∀ a : Ipv6Address, Ipv6Address.fromString a.hostString a.port = a
  ipv4Host : ∀ a b : Ipv4Address, a.hostString = b.hostString → a.host = b.host
  ipv6Host : ∀ a b : Ipv6Address, a.hostString = b.hostString → a.host = b.host
  ipv4Key : ∀ a b : Ipv4Address, a.hostPort = b.hostPort → a = b
  ipv6Key : ∀ a b : Ipv6Address,
    a.hostString ++ ':' :: toChars a.port.toNat = b.hostString ++ ':' :: toChars b.port.toNat → a = b

/-- **Addresses are read back** from their texts. -/
theorem addressesReadBack : AddressesReadBack := by
  have hhost4 (a b : Ipv4Address) (h : a.hostString = b.hostString) : a.host = b.host := by
    have ha := Ipv4Address.fromString_hostString ⟨a.host, 0⟩
    have hb := Ipv4Address.fromString_hostString ⟨b.host, 0⟩
    have htext : Ipv4Address.hostString ⟨a.host, 0⟩ = Ipv4Address.hostString ⟨b.host, 0⟩ := h
    rw [htext, hb] at ha
    exact (congrArg Ipv4Address.host ha).symm
  have hhost6 (a b : Ipv6Address) (h : a.hostString = b.hostString) : a.host = b.host := by
    have ha := Ipv6Address.fromString_hostString ⟨a.host, 0⟩
    have hb := Ipv6Address.fromString_hostString ⟨b.host, 0⟩
    have htext : Ipv6Address.hostString ⟨a.host, 0⟩ = Ipv6Address.hostString ⟨b.host, 0⟩ := h
    rw [htext, hb] at ha
    exact (congrArg Ipv6Address.host ha).symm
  refine ⟨Ipv4Address.fromString_hostString, Ipv6Address.fromString_hostString, hhost4, hhost6,
    fun a b h => ?_, fun a b h => ?_⟩
  · obtain ⟨hhost, hport⟩ := hostPort_inj h
    cases a
    cases b
    exact congrArg₂ Ipv4Address.mk (hhost4 _ _ hhost) hport
  · obtain ⟨hhost, hport⟩ := hostPort_inj h
    cases a
    cases b
    exact congrArg₂ Ipv6Address.mk (hhost6 _ _ hhost) hport

end HyperDHT.Compact
