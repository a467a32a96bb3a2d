import HyperDHT.Compact.Ipv6

/-!
# Which texts are addresses

The parsers of addresses check the digits that they look at, and not the shape of the text: octets and groups may be
missing or too many, something may stand after the digits of an octet, and a long group wraps around.

## Main definitions

* `Compact.Ipv4Address.Denotes`, `Compact.Ipv6Address.Denotes` — a text stands for the octets of an address.
* `Compact.Ipv4Address.Parses`, `Compact.Ipv6Address.Parses` — a text that stands for an address is read as this
  address, and any other text as the zeroed one.
* `Compact.Ipv4Address.Readable`, `Compact.Ipv6Address.Readable` — the condition on the text and the port.

## Main results

* `Compact.parses_iff_readable` — the parsers do this for the readable texts, and for no other ones.
* `Compact.not_parses_shortText` — texts with parts missing.
-/

set_option autoImplicit false

namespace HyperDHT.Compact

/-! ## Dotted texts -/

namespace Ipv4Address

/-- The number that decimal digits stand for. -/
def decimal (piece : List Char) : ℕ := Nat.ofDigitChars 10 piece 0

/-- A decimal number of at most 255. -/
structure IsOctet (piece : List Char) : Prop where
  ne_nil : piece ≠ []
  digits : ∀ c ∈ piece, c.isDigit = true
  le : decimal piece ≤ 255

/-- Four decimal numbers of at most 255 with dots between them, and nothing else. -/
def Denotes (text : List Char) (host : List.Vector UInt8 4) : Prop :=
  ∃ pieces : List (List Char), text = List.intercalate ['.'] pieces ∧ (∀ p ∈ pieces, IsOctet p) ∧
    pieces.map decimal = host.toList.map UInt8.toNat

/-- **A text is read as what it stands for**, and as the zeroed address if it stands for none. -/
def Parses (text : List Char) (port : UInt16) : Prop :=
  (∀ host, Denotes text host → fromString text port = ⟨host, port⟩) ∧
    ((∀ host, ¬ Denotes text host) → fromString text port = zero)

/-- The text stands for an address; or among its first four pieces between dots there is one that does not begin with
a number of at most 255; or all of these begin with a zero, and the port is zero. -/
def Readable (text : List Char) (port : UInt16) : Prop :=
  (∃ host, Denotes text host) ∨ (∃ piece ∈ (text.splitOn '.').take 4, ∀ v, fromChars piece = some v → 255 < v) ∨
    port = 0 ∧ ∀ piece ∈ (text.splitOn '.').take 4, fromChars piece = some 0

/-- The octet that a piece begins with. -/
def leading (piece : List Char) : Option UInt8 :=
  (fromChars piece).bind fun v => if v > 255 then none else some (UInt8.ofNat v)

/-! ### The octet loop -/

lemma splitOn_eq (text : List Char) :
    text.splitOn '.' = (splitDot text).1 :: (splitDot text).2.elim [] (List.splitOn '.') := by
  induction text with
  | nil => simp [splitDot]
  | cons c cs ih =>
    rw [List.splitOn_cons_eq_if_modifyHead, splitDot]
    by_cases hc : c = '.'
    · simp [hc]
    · simp [hc, ih]

/-- **The loop**, one octet after another. -/
lemma fromStringLoop_succ (n : ℕ) (text : List Char) :
    fromStringLoop (n + 1) (some text) =
      (leading (splitDot text).1).bind fun octet =>
        (fromStringLoop n (splitDot text).2).map (List.Vector.cons octet) := by
  rw [fromStringLoop, leading]
  cases fromChars (splitDot text).1 with
  | none => rfl
  | some v =>
    simp only [Option.bind_some]
    split <;> rfl

lemma fromStringLoop_eq_none_iff (n : ℕ) (text : List Char) :
    fromStringLoop n (some text) = none ↔ ∃ piece ∈ (text.splitOn '.').take n, leading piece = none := by
  induction n generalizing text with
  | zero => simp [fromStringLoop]
  | succ n ih =>
    rw [fromStringLoop_succ, splitOn_eq, List.take_succ_cons]
    simp only [List.mem_cons, exists_eq_or_imp]
    cases leading (splitDot text).1 with
    | none => simp
    | some octet =>
      cases (splitDot text).2 with
      | none => cases n <;> simp [fromStringLoop]
      | some rest => simp [ih]

lemma fromStringLoop_eq_zero_iff (n : ℕ) (text : List Char) :
    fromStringLoop n (some text) = some (List.Vector.replicate n 0) ↔
      ∀ piece ∈ (text.splitOn '.').take n, leading piece = some 0 := by
  induction n generalizing text with
  | zero =>
    rw [List.take_zero]
    exact iff_of_true rfl (by simp)
  | succ n ih =>
    have hcons : List.Vector.replicate (n + 1) (0 : UInt8) = 0 ::ᵥ List.Vector.replicate n 0 := rfl
    rw [fromStringLoop_succ, splitOn_eq, List.take_succ_cons, List.forall_mem_cons, hcons]
    cases leading (splitDot text).1 with
    | none => simp
    | some octet =>
      have hrest : (fromStringLoop n (splitDot text).2 = some (List.Vector.replicate n 0)) ↔
          ∀ piece ∈ ((splitDot text).2.elim [] (List.splitOn '.')).take n, leading piece = some 0 := by
        cases (splitDot text).2 with
        | none =>
          have hnone : fromStringLoop n none = some (List.Vector.replicate n 0) := by cases n <;> rfl
          exact iff_of_true hnone (by simp)
        | some rest => exact ih rest
      simp only [Option.bind_some, Option.map_eq_some_iff, Option.some_inj, List.Vector.eq_cons_iff,
        List.Vector.head_cons, List.Vector.tail_cons, ← hrest]
      constructor
      · rintro ⟨v, hv, hoctet, rfl⟩
        exact ⟨hoctet, hv⟩
      · rintro ⟨hoctet, hv⟩
        exact ⟨_, hv, hoctet, rfl⟩

lemma leading_eq_none_iff (piece : List Char) :
    leading piece = none ↔ ∀ v, fromChars piece = some v → 255 < v := by
  rw [leading]
  cases fromChars piece with
  | none => simp
  | some v => simp

lemma leading_eq_zero_iff (piece : List Char) : leading piece = some 0 ↔ fromChars piece = some 0 := by
  rw [leading]
  cases fromChars piece with
  | none => simp
  | some v =>
    rw [Option.bind_some, Option.some_inj]
    by_cases hv : v > 255
    · rw [if_pos hv]
      exact iff_of_false (by simp) (by omega)
    · rw [if_neg hv, Option.some_inj, ← UInt8.toNat_inj, UInt8.toNat_ofNat']
      have hzero : (0 : UInt8).toNat = 0 := rfl
      omega

lemma leading_of_isOctet {piece : List Char} (h : IsOctet piece) :
    leading piece = some (UInt8.ofNat (decimal piece)) := by
  have hdigits : piece.takeWhile Char.isDigit = piece := List.takeWhile_eq_self_iff.2 h.digits
  have hle := h.le
  have hfit : decimal piece < 2 ^ 32 := by omega
  have hread : fromChars piece = some (decimal piece) := by
    rw [fromChars, hdigits]
    simp only [List.isEmpty_iff, h.ne_nil, if_false]
    exact if_pos hfit
  rw [leading, hread, Option.bind_some, if_neg (by omega)]

lemma dot_notMem_of_isOctet {piece : List Char} (h : IsOctet piece) : '.' ∉ piece := by
  intro hmem
  have hdigit := h.digits _ hmem
  simp [Char.isDigit] at hdigit

lemma fromStringLoop_of_splitOn {n : ℕ} {text : List Char} {host : List.Vector UInt8 n}
    (h : (text.splitOn '.').map leading = host.toList.map some) :
    fromStringLoop n (some text) = some host := by
  induction n generalizing text with
  | zero => simp [splitOn_eq, List.Vector.eq_nil host] at h
  | succ n ih =>
    obtain ⟨octet, tail, rfl⟩ := host.exists_eq_cons
    rw [splitOn_eq, List.Vector.toList_cons, List.map_cons, List.map_cons] at h
    obtain ⟨hfirst, hrest⟩ := List.cons_eq_cons.1 h
    have htail : fromStringLoop n (splitDot text).2 = some tail := by
      cases hsplit : (splitDot text).2 with
      | some rest =>
        rw [hsplit] at hrest
        exact ih hrest
      | none =>
        rw [hsplit] at hrest
        cases n with
        | zero => rw [List.Vector.eq_nil tail, fromStringLoop]
        | succ n =>
          have hlength := congrArg List.length hrest
          simp at hlength
    rw [fromStringLoop_succ, hfirst, Option.bind_some, htail, Option.map_some]

lemma Denotes.splitOn {text : List Char} {host : List.Vector UInt8 4} (h : Denotes text host) :
    (∀ p ∈ text.splitOn '.', IsOctet p) ∧ (text.splitOn '.').map decimal = host.toList.map UInt8.toNat := by
  obtain ⟨pieces, htext, hoctets, hhost⟩ := h
  have hne : pieces ≠ [] := by
    rintro rfl
    have hlength := congrArg List.length hhost
    simp at hlength
  have hpieces : text.splitOn '.' = pieces := by
    rw [htext]
    exact List.splitOn_intercalate '.' (fun p hp => dot_notMem_of_isOctet (hoctets p hp)) hne
  rw [hpieces]
  exact ⟨hoctets, hhost⟩

/-- **A text that stands for an address** is read as this address. -/
lemma fromString_of_denotes {text : List Char} {host : List.Vector UInt8 4} (h : Denotes text host)
    (port : UInt16) : fromString text port = ⟨host, port⟩ := by
  obtain ⟨hoctets, hhost⟩ := h.splitOn
  have hleading : (text.splitOn '.').map leading = host.toList.map some := by
    have hvalues : host.toList.map some = (host.toList.map UInt8.toNat).map fun v => some (UInt8.ofNat v) := by
      simp
    rw [hvalues, ← hhost, List.map_map]
    exact List.map_congr_left fun p hp => leading_of_isOctet (hoctets p hp)
  rw [fromString, fromStringLoop_of_splitOn hleading]

/-- **When an IPv4 text is read as what it stands for.** -/
lemma parses_iff (text : List Char) (port : UInt16) : Parses text port ↔ Readable text port := by
  by_cases hdenotes : ∃ host, Denotes text host
  · exact iff_of_true ⟨fun host h => fromString_of_denotes h port, fun hnone => absurd hdenotes (not_exists.2 hnone)⟩
      (Or.inl hdenotes)
  have hzero : fromString text port = zero ↔ fromStringLoop 4 (some text) = none ∨
      port = 0 ∧ fromStringLoop 4 (some text) = some (List.Vector.replicate 4 0) := by
    rw [fromString]
    cases fromStringLoop 4 (some text) with
    | none => simp
    | some host => simp [zero, and_comm]
  rw [fromStringLoop_eq_none_iff, fromStringLoop_eq_zero_iff] at hzero
  simp only [leading_eq_none_iff, leading_eq_zero_iff] at hzero
  rw [Parses, Readable, hzero]
  constructor
  · rintro ⟨-, h⟩
    exact Or.inr (h (not_exists.1 hdenotes))
  · intro h
    exact ⟨fun host hhost => absurd ⟨host, hhost⟩ hdenotes, fun _ => h.resolve_left hdenotes⟩

end Ipv4Address

/-! ## Texts with colons -/

/-- The number that hexadecimal digits stand for, after a number before them. -/
def hexadecimalFrom (v : ℕ) (piece : List Char) : ℕ :=
  piece.foldl (fun v c => v * 16 + ((hexValue c).getD 0).toNat) v

/-- The number that hexadecimal digits stand for. -/
def hexadecimal (piece : List Char) : ℕ := hexadecimalFrom 0 piece

/-- All characters are hexadecimal digits. -/
def AllHex (piece : List Char) : Prop := ∀ c ∈ piece, hexValue c ≠ none

/-- One to four hexadecimal digits. -/
structure IsGroup (piece : List Char) : Prop where
  ne_nil : piece ≠ []
  digits : AllHex piece
  length_le : piece.length ≤ 4

/-- The two octets of each group, the higher one first. -/
def groupOctets (values : List ℕ) : List UInt8 :=
  values.flatMap fun v => [UInt8.ofNat (v / 256), UInt8.ofNat (v % 256)]

namespace Ipv6Address

/-- Eight groups with colons between them; or fewer groups, with `::` once for the groups of zeros that are left
out. -/
inductive Denotes (text : List Char) (host : List.Vector UInt8 16) : Prop
  | full (groups : List (List Char)) (hgroups : ∀ g ∈ groups, IsGroup g) (height : groups.length = 8)
      (htext : text = List.intercalate [':'] groups)
      (hhost : host.toList = groupOctets (groups.map hexadecimal))
  | short (before after : List (List Char)) (hbefore : ∀ g ∈ before, IsGroup g)
      (hafter : ∀ g ∈ after, IsGroup g) (hfewer : before.length + after.length < 8)
      (htext : text = List.intercalate [':'] before ++ ':' :: ':' :: List.intercalate [':'] after)
      (hhost : host.toList = groupOctets (before.map hexadecimal ++
        List.replicate (8 - (before.length + after.length)) 0 ++ after.map hexadecimal))

/-- **A text is read as what it stands for**, and as the zeroed address if it stands for none. -/
def Parses (text : List Char) (port : UInt16) : Prop :=
  (∀ host, Denotes text host → fromString text port = ⟨host, port⟩) ∧
    ((∀ host, ¬ Denotes text host) → fromString text port = zero)

/-- The pieces before and after the first `::`. -/
def pieces (text : List Char) : List (List Char) :=
  match splitDoubleColon text with
  | some (before, after) => colonParts before ++ colonParts after
  | none => colonParts text

/-- The text stands for an address; or the port is zero, and there is a character that is neither a hexadecimal digit
nor a colon, or else the first eight groups are multiples of 65536. -/
def Readable (text : List Char) (port : UInt16) : Prop :=
  (∃ host, Denotes text host) ∨
    port = 0 ∧ (¬ AllHex (text.filter (· ≠ ':')) ∨ ∀ piece ∈ (pieces text).take 8, 2 ^ 16 ∣ hexadecimal piece)

end Ipv6Address

/-! ### Groups -/

lemma parseGroupLoop_eq (v : ℕ) (piece : List Char) (h : AllHex piece) :
    parseGroupLoop (UInt16.ofNat v) piece = some (UInt16.ofNat (hexadecimalFrom v piece)) := by
  induction piece generalizing v with
  | nil => rfl
  | cons c cs ih =>
    obtain ⟨hc, hcs⟩ := List.forall_mem_cons.1 h
    obtain ⟨digit, hdigit⟩ := Option.ne_none_iff_exists'.1 hc
    have hstep : UInt16.ofNat v * 16 + digit = UInt16.ofNat (v * 16 + digit.toNat) := by
      simp [UInt16.ofNat_add, UInt16.ofNat_mul]
    rw [parseGroupLoop]
    simp only [hdigit]
    rw [hstep, ih _ hcs, hexadecimalFrom, hexadecimalFrom, List.foldl_cons, hdigit, Option.getD_some]

lemma parseGroupLoop_eq_none (val : UInt16) {piece : List Char} (h : ¬ AllHex piece) :
    parseGroupLoop val piece = none := by
  induction piece generalizing val with
  | nil => exact absurd (by simp [AllHex]) h
  | cons c cs ih =>
    rw [parseGroupLoop]
    cases hc : hexValue c with
    | none => rfl
    | some digit =>
      refine ih _ fun hcs => h (List.forall_mem_cons.2 ⟨by simp [hc], hcs⟩)

/-- **The value of a group**, if all its characters are digits; it wraps around. -/
lemma parseGroup_eq {piece : List Char} (h : AllHex piece) :
    parseGroup piece = some (UInt16.ofNat (hexadecimal piece)) := parseGroupLoop_eq 0 piece h

lemma parseGroups_eq {text : List Char} (h : ∀ piece ∈ colonParts text, AllHex piece) :
    parseGroups text = some ((colonParts text).map fun piece => UInt16.ofNat (hexadecimal piece)) := by
  rw [parseGroups]
  generalize colonParts text = parts at h
  induction parts with
  | nil => rfl
  | cons p ps ih =>
    obtain ⟨hp, hps⟩ := List.forall_mem_cons.1 h
    rw [List.mapM_cons, parseGroup_eq hp, ih hps]
    rfl

lemma parseGroups_eq_none {text : List Char} (h : ¬ ∀ piece ∈ colonParts text, AllHex piece) :
    parseGroups text = none := by
  rw [parseGroups]
  generalize colonParts text = parts at h
  induction parts with
  | nil => exact absurd (by simp) h
  | cons p ps ih =>
    rw [List.forall_mem_cons, not_and_or] at h
    rw [List.mapM_cons]
    rcases h with hp | hps
    · rw [parseGroup, parseGroupLoop_eq_none 0 hp]
      rfl
    · rw [ih hps]
      cases parseGroup p <;> rfl

lemma flatten_colonParts (text : List Char) : (colonParts text).flatten = text.filter (· ≠ ':') := by
  induction text with
  | nil => rfl
  | cons c cs ih =>
    rw [colonParts, List.filter_cons]
    by_cases hc : c = ':'
    · simp [hc, ih]
    · rw [if_neg hc, if_pos (by simpa using hc), ← ih]
      cases colonParts cs <;> rfl

lemma allHex_pieces_iff (text : List Char) :
    (∀ piece ∈ colonParts text, AllHex piece) ↔ AllHex (text.filter (· ≠ ':')) := by
  rw [← flatten_colonParts, AllHex]
  simp only [List.mem_flatten, AllHex]
  constructor
  · rintro h c ⟨piece, hpiece, hc⟩
    exact h piece hpiece c hc
  · intro h piece hpiece c hc
    exact h c ⟨piece, hpiece, hc⟩

lemma eq_of_splitDoubleColon {text before after : List Char}
    (h : splitDoubleColon text = some (before, after)) : text = before ++ ':' :: ':' :: after := by
  induction text generalizing before with
  | nil => simp [splitDoubleColon] at h
  | cons c cs ih =>
    rw [splitDoubleColon] at h
    split at h
    next hc =>
      obtain ⟨hcolon, hhead⟩ := hc
      obtain ⟨rfl, rfl⟩ := Prod.mk.inj (Option.some.inj h)
      cases cs with
      | nil => simp at hhead
      | cons c' rest =>
        obtain rfl : c' = ':' := by simpa using hhead
        rw [hcolon]
        rfl
    · obtain ⟨halves, hhalves, heq⟩ := Option.map_eq_some_iff.1 h
      obtain ⟨rfl, rfl⟩ := Prod.mk.inj heq
      rw [List.cons_append, ← ih hhalves]

/-! ### Octets -/

lemma toNat_high (v : UInt16) : (v >>> 8).toUInt8.toNat = v.toNat / 256 := by
  have hlt := v.toNat_lt
  rw [UInt16.toNat_toUInt8, UInt16.toNat_shiftRight]
  simp only [UInt16.reduceToNat, Nat.reduceMod, Nat.shiftRight_eq_div_pow]
  omega

lemma toNat_low (v : UInt16) : (v &&& 0xFF).toUInt8.toNat = v.toNat % 256 := by
  have hmask : v.toNat &&& (0xFF : UInt16).toNat = v.toNat % 2 ^ 8 := Nat.and_two_pow_sub_one_eq_mod _ 8
  rw [UInt16.toNat_toUInt8, UInt16.toNat_and, hmask]
  omega

lemma toList_hostOfGroups {values : List ℕ} (h : values.length = 8) :
    (hostOfGroups (values.map UInt16.ofNat)).toList = groupOctets values := by
  have hhigh (v : ℕ) : (UInt16.ofNat v >>> 8).toUInt8 = UInt8.ofNat (v / 256) := by
    rw [← UInt8.toNat_inj, toNat_high, UInt16.toNat_ofNat', UInt8.toNat_ofNat']
    omega
  have hlow (v : ℕ) : UInt8.ofNat v &&& 255 = UInt8.ofNat (v % 256) := by
    have hmask : v % 2 ^ 8 &&& (255 : UInt8).toNat = v % 2 ^ 8 % 2 ^ 8 := Nat.and_two_pow_sub_one_eq_mod _ 8
    rw [← UInt8.toNat_inj, UInt8.toNat_and, UInt8.toNat_ofNat', UInt8.toNat_ofNat', hmask]
    omega
  match values, h with
  | [a, b, c, d, e, f, g, k], _ =>
    rw [hostOfGroups, List.Vector.toList_ofFn]
    simp [List.ofFn_succ, groupOctets, hhigh, hlow, Fin.val_succ]

lemma hostOfGroups_eq_zero_iff (groups : List UInt16) :
    hostOfGroups groups = List.Vector.replicate 16 0 ↔ ∀ v ∈ groups.take 8, v = 0 := by
  constructor
  · intro h v hv
    obtain ⟨k, hk, rfl⟩ := List.mem_take_iff_getElem.1 hv
    have hk8 : k < 8 := by omega
    have hgroup : groups.getD k 0 = groups[k] := by
      rw [List.getD_eq_getElem?_getD, List.getElem?_eq_getElem (by omega), Option.getD_some]
    have hget (i : Fin 16) := congrArg (fun host => (host.get i).toNat) h
    have hhigh := hget ⟨2 * k, by omega⟩
    have hlow := hget ⟨2 * k + 1, by omega⟩
    have hhalf : (2 * k + 1) / 2 = k := by omega
    simp only [hostOfGroups, List.Vector.get_ofFn, List.Vector.get_replicate, Nat.mul_mod_right, if_true,
      Nat.mul_div_cancel_left k (by decide : 0 < 2), hgroup, toNat_high] at hhigh
    simp only [hostOfGroups, List.Vector.get_ofFn, List.Vector.get_replicate, Nat.mul_add_mod, hhalf, hgroup,
      Nat.reduceMod, Nat.one_ne_zero, if_false, toNat_low] at hlow
    refine UInt16.toNat_inj.1 ?_
    simp only [UInt8.reduceToNat, UInt16.reduceToNat] at hhigh hlow ⊢
    omega
  · intro h
    refine List.Vector.ext fun i => ?_
    have hlt := i.isLt
    have hgroup : groups.getD (i / 2) 0 = 0 := by
      rw [List.getD_eq_getElem?_getD]
      cases hi : groups[i.val / 2]? with
      | none => rfl
      | some v =>
        obtain ⟨hlength, heq⟩ := List.getElem?_eq_some_iff.1 hi
        exact h v (List.mem_take_iff_getElem.2 ⟨i / 2, by omega, heq⟩)
    rw [hostOfGroups, List.Vector.get_ofFn, List.Vector.get_replicate, hgroup]
    simp

lemma ofNat_eq_zero_iff (v : ℕ) : UInt16.ofNat v = 0 ↔ 2 ^ 16 ∣ v := by
  rw [← UInt16.toNat_inj, UInt16.toNat_ofNat', Nat.dvd_iff_mod_eq_zero]
  rfl

lemma forall_take_fill (before after : List UInt16) :
    (∀ v ∈ (before ++ List.replicate (8 - (before.length + after.length)) 0 ++ after).take 8, v = 0) ↔
      ∀ v ∈ (before ++ after).take 8, v = 0 := by
  by_cases hfewer : before.length + after.length < 8
  · have hfilled : (before ++ List.replicate (8 - (before.length + after.length)) 0 ++ after).length ≤ 8 := by
      simp only [List.length_append, List.length_replicate]
      omega
    have hshort : (before ++ after).length ≤ 8 := by
      rw [List.length_append]
      omega
    have hzeros : ∀ v ∈ List.replicate (8 - (before.length + after.length)) (0 : UInt16), v = 0 :=
      fun v hv => List.eq_of_mem_replicate hv
    rw [List.take_of_length_le hfilled, List.take_of_length_le hshort]
    simp only [List.forall_mem_append]
    exact ⟨fun h => ⟨h.1.1, h.2⟩, fun h => ⟨⟨h.1, hzeros⟩, h.2⟩⟩
  · have hnone : 8 - (before.length + after.length) = 0 := by omega
    rw [hnone, List.replicate_zero, List.append_nil]

namespace Ipv6Address

/-- **When the parser returns the zeroed address.** -/
lemma fromString_eq_zero_iff (text : List Char) (port : UInt16) :
    fromString text port = zero ↔ port = 0 ∧
      (¬ AllHex (text.filter (· ≠ ':')) ∨ ∀ piece ∈ (pieces text).take 8, 2 ^ 16 ∣ hexadecimal piece) := by
  have hzeroed : ({ zero with port } : Ipv6Address) = zero ↔ port = 0 := by simp [zero]
  have hhost (groups : List UInt16) : (⟨hostOfGroups groups, port⟩ : Ipv6Address) = zero ↔
      port = 0 ∧ ∀ v ∈ groups.take 8, v = 0 := by
    rw [← hostOfGroups_eq_zero_iff, and_comm]
    simp [zero]
  have hmap (ps : List (List Char)) :
      (∀ v ∈ (ps.map fun piece => UInt16.ofNat (hexadecimal piece)).take 8, v = 0) ↔
        ∀ piece ∈ ps.take 8, 2 ^ 16 ∣ hexadecimal piece := by
    rw [← List.map_take, List.forall_mem_map]
    simp only [ofNat_eq_zero_iff]
  rw [fromString, pieces]
  cases hsplit : splitDoubleColon text with
  | none =>
    by_cases hhex : AllHex (text.filter (· ≠ ':'))
    · simp only [parseGroups_eq ((allHex_pieces_iff text).2 hhex), hhost, hmap, hhex, not_true, false_or]
    · simp only [parseGroups_eq_none (mt (allHex_pieces_iff text).1 hhex), hzeroed, hhex, not_false_iff, true_or,
        and_true]
  | some halves =>
    obtain ⟨before, after⟩ := halves
    have hfilter : AllHex (text.filter (· ≠ ':')) ↔
        AllHex (before.filter (· ≠ ':')) ∧ AllHex (after.filter (· ≠ ':')) := by
      rw [eq_of_splitDoubleColon hsplit, AllHex, List.filter_append, List.forall_mem_append]
      simp [AllHex]
    by_cases hbefore : AllHex (before.filter (· ≠ ':'))
    · by_cases hafter : AllHex (after.filter (· ≠ ':'))
      · have hfill := forall_take_fill
          ((colonParts before).map fun piece => UInt16.ofNat (hexadecimal piece))
          ((colonParts after).map fun piece => UInt16.ofNat (hexadecimal piece))
        rw [← List.map_append, hmap] at hfill
        simp only [parseGroups_eq ((allHex_pieces_iff before).2 hbefore),
          parseGroups_eq ((allHex_pieces_iff after).2 hafter), hhost, hfill, hfilter, hbefore, hafter, and_self,
          not_true, false_or]
      · simp only [parseGroups_eq ((allHex_pieces_iff before).2 hbefore),
          parseGroups_eq_none (mt (allHex_pieces_iff after).1 hafter), hzeroed, hfilter, hafter, and_false,
          not_false_iff, true_or, and_true]
    · simp only [parseGroups_eq_none (mt (allHex_pieces_iff before).1 hbefore), hzeroed, hfilter, hbefore,
        false_and, not_false_iff, true_or, and_true]

lemma colon_notMem_of_isGroup {piece : List Char} (h : IsGroup piece) : ':' ∉ piece := by
  intro hmem
  exact h.digits _ hmem (by decide)

lemma colonParts_of_isGroup {groups : List (List Char)} (h : ∀ g ∈ groups, IsGroup g) :
    colonParts (List.intercalate [':'] groups) = groups :=
  colonParts_intercalate (fun g hg => colon_notMem_of_isGroup (h g hg)) fun g hg => (h g hg).ne_nil

lemma splitDoubleColon_of_isGroup {groups : List (List Char)} (h : ∀ g ∈ groups, IsGroup g) (rest : List Char) :
    splitDoubleColon (List.intercalate [':'] groups ++ rest) =
      (splitDoubleColon rest).map fun halves => (List.intercalate [':'] groups ++ halves.1, halves.2) :=
  splitDoubleColon_intercalate (fun g hg => colon_notMem_of_isGroup (h g hg)) (fun g hg => (h g hg).ne_nil) rest

lemma parseGroups_of_isGroup {groups : List (List Char)} (h : ∀ g ∈ groups, IsGroup g) :
    parseGroups (List.intercalate [':'] groups) =
      some ((groups.map hexadecimal).map UInt16.ofNat) := by
  have hparts := colonParts_of_isGroup h
  have hhex : ∀ piece ∈ colonParts (List.intercalate [':'] groups), AllHex piece := by
    rw [hparts]
    exact fun g hg => (h g hg).digits
  rw [parseGroups_eq hhex, hparts, List.map_map]
  rfl

lemma Denotes.shape {text : List Char} {host : List.Vector UInt8 16} (h : Denotes text host) :
    (colonParts text).length = 8 ∨ splitDoubleColon text ≠ none := by
  cases h with
  | full groups hgroups height htext hhost =>
    rw [htext, colonParts_of_isGroup hgroups]
    exact Or.inl height
  | short before after hbefore hafter hfewer htext hhost =>
    rw [htext, splitDoubleColon_of_isGroup hbefore]
    exact Or.inr (by simp [splitDoubleColon])

/-- **A text that stands for an address** is read as this address. -/
lemma fromString_of_denotes {text : List Char} {host : List.Vector UInt8 16} (h : Denotes text host)
    (port : UInt16) : fromString text port = ⟨host, port⟩ := by
  cases h with
  | full groups hgroups height htext hhost =>
    have hsplit : splitDoubleColon text = none := by
      have hrest := splitDoubleColon_of_isGroup hgroups []
      rwa [List.append_nil, ← htext] at hrest
    have hoctets : hostOfGroups ((groups.map hexadecimal).map UInt16.ofNat) = host := by
      refine List.Vector.eq _ _ ?_
      rw [toList_hostOfGroups (by rw [List.length_map, height]), hhost]
    have hparse := parseGroups_of_isGroup hgroups
    rw [← htext] at hparse
    rw [fromString, hsplit]
    simp only [hparse, hoctets]
  | short before after hbefore hafter hfewer htext hhost =>
    have hsplit : splitDoubleColon text =
        some (List.intercalate [':'] before, List.intercalate [':'] after) := by
      rw [htext, splitDoubleColon_of_isGroup hbefore]
      simp [splitDoubleColon]
    have hoctets : hostOfGroups ((before.map hexadecimal ++
        List.replicate (8 - (before.length + after.length)) 0 ++ after.map hexadecimal).map UInt16.ofNat) =
        host := by
      refine List.Vector.eq _ _ ?_
      rw [toList_hostOfGroups, hhost]
      simp only [List.length_append, List.length_map, List.length_replicate]
      omega
    rw [List.map_append, List.map_append, List.map_replicate] at hoctets
    rw [fromString, hsplit]
    simp only [parseGroups_of_isGroup hbefore, parseGroups_of_isGroup hafter, List.length_map]
    rw [← hoctets]
    rfl

/-- **When an IPv6 text is read as what it stands for.** -/
lemma parses_iff (text : List Char) (port : UInt16) : Parses text port ↔ Readable text port := by
  by_cases hdenotes : ∃ host, Denotes text host
  · exact iff_of_true ⟨fun host h => fromString_of_denotes h port, fun hnone => absurd hdenotes (not_exists.2 hnone)⟩
      (Or.inl hdenotes)
  rw [Parses, Readable, fromString_eq_zero_iff]
  constructor
  · rintro ⟨-, h⟩
    exact Or.inr (h (not_exists.1 hdenotes))
  · intro h
    exact ⟨fun host hhost => absurd ⟨host, hhost⟩ hdenotes, fun _ => h.resolve_left hdenotes⟩

end Ipv6Address

/-! ## Both parsers -/

/-- **When a text is read as what it stands for**, for both kinds of addresses. -/
theorem parses_iff_readable (text : List Char) (port : UInt16) :
    (Ipv4Address.Parses text port ↔ Ipv4Address.Readable text port) ∧
      (Ipv6Address.Parses text port ↔ Ipv6Address.Readable text port) :=
  ⟨Ipv4Address.parses_iff text port, Ipv6Address.parses_iff text port⟩

/-- **Texts with parts missing** are read as addresses, though they stand for none. -/
theorem not_parses_shortText :
    ¬ Ipv4Address.Parses ['1', '.', '2', '.', '3'] 0 ∧ ¬ Ipv6Address.Parses ['1', ':', '2'] 0 := by
  refine ⟨fun h => ?_, fun h => ?_⟩
  · refine absurd (h.2 fun host hdenotes => ?_) (by decide)
    have hlength := congrArg List.length hdenotes.splitOn.2
    simp [List.splitOn_cons_eq_if_modifyHead] at hlength
  · refine absurd (h.2 fun host hdenotes => ?_) (by decide)
    rcases hdenotes.shape with height | hsome
    · exact absurd height (by decide)
    · exact hsome rfl

end HyperDHT.Compact
