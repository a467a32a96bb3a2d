import HyperDHT.Compact.Bounds
import HyperDHT.Compact.Writer
import HyperDHT.Protomux.Varint

/-!
# The two varints

`protomux.cpp` and `compact.cpp` each have their own variable-length integers: one moves a pointer and returns
zero at a truncation, the other moves a cursor and sets a flag. Both are written out here with their shifts and
masks.

## Main definitions

* `Compact.Uint.encode`, `decode` — the numbers of `compact.cpp`.
* `Protomux.Varint.encode`, `decode` — those of `protomux.cpp`.
* `Protomux.VarintsAgree` — they write the same bytes, and read the same numbers.

## Main results

* `Compact.Uint.encode_eq`, `decode_eq` — the numbers of `compact.cpp`, by their bytes.
* `Protomux.Varint.encode_eq`, `decode_eq` — those of `protomux.cpp`.
* `Protomux.varintsAgree` — they agree on every value and at every position of every byte string.
-/

set_option autoImplicit false

namespace HyperDHT

open LittleEndian

namespace Compact

open Bounds (Input Cursor)

/-! ## Shifts and masks -/

def writeLe16 (v : UInt16) : List UInt8 := [v.toUInt8, (v >>> 8).toUInt8]

def writeLe32 (v : UInt32) : List UInt8 :=
  [v.toUInt8, (v >>> 8).toUInt8, (v >>> 16).toUInt8, (v >>> 24).toUInt8]

def writeLe64 (v : UInt64) : List UInt8 := writeLe32 v.toUInt32 ++ writeLe32 (v >>> 32).toUInt32

/-- The byte at a pointer. -/
def byteAt (p : List UInt8) (i : ℕ) : UInt8 := p.getD i 0

def readLe16 (p : List UInt8) : UInt16 := (byteAt p 0).toUInt16 ||| (byteAt p 1).toUInt16 <<< 8

def readLe32 (p : List UInt8) : UInt32 :=
  (byteAt p 0).toUInt32 ||| (byteAt p 1).toUInt32 <<< 8 ||| (byteAt p 2).toUInt32 <<< 16 |||
    (byteAt p 3).toUInt32 <<< 24

def readLe64 (p : List UInt8) : UInt64 :=
  (readLe32 p).toUInt64 ||| (readLe32 (p.drop 4)).toUInt64 <<< 32

/-! ### The bytes they stand for -/

lemma writeLe16_eq (v : UInt64) : writeLe16 v.toUInt16 = toLe 2 v.toNat := by
  simp only [writeLe16, toLe, List.cons.injEq, and_true, ← UInt8.toNat_inj]
  simp [Nat.shiftRight_eq_div_pow]
  omega

lemma writeLe32_eq (v : UInt64) : writeLe32 v.toUInt32 = toLe 4 v.toNat := by
  simp only [writeLe32, toLe, List.cons.injEq, and_true, ← UInt8.toNat_inj]
  simp [Nat.shiftRight_eq_div_pow]
  omega

lemma writeLe64_eq (v : UInt64) : writeLe64 v = toLe 8 v.toNat := by
  have hhigh : (v >>> 32).toNat = v.toNat / 2 ^ 32 := by
    simp [Nat.shiftRight_eq_div_pow]
  rw [writeLe64, writeLe32_eq, writeLe32_eq, hhigh]
  simp only [toLe, List.cons_append, List.nil_append, Nat.div_div_eq_div_mul, Nat.reducePow, Nat.reduceMul]

lemma readLe16_eq {p : List UInt8} (h : 2 ≤ p.length) : (readLe16 p).toNat = ofLe (p.take 2) := by
  match p, h with
  | a :: b :: rest, _ =>
    have ha := a.toNat_lt
    have hb := b.toNat_lt
    have hfit : b.toNat <<< 8 % 2 ^ 16 = b.toNat <<< 8 := by
      rw [Nat.shiftLeft_eq]
      exact Nat.mod_eq_of_lt (by omega)
    simp only [readLe16, byteAt, List.getD_cons_zero, List.getD_cons_succ, UInt16.toNat_or,
      UInt16.toNat_shiftLeft, UInt8.toNat_toUInt16, UInt16.reduceToNat, Nat.reduceMod, hfit, ofLe,
      List.take_succ_cons, List.take_zero]
    rw [or_shiftLeft ha]
    omega

lemma readLe32_eq {p : List UInt8} (h : 4 ≤ p.length) : (readLe32 p).toNat = ofLe (p.take 4) := by
  match p, h with
  | a :: b :: c :: d :: rest, _ =>
    have ha := a.toNat_lt
    have hb := b.toNat_lt
    have hc := c.toNat_lt
    have hd := d.toNat_lt
    have hfit {x i : ℕ} (hx : x * 2 ^ i < 2 ^ 32) : x <<< i % 2 ^ 32 = x <<< i := by
      rw [Nat.shiftLeft_eq]
      exact Nat.mod_eq_of_lt hx
    simp only [readLe32, byteAt, List.getD_cons_zero, List.getD_cons_succ, UInt32.toNat_or,
      UInt32.toNat_shiftLeft, UInt8.toNat_toUInt32, UInt32.reduceToNat, Nat.reduceMod, ofLe,
      List.take_succ_cons, List.take_zero]
    rw [hfit (by omega), hfit (by omega), hfit (by omega), or_shiftLeft ha,
      or_shiftLeft (i := 16) (by omega), or_shiftLeft (i := 24) (by omega)]
    omega

lemma readLe64_eq {p : List UInt8} (h : 8 ≤ p.length) : (readLe64 p).toNat = ofLe (p.take 8) := by
  have hlow := readLe32_eq (p := p) (by omega)
  have hhigh := readLe32_eq (p := p.drop 4) (by rw [List.length_drop]; omega)
  have hsplit : p.take (4 + 4) = p.take 4 ++ (p.drop 4).take 4 := List.take_add
  have hlt := (readLe32 p).toNat_lt
  have hlt' := (readLe32 (p.drop 4)).toNat_lt
  have hfit : (readLe32 (p.drop 4)).toNat <<< 32 % 2 ^ 64 = (readLe32 (p.drop 4)).toNat <<< 32 := by
    rw [Nat.shiftLeft_eq]
    exact Nat.mod_eq_of_lt (by omega)
  have hlength : (p.take 4).length = 4 := by
    rw [List.length_take]
    omega
  rw [show p.take 8 = _ from hsplit, ofLe_append, ← hlow, ← hhigh, hlength]
  simp only [readLe64, UInt64.toNat_or, UInt64.toNat_shiftLeft, UInt32.toNat_toUInt64,
    UInt64.reduceToNat, Nat.reduceMod, hfit]
  exact or_shiftLeft hlt (readLe32 (p.drop 4)).toNat

/-! ## The numbers of `compact.cpp` -/

namespace Uint

/-- `Uint::encode`. -/
def encode (v : UInt64) (w : Writer) : Writer :=
  if v ≤ 0xFC then w.put [v.toUInt8]
  else if v ≤ 0xFFFF then w.put (0xFD :: writeLe16 v.toUInt16)
  else if v ≤ 0xFFFFFFFF then w.put (0xFE :: writeLe32 v.toUInt32)
  else w.put (0xFF :: writeLe64 v)

/-- `Uint::decode`. -/
def decode (input : Input) (s : Cursor) : UInt64 × Cursor :=
  if s.error || !s.hasBytes 1 then (0, s.fail)
  else
    let first := byteAt (input.1.drop s.start) 0
    let s := s.advance 1
    if first ≤ 0xFC then (first.toUInt64, s)
    else if first = 0xFD then
      if !s.hasBytes 2 then (0, s.fail)
      else ((readLe16 (input.1.drop s.start)).toUInt64, s.advance 2)
    else if first = 0xFE then
      if !s.hasBytes 4 then (0, s.fail)
      else ((readLe32 (input.1.drop s.start)).toUInt64, s.advance 4)
    else if !s.hasBytes 8 then (0, s.fail)
    else (readLe64 (input.1.drop s.start), s.advance 8)

lemma encode_eq (v : UInt64) : encode v = uintWrite v := by
  funext w
  rw [encode, uintWrite, writeLe16_eq, writeLe32_eq, writeLe64_eq]

lemma headD_slice (input : Input) (start : ℕ) :
    (input.slice start 1).headD 0 = byteAt (input.1.drop start) 0 := by
  rw [Bounds.Input.slice, byteAt]
  cases input.1.drop start with
  | nil => rfl
  | cons b rest => rfl

/-- **A number is read as its bytes say.** -/
lemma decode_eq {input : Input} {s : Cursor} (hs : s.Inside input.1.length) :
    decode input s =
      (UInt64.ofNat (Bounds.uintRead input s).value, (Bounds.uintRead input s).cursor) := by
  have hbytes {t : Cursor} {k : ℕ} (ht : t.Inside input.1.length) (h : t.hasBytes k = true) :
      k ≤ (input.1.drop t.start).length := by
    have hroom := (Bounds.Cursor.hasBytes_iff ht.1 (ht.2.trans_lt input.2)).1 h
    have hstop := ht.2
    rw [List.length_drop]
    omega
  unfold decode Bounds.uintRead
  split
  · rfl
  next hnot =>
    simp only [Bool.or_eq_true, Bool.not_eq_true', not_or, Bool.not_eq_false] at hnot
    have hroom := (Bounds.Cursor.hasBytes_iff hs.1 (hs.2.trans_lt input.2)).1 hnot.2
    have hin : (s.advance 1).Inside input.1.length := by
      have hstart := Bounds.Cursor.advance_start hroom (hs.2.trans_lt input.2)
      exact ⟨by simpa [hstart] using hroom, hs.2⟩
    simp only [headD_slice]
    generalize byteAt (input.1.drop s.start) 0 = first
    by_cases hsmall : first ≤ 0xFC
    · rw [if_pos hsmall, if_pos hsmall, UInt64.ofNat_uInt8ToNat]
    rw [if_neg hsmall, if_neg hsmall]
    by_cases hfd : first = 0xFD
    · have hwidth : uintWidth first = 2 := by
        rw [hfd]
        rfl
      rw [if_pos hfd, hwidth]
      cases hmore : (s.advance 1).hasBytes 2 with
      | false => rfl
      | true => simp [← readLe16_eq (hbytes hin hmore), Bounds.Input.slice]
    rw [if_neg hfd]
    by_cases hfe : first = 0xFE
    · have hwidth : uintWidth first = 4 := by
        rw [hfe]
        rfl
      rw [if_pos hfe, hwidth]
      cases hmore : (s.advance 1).hasBytes 4 with
      | false => rfl
      | true => simp [← readLe32_eq (hbytes hin hmore), Bounds.Input.slice]
    rw [if_neg hfe]
    have hwidth : uintWidth first = 8 := by
      rw [uintWidth, if_neg hsmall, if_neg hfd, if_neg hfe]
    rw [hwidth]
    cases hmore : (s.advance 1).hasBytes 8 with
    | false => rfl
    | true => simp [← readLe64_eq (hbytes hin hmore), Bounds.Input.slice]

end Uint

end Compact

namespace Protomux

open Compact (byteAt Writer uintPreencode)
open Compact.Bounds (Input Cursor)

/-! ## The numbers of `protomux.cpp` -/

namespace Varint

/-- `varint_encode`, with the bytes it writes. -/
def encode (value : UInt64) : List UInt8 :=
  if value ≤ 0xFC then [value.toUInt8]
  else if value ≤ 0xFFFF then [0xFD, (value &&& 0xFF).toUInt8, (value >>> 8 &&& 0xFF).toUInt8]
  else if value ≤ 0xFFFFFFFF then
    [0xFE, (value &&& 0xFF).toUInt8, (value >>> 8 &&& 0xFF).toUInt8, (value >>> 16 &&& 0xFF).toUInt8,
      (value >>> 24 &&& 0xFF).toUInt8]
  else
    0xFF :: (List.range 8).map fun i => (value >>> UInt64.ofNat (8 * i) &&& 0xFF).toUInt8

/-- The loop over the bytes of a long number. -/
def orBytes (p : List UInt8) (n : ℕ) : UInt64 :=
  (List.range n).foldl (fun v i => v ||| (byteAt p i).toUInt64 <<< UInt64.ofNat (8 * i)) 0

/-- `varint_decode`, with the position at which it leaves its pointer. -/
def decode (bytes : List UInt8) (ptr : ℕ) : UInt64 × ℕ :=
  if ptr ≥ bytes.length then (0, ptr)
  else
    let first := byteAt (bytes.drop ptr) 0
    let ptr := ptr + 1
    let p := bytes.drop ptr
    if first ≤ 0xFC then (first.toUInt64, ptr)
    else if first = 0xFD then
      if ptr + 2 > bytes.length then (0, bytes.length)
      else ((byteAt p 0).toUInt64 ||| (byteAt p 1).toUInt64 <<< 8, ptr + 2)
    else if first = 0xFE then
      if ptr + 4 > bytes.length then (0, bytes.length)
      else
        ((byteAt p 0).toUInt64 ||| (byteAt p 1).toUInt64 <<< 8 ||| (byteAt p 2).toUInt64 <<< 16 |||
          (byteAt p 3).toUInt64 <<< 24, ptr + 4)
    else if ptr + 8 > bytes.length then (0, bytes.length)
    else (orBytes p 8, ptr + 8)

lemma byte_eq (value : UInt64) {i : ℕ} (hi : i < 8) :
    (value >>> UInt64.ofNat (8 * i) &&& 0xFF).toUInt8 = UInt8.ofNat (value.toNat / 256 ^ i % 256) := by
  have hshift : 8 * i % 64 = 8 * i := by omega
  have hpow : 2 ^ (8 * i) = 256 ^ i := by rw [Nat.pow_mul]
  rw [← UInt8.toNat_inj]
  simp [Nat.and_two_pow_sub_one_eq_mod _ 8, Nat.shiftRight_eq_div_pow, hshift, hpow]

/-- **The bytes of a number**, as in the list form. -/
lemma encode_eq (value : UInt64) : encode value = varintEncode value := by
  have h0 : (value &&& 0xFF).toUInt8 = UInt8.ofNat (value.toNat % 256) := by
    simpa using @byte_eq value 0 (by omega)
  have h1 : (value >>> 8 &&& 0xFF).toUInt8 = UInt8.ofNat (value.toNat / 256 % 256) := by
    simpa using @byte_eq value 1 (by omega)
  have h2 : (value >>> 16 &&& 0xFF).toUInt8 = UInt8.ofNat (value.toNat / 256 ^ 2 % 256) := by
    simpa using @byte_eq value 2 (by omega)
  have h3 : (value >>> 24 &&& 0xFF).toUInt8 = UInt8.ofNat (value.toNat / 256 ^ 3 % 256) := by
    simpa using @byte_eq value 3 (by omega)
  have hlong : (List.range 8).map (fun i => (value >>> UInt64.ofNat (8 * i) &&& 0xFF).toUInt8) =
      toLe 8 value.toNat := by
    rw [toLe_eq_map]
    exact List.map_congr_left fun i hi => byte_eq value (List.mem_range.1 hi)
  rw [encode, varintEncode, hlong, h0, h1, h2, h3]
  simp only [toLe, Nat.div_div_eq_div_mul, Nat.reducePow, Nat.reduceMul]

lemma orBytes_eq {p : List UInt8} {n : ℕ} (hn : n ≤ 8) (h : n ≤ p.length) :
    (orBytes p n).toNat = ofLe (p.take n) := by
  induction n with
  | zero => rfl
  | succ n ih =>
    have hlow := ih (by omega) (by omega)
    have hlt := ofLe_lt (p.take n)
    have hlength : (p.take n).length = n := List.length_take_of_le (by omega)
    have hpow : 2 ^ (8 * n) = 256 ^ n := by rw [Nat.pow_mul]
    have hbyte : byteAt p n = p[n] := by
      rw [byteAt, List.getD_eq_getElem?_getD, List.getElem?_eq_getElem h, Option.getD_some]
    have hfit : p[n].toNat <<< (8 * n) % 2 ^ 64 = p[n].toNat <<< (8 * n) := by
      have hb := p[n].toNat_lt
      rw [Nat.shiftLeft_eq]
      refine Nat.mod_eq_of_lt ?_
      calc p[n].toNat * 2 ^ (8 * n) < 2 ^ 8 * 2 ^ (8 * n) :=
          Nat.mul_lt_mul_of_pos_right hb (Nat.two_pow_pos _)
        _ = 2 ^ (8 * (n + 1)) := by rw [← Nat.pow_add, Nat.mul_succ, Nat.add_comm]
        _ ≤ 2 ^ 64 := Nat.pow_le_pow_right (by decide) (by omega)
    have hstep : orBytes p (n + 1) = orBytes p n ||| p[n].toUInt64 <<< UInt64.ofNat (8 * n) := by
      rw [orBytes, List.range_succ, List.foldl_append, ← hbyte]
      rfl
    rw [hlength, ← hpow] at hlt
    have hshift : 8 * n % 2 ^ 64 % 64 = 8 * n := by omega
    rw [hstep, UInt64.toNat_or, UInt64.toNat_shiftLeft, hlow, UInt8.toNat_toUInt64, UInt64.toNat_ofNat',
      hshift, hfit, or_shiftLeft hlt, List.take_succ_eq_append_getElem h, ofLe_append, hlength, hpow]
    simp [ofLe]

/-- **A number is decoded** by the width that its first byte says. -/
lemma decode_of_lt {bytes : List UInt8} {ptr : ℕ} (h : ptr < bytes.length) :
    decode bytes ptr =
      if byteAt (bytes.drop ptr) 0 ≤ 0xFC then ((byteAt (bytes.drop ptr) 0).toUInt64, ptr + 1)
      else if bytes.length < ptr + 1 + varintBytes (byteAt (bytes.drop ptr) 0) then (0, bytes.length)
      else
        (orBytes (bytes.drop (ptr + 1)) (varintBytes (byteAt (bytes.drop ptr) 0)),
          ptr + 1 + varintBytes (byteAt (bytes.drop ptr) 0)) := by
  have htwo {p : List UInt8} : (byteAt p 0).toUInt64 ||| (byteAt p 1).toUInt64 <<< 8 = orBytes p 2 := by
    simp [orBytes, List.range_succ]
  rw [decode, if_neg (not_le.2 h)]
  generalize byteAt (bytes.drop ptr) 0 = first
  simp only [htwo, varintBytes]
  split_ifs <;> rfl

/-- **What is decoded at a position**, as in the list form. -/
lemma decode_eq {bytes : List UInt8} {ptr : ℕ} (h : ptr ≤ bytes.length) :
    decode bytes ptr =
      ((varintDecode (bytes.drop ptr)).1, bytes.length - (varintDecode (bytes.drop ptr)).2.length) := by
  rcases h.eq_or_lt with rfl | hlt
  · simp [decode, varintDecode]
  have hcons : bytes.drop ptr = bytes[ptr] :: bytes.drop (ptr + 1) := List.drop_eq_getElem_cons hlt
  have hfirst : byteAt (bytes.drop ptr) 0 = bytes[ptr] := by
    rw [hcons]
    rfl
  have hfixed (n : ℕ) (hn : n ≤ 8) :
      (if bytes.length < ptr + 1 + n then (0, bytes.length)
        else (orBytes (bytes.drop (ptr + 1)) n, ptr + 1 + n)) =
      ((fixedDecode n (bytes.drop (ptr + 1))).1,
        bytes.length - (fixedDecode n (bytes.drop (ptr + 1))).2.length) := by
    have hlength : (bytes.drop (ptr + 1)).length = bytes.length - (ptr + 1) := List.length_drop
    by_cases hshort : bytes.length < ptr + 1 + n
    · rw [if_pos hshort, fixedDecode, if_pos (by omega)]
      rfl
    · rw [if_neg hshort, fixedDecode, if_neg (by omega), ← orBytes_eq hn (by omega), UInt64.ofNat_toNat,
        List.length_drop, hlength]
      refine Prod.ext rfl ?_
      dsimp only
      omega
  rw [decode_of_lt hlt, hfirst, hcons, varintDecode]
  generalize bytes[ptr] = first
  by_cases hsmall : first ≤ 0xFC
  · rw [if_pos hsmall, if_pos hsmall, List.length_drop]
    refine Prod.ext rfl ?_
    dsimp only
    omega
  · rw [if_neg hsmall, if_neg hsmall, varintBytes, if_neg hsmall]
    by_cases hfd : first = 0xFD
    · simpa only [if_pos hfd] using hfixed 2 (by decide)
    by_cases hfe : first = 0xFE
    · simpa only [if_neg hfd, if_pos hfe] using hfixed 4 (by decide)
    · simpa only [if_neg hfd, if_neg hfe] using hfixed 8 (by decide)

end Varint

/-! ## Agreement -/

/-- **Inside of a buffer the two decoders agree**, at each position. -/
lemma varintDecode_eq_uintDecode (input : Input) {pos : ℕ} (hpos : pos ≤ input.1.length) :
    Varint.decode input.1 pos =
      if (Compact.Uint.decode input ⟨pos, input.1.length, false⟩).2.error then (0, input.1.length)
      else
        ((Compact.Uint.decode input ⟨pos, input.1.length, false⟩).1,
          (Compact.Uint.decode input ⟨pos, input.1.length, false⟩).2.start) := by
  have hin : Cursor.Inside input.1.length ⟨pos, input.1.length, false⟩ := ⟨hpos, le_rfl⟩
  have hhas {start k : ℕ} (h : start ≤ input.1.length) :
      Cursor.hasBytes ⟨start, input.1.length, false⟩ k = true ↔ start + k ≤ input.1.length :=
    Cursor.hasBytes_iff h input.2
  have hadvance {start k : ℕ} (h : start + k ≤ input.1.length) :
      Cursor.advance ⟨start, input.1.length, false⟩ k = ⟨start + k, input.1.length, false⟩ := by
    have hstart := @Cursor.advance_start ⟨start, input.1.length, false⟩ k h input.2
    rw [← hstart]
    rfl
  rw [Compact.Uint.decode_eq hin, Compact.Bounds.uintRead]
  rcases hpos.eq_or_lt with rfl | hlt
  · -- there is no byte left
    have hnone : Cursor.hasBytes ⟨input.1.length, input.1.length, false⟩ 1 = false := by
      rw [← Bool.not_eq_true, hhas hpos]
      omega
    simp [hnone, Cursor.fail, Varint.decode]
  have hsome : Cursor.hasBytes ⟨pos, input.1.length, false⟩ 1 = true := (hhas hpos).2 hlt
  simp only [hsome, hadvance (show pos + 1 ≤ input.1.length from hlt), Compact.Uint.headD_slice]
  rw [Varint.decode_of_lt hlt]
  generalize byteAt (input.1.drop pos) 0 = first
  by_cases hsmall : first ≤ 0xFC
  · simp [hsmall]
  have hwidth : Compact.uintWidth first = varintBytes first := rfl
  by_cases hshort : input.1.length < pos + 1 + varintBytes first
  · have hnone : Cursor.hasBytes ⟨pos + 1, input.1.length, false⟩ (varintBytes first) = false := by
      rw [← Bool.not_eq_true, hhas hlt]
      omega
    simp [hsmall, hshort, hwidth, hnone, Cursor.fail]
  · have hmore : Cursor.hasBytes ⟨pos + 1, input.1.length, false⟩ (varintBytes first) = true :=
      (hhas hlt).2 (by omega)
    have hbytes := @Varint.orBytes_eq (input.1.drop (pos + 1)) (varintBytes first)
      (Compact.Bounds.uintWidth_le first) (by rw [List.length_drop]; omega)
    have hskip := @hadvance (pos + 1) (varintBytes first) (by omega)
    simp [hsmall, hshort, hwidth, hmore, hskip, Input.slice, ← hbytes]

/-- **What was written is read back** at its position. -/
lemma uintRead_of_drop {input : Input} {pos : ℕ} {v : UInt64} {after : List UInt8}
    (hin : Cursor.Inside input.1.length ⟨pos, input.1.length, false⟩)
    (hdrop : input.1.drop pos = varintEncode v ++ after) :
    (UInt64.ofNat (Compact.Bounds.uintRead input ⟨pos, input.1.length, false⟩).value,
        (Compact.Bounds.uintRead input ⟨pos, input.1.length, false⟩).cursor) =
      (v, ⟨pos + varintSize v, input.1.length, false⟩) := by
  have hlength : input.1.length - pos = varintSize v + after.length := by
    rw [← List.length_drop, hdrop, List.length_append, length_varintEncode]
  have hwindow : Cursor.window input ⟨pos, input.1.length, false⟩ = ⟨Compact.uintEncode v ++ after, false⟩ := by
    rw [Cursor.window, Input.slice, ← List.length_drop, List.take_length, hdrop]
    rfl
  have hread := Compact.Bounds.uintDecode_window hin
  rw [hwindow, Compact.uintDecode_uintEncode] at hread
  obtain ⟨hvalue, hcursor⟩ := Prod.ext_iff.1 hread
  have hkeeps := @Compact.Bounds.keeps_uintRead input _ _ hin input.2
  have hleft := Cursor.length_window hkeeps.inside
  have horder := hkeeps.inside.1
  have hstop := hkeeps.stop_eq
  simp only at hvalue hcursor
  have herror := congrArg Compact.State.error hcursor
  rw [← hvalue]
  rw [← hcursor] at hleft
  generalize (Compact.Bounds.uintRead input ⟨pos, input.1.length, false⟩).cursor = s at *
  obtain ⟨start, stop, error⟩ := s
  simp only at hleft horder hstop
  have hroom := hin.1
  have hstart : start = pos + varintSize v := by
    simp only at hroom
    omega
  simp only [Cursor.window] at herror
  rw [hstart, hstop, ← herror]

/-- The two varints write the same bytes, whose number is what the size functions say, and read the same
numbers at each position of each byte string; what was written is read back. -/
structure VarintsAgree : Prop where
  encode : ∀ (v : UInt64) (w : Writer), w.error = false → w.written.length + varintSize v ≤ w.size →
    Compact.Uint.encode v w = { w with written := w.written ++ Varint.encode v }
  size : ∀ v, (Varint.encode v).length = varintSize v
  preencode : ∀ v size, uintPreencode v size = size + varintSize v
  decode : ∀ (input : Input) pos, pos ≤ input.1.length →
    let r := Compact.Uint.decode input { start := pos, stop := input.1.length }
    (r.2.error = false → Varint.decode input.1 pos = (r.1, r.2.start)) ∧
      (r.2.error = true → Varint.decode input.1 pos = (0, input.1.length))
  roundTrip : ∀ (v : UInt64) (input : Input) (before after : List UInt8),
    input.1 = before ++ Varint.encode v ++ after →
    Varint.decode input.1 before.length = (v, before.length + varintSize v) ∧
      Compact.Uint.decode input { start := before.length, stop := input.1.length } =
        (v, { start := before.length + varintSize v, stop := input.1.length })

/-- **The two varints agree.** -/
theorem varintsAgree : VarintsAgree := by
  have hencode (v : UInt64) : Varint.encode v = Compact.uintEncode v := by
    rw [Varint.encode_eq]
    rfl
  have hsize (v : UInt64) : (Varint.encode v).length = varintSize v := by
    rw [Varint.encode_eq, length_varintEncode]
  have hfills (v : UInt64) := Compact.fills_uint v
  refine ⟨fun v w herror hroom => ?_, hsize, fun v size => ?_, fun input pos hpos => ⟨fun hok => ?_, fun hfail => ?_⟩,
    fun v input before after hinput => ?_⟩
  · rw [Compact.Uint.encode_eq, hencode]
    exact (hfills v).write w herror (by rw [← hencode, hsize]; exact hroom)
  · rw [(hfills v).size, ← hencode, hsize]
  · rw [varintDecode_eq_uintDecode input hpos, if_neg (by simp [hok])]
  · rw [varintDecode_eq_uintDecode input hpos, if_pos hfail]
  · have hlength : input.1.length = before.length + varintSize v + after.length := by
      rw [hinput, List.length_append, List.length_append, hsize]
    have hdrop : input.1.drop before.length = varintEncode v ++ after := by
      rw [hinput, List.append_assoc, List.drop_left, Varint.encode_eq]
    have hvarint : Varint.decode input.1 before.length = (v, before.length + varintSize v) := by
      rw [Varint.decode_eq (by omega), hdrop, varintDecode_varintEncode]
      refine Prod.ext rfl ?_
      dsimp only
      omega
    have hbefore : before.length ≤ input.1.length := by omega
    have hin : Cursor.Inside input.1.length ⟨before.length, input.1.length, false⟩ := ⟨hbefore, le_rfl⟩
    refine ⟨hvarint, ?_⟩
    rw [Compact.Uint.decode_eq hin]
    exact uintRead_of_drop hin hdrop

end Protomux

end HyperDHT
