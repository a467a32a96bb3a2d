import HyperDHT.Compact.Ipv4
import HyperDHT.Lib.LittleEndian

/-!
# The compact encoding

The encoders and decoders of `compact.cpp` that the messages of the store use. A decoder works on
a cursor with a sticky error flag: after an error every decoder returns its default value, and the
flag stays up.

## Main definitions

* `Compact.State` — the bytes a decoder has not read yet, and the error flag.
* `Compact.uintEncode`, `bufferEncode`, `ipv4Encode`, `ipv6Encode`, `arrayEncode`.
* `Compact.uintDecode`, `bufferDecode`, `fixedDecode`, `ipv4Decode`, `ipv6Decode`, `arrayDecode`.

## Main results

* `Compact.uintDecode_uintEncode`, `bufferDecode_bufferEncode`, `fixedDecode_append`,
  `ipv4Decode_ipv4Encode`, `ipv6Decode_ipv6Encode`, `arrayDecode_arrayEncode` — decoding an encoding
  returns the value and stops right after it.
* `Compact.uintDecode_ok`, `fixedDecode_ok`, `arrayDecode_ok` — what a decoder that met no error has
  read.

## Design

An encoder of the source writes into a buffer of the size that its `preencode` pass has computed,
so it never meets the end of the buffer; here it returns the bytes.
-/

set_option autoImplicit false

namespace HyperDHT.Compact

open LittleEndian

/-! ## The cursor -/

/-- The bytes between the position and the end of the buffer, and the error flag. -/
structure State where
  rest : List UInt8
  error : Bool := false
  deriving DecidableEq

namespace State

/-- A cursor at the start of the bytes. -/
def forDecode (bytes : List UInt8) : State := { rest := bytes }

/-- The flag goes up. -/
def fail (s : State) : State := { s with error := true }

/-- The position moves on. -/
def skip (s : State) (n : ℕ) : State := { s with rest := s.rest.drop n }

/-- There are `n` more bytes. -/
def hasBytes (s : State) (n : ℕ) : Bool := n ≤ s.rest.length

end State

/-! ## Numbers -/

/-- The encoding of a number: one byte, or a marker and two, four or eight bytes. -/
def uintEncode (v : UInt64) : List UInt8 :=
  if v ≤ 0xFC then [v.toUInt8]
  else if v ≤ 0xFFFF then 0xFD :: toLe 2 v.toNat
  else if v ≤ 0xFFFFFFFF then 0xFE :: toLe 4 v.toNat
  else 0xFF :: toLe 8 v.toNat

/-- The `n` bytes after the marker. -/
def leDecode (n : ℕ) (s : State) : UInt64 × State :=
  if s.hasBytes n then (UInt64.ofNat (ofLe (s.rest.take n)), s.skip n) else (0, s.fail)

/-- The number of bytes after the first byte of a number. -/
def uintWidth (first : UInt8) : ℕ :=
  if first ≤ 0xFC then 0 else if first = 0xFD then 2 else if first = 0xFE then 4 else 8

/-- Read a number. -/
def uintDecode (s : State) : UInt64 × State :=
  if s.error then (0, s.fail)
  else
    match s.rest with
    | [] => (0, s.fail)
    | first :: _ =>
      if first ≤ 0xFC then (first.toUInt64, s.skip 1)
      else leDecode (uintWidth first) (s.skip 1)

/-- Read a number of two bytes (`Uint16`); zero on an error. -/
def uint16Decode (s : State) : UInt16 × State :=
  if s.error = false ∧ 2 ≤ s.rest.length then (UInt16.ofNat (ofLe (s.rest.take 2)), s.skip 2)
  else (0, s.fail)

/-! ## Byte strings -/

/-- The longest byte string that is decoded. -/
def maxBufferDecode : ℕ := 65536

/-- The encoding of a byte string; the empty one is a single zero. -/
def bufferEncode (data : List UInt8) : List UInt8 :=
  if data.isEmpty then [0] else uintEncode (UInt64.ofNat data.length) ++ data

/-- Read a byte string; the null string of the source is the empty one. -/
def bufferDecode (s : State) : List UInt8 × State :=
  let (len, s) := uintDecode s
  if s.error then ([], s)
  else if len = 0 then ([], s)
  else if len.toNat > maxBufferDecode then ([], s.fail)
  else if s.hasBytes len.toNat then (s.rest.take len.toNat, s.skip len.toNat)
  else ([], s.fail)

/-- Read `n` bytes (`Fixed32`, `Fixed64`); zeros on an error. -/
def fixedDecode (n : ℕ) (s : State) : List.Vector UInt8 n × State :=
  if h : s.error = false ∧ n ≤ s.rest.length then
    (⟨s.rest.take n, by simp [h.2]⟩, s.skip n)
  else (List.Vector.replicate n 0, s.fail)

/-! ## Addresses and arrays -/

/-- The encoding of an address: the octets and the port, low byte first. -/
def ipv4Encode (addr : Ipv4Address) : List UInt8 := addr.host.toList ++ toLe 2 addr.port.toNat

/-- Read an address; the zeroed one on an error. -/
def ipv4Decode (s : State) : Ipv4Address × State :=
  if h : s.error = false ∧ 6 ≤ s.rest.length then
    (⟨⟨s.rest.take 4, by simp; omega⟩, UInt16.ofNat (ofLe ((s.rest.drop 4).take 2))⟩, s.skip 6)
  else (Ipv4Address.zero, s.fail)

/-- An IPv6 address: sixteen octets in network order and a port. -/
structure Ipv6Address where
  host : List.Vector UInt8 16
  port : UInt16
  deriving DecidableEq

def Ipv6Address.zero : Ipv6Address := ⟨List.Vector.replicate 16 0, 0⟩

/-- The encoding of an IPv6 address: the octets and the port, low byte first. -/
def ipv6Encode (addr : Ipv6Address) : List UInt8 := addr.host.toList ++ toLe 2 addr.port.toNat

/-- Read an IPv6 address; the zeroed one on an error. -/
def ipv6Decode (s : State) : Ipv6Address × State :=
  if h : s.error = false ∧ 18 ≤ s.rest.length then
    (⟨⟨s.rest.take 16, by simp; omega⟩, UInt16.ofNat (ofLe ((s.rest.drop 16).take 2))⟩, s.skip 18)
  else (Ipv6Address.zero, s.fail)

/-- The largest array that is decoded. -/
def arrayMaxLength : ℕ := 4096

variable {α : Type*}

/-- The encoding of an array: its length and its elements. -/
def arrayEncode (encode : α → List UInt8) (items : List α) : List UInt8 :=
  uintEncode (UInt64.ofNat items.length) ++ items.flatMap encode

/-- The loop of the array decoder; the element that meets the error is the last one. -/
def arrayLoop (decode : State → α × State) : ℕ → State → List α × State
  | 0, s => ([], s)
  | n + 1, s =>
    if s.error then ([], s)
    else
      let item := decode s
      let items := arrayLoop decode n item.2
      (item.1 :: items.1, items.2)

/-- Read an array. -/
def arrayDecode (decode : State → α × State) (s : State) : List α × State :=
  let (count, s) := uintDecode s
  if s.error || count.toNat > arrayMaxLength then ([], s.fail)
  else arrayLoop decode count.toNat s

lemma length_uintEncode_le (v : UInt64) : (uintEncode v).length ≤ 9 := by
  simp only [uintEncode]
  split_ifs <;> simp

/-! ## A cursor keeps its error -/

section Failed

variable {s : State}

lemma uintDecode_failed (h : s.error = true) : uintDecode s = (0, s) := by
  obtain ⟨rest, error⟩ := s
  obtain rfl : error = true := h
  rfl

lemma bufferDecode_failed (h : s.error = true) : bufferDecode s = ([], s) := by
  simp [bufferDecode, uintDecode_failed h, h]

lemma arrayDecode_failed (decode : State → α × State) (h : s.error = true) :
    arrayDecode decode s = ([], s) := by
  obtain ⟨rest, error⟩ := s
  obtain rfl : error = true := h
  rfl

lemma bufferDecode_of_error (h : (bufferDecode s).2.error = true) : (bufferDecode s).1 = [] := by
  revert h
  unfold bufferDecode
  dsimp only
  split_ifs with hread hempty hlong hbytes
  · exact fun _ => rfl
  · exact fun _ => rfl
  · exact fun _ => rfl
  · exact fun herror => absurd herror hread
  · exact fun _ => rfl

lemma error_ipv4Decode_iff :
    (ipv4Decode s).2.error = false ↔ s.error = false ∧ 6 ≤ s.rest.length := by
  unfold ipv4Decode
  split
  next hread => simp [State.skip, hread]
  next hnot => simpa [State.fail] using hnot

lemma rest_eq_ipv4Encode (herror : s.error = false) (h : 6 ≤ s.rest.length) :
    s.rest = ipv4Encode (ipv4Decode s).1 ++ s.rest.drop 6 := by
  have hlength : ((s.rest.drop 4).take 2).length = 2 := by simp; omega
  have hport : (UInt16.ofNat (ofLe ((s.rest.drop 4).take 2))).toNat =
      ofLe ((s.rest.drop 4).take 2) := by
    have hlt := ofLe_lt ((s.rest.drop 4).take 2)
    rw [hlength] at hlt
    rw [UInt16.toNat_ofNat']
    exact Nat.mod_eq_of_lt hlt
  have hbytes : toLe 2 (ofLe ((s.rest.drop 4).take 2)) =
      (s.rest.drop 4).take 2 := by
    have hround := toLe_ofLe ((s.rest.drop 4).take 2)
    rwa [hlength] at hround
  have hdrop : s.rest.drop 6 = (s.rest.drop 4).drop 2 := by rw [List.drop_drop]
  rw [ipv4Decode, dif_pos ⟨herror, h⟩, ipv4Encode]
  dsimp only
  rw [hport, hbytes, hdrop, List.append_assoc, List.take_append_drop]
  exact (List.take_append_drop 4 s.rest).symm

end Failed

/-! ## Round trips -/

lemma leDecode_toLe {n : ℕ} {v : UInt64} (h : v.toNat < 256 ^ n) (rest : List UInt8) :
    leDecode n ⟨toLe n v.toNat ++ rest, false⟩ = (v, ⟨rest, false⟩) := by
  have htake : (toLe n v.toNat ++ rest).take n = toLe n v.toNat :=
    List.take_left' (length_toLe n _)
  have hdrop : (toLe n v.toNat ++ rest).drop n = rest :=
    List.drop_left' (length_toLe n _)
  simp [leDecode, State.hasBytes, State.skip, htake, hdrop, ofLe_toLe h]

/-- **Round trip of numbers**: decoding an encoding, whatever follows it, returns the number and
stops right after it. -/
theorem uintDecode_uintEncode (v : UInt64) (rest : List UInt8) :
    uintDecode ⟨uintEncode v ++ rest, false⟩ = (v, ⟨rest, false⟩) := by
  have hlt := v.toNat_lt
  simp only [uintEncode, UInt64.le_iff_toNat_le]
  split_ifs with h1 h2 h3
  · -- one byte: the number is the byte
    have hle : v.toUInt8 ≤ 0xFC := by
      rw [UInt8.le_iff_toNat_le, UInt64.toNat_toUInt8]
      simp only [UInt64.reduceToNat, UInt8.reduceToNat] at h1 ⊢
      omega
    have hval : v.toUInt8.toUInt64 = v := by
      rw [← UInt64.toNat_inj, UInt8.toNat_toUInt64, UInt64.toNat_toUInt8]
      simp only [UInt64.reduceToNat] at h1
      omega
    simp [uintDecode, State.skip, hle, hval]
  · have hfits : v.toNat < 256 ^ 2 := by
      simp only [UInt64.reduceToNat] at h2
      omega
    simpa [uintDecode, uintWidth, State.skip] using leDecode_toLe hfits rest
  · have hfits : v.toNat < 256 ^ 4 := by
      simp only [UInt64.reduceToNat] at h3
      omega
    simpa [uintDecode, uintWidth, State.skip] using leDecode_toLe hfits rest
  · have hfits : v.toNat < 256 ^ 8 := by omega
    simpa [uintDecode, uintWidth, State.skip] using leDecode_toLe hfits rest

/-- **Round trip of numbers of two bytes.** -/
theorem uint16Decode_toLe (v : UInt16) (rest : List UInt8) :
    uint16Decode ⟨toLe 2 v.toNat ++ rest, false⟩ = (v, ⟨rest, false⟩) := by
  have hlen : (toLe 2 v.toNat).length = 2 := length_toLe 2 _
  have hfits : v.toNat < 256 ^ 2 := v.toNat_lt
  rw [uint16Decode, if_pos ⟨rfl, by simp⟩]
  refine Prod.ext ?_ ?_
  · simp [List.take_left' hlen, ofLe_toLe hfits]
  · simp [State.skip, List.drop_left' hlen]

/-- **Round trip of byte strings** that are not too long. -/
theorem bufferDecode_bufferEncode {data : List UInt8} (h : data.length ≤ maxBufferDecode)
    (rest : List UInt8) :
    bufferDecode ⟨bufferEncode data ++ rest, false⟩ = (data, ⟨rest, false⟩) := by
  cases data with
  | nil => simp [bufferEncode, bufferDecode, uintDecode, State.skip]
  | cons b data =>
    have hlen : (UInt64.ofNat (b :: data).length).toNat = (b :: data).length := by
      rw [UInt64.toNat_ofNat']
      exact Nat.mod_eq_of_lt (by simp only [maxBufferDecode] at h; omega)
    have hne : UInt64.ofNat (b :: data).length ≠ 0 := by
      intro hzero
      rw [hzero] at hlen
      simp at hlen
    rw [bufferEncode, if_neg (by simp), List.append_assoc, bufferDecode, uintDecode_uintEncode]
    simp only [hlen, hne, Bool.false_eq_true, if_false]
    rw [if_neg (not_lt.2 h), if_pos (by simp [State.hasBytes])]
    simp [State.skip]

lemma bufferEncode_injective {bytes bytes' : List UInt8} (h : bytes ≠ []) (h' : bytes' ≠ [])
    (heq : bufferEncode bytes = bufferEncode bytes') : bytes = bytes' := by
  rw [bufferEncode, bufferEncode, if_neg (by simpa using h), if_neg (by simpa using h')] at heq
  have hrest := congrArg (fun bytes => (uintDecode ⟨bytes, false⟩).2.rest) heq
  simpa only [uintDecode_uintEncode] using hrest

/-- **Round trip of fixed byte strings.** -/
theorem fixedDecode_append {n : ℕ} (v : List.Vector UInt8 n) (rest : List UInt8) :
    fixedDecode n ⟨v.toList ++ rest, false⟩ = (v, ⟨rest, false⟩) := by
  have hlen : v.toList.length = n := v.toList_length
  rw [fixedDecode, dif_pos (by simp)]
  refine Prod.ext (List.Vector.eq _ _ ?_) ?_
  · simp [List.take_left' hlen]
  · simp [State.skip, List.drop_left' hlen]

/-- **Round trip of addresses.** -/
theorem ipv4Decode_ipv4Encode (addr : Ipv4Address) (rest : List UInt8) :
    ipv4Decode ⟨ipv4Encode addr ++ rest, false⟩ = (addr, ⟨rest, false⟩) := by
  have hhost : addr.host.toList.length = 4 := addr.host.toList_length
  have hport : (toLe 2 addr.port.toNat).length = 2 := length_toLe 2 _
  have hfits : addr.port.toNat < 256 ^ 2 := addr.port.toNat_lt
  rw [ipv4Decode, dif_pos ⟨rfl, by simp [ipv4Encode, hhost, hport]; omega⟩]
  refine Prod.ext ?_ ?_
  · simp [ipv4Encode, List.take_left' hhost, List.drop_left' hhost, List.take_left' hport,
      ofLe_toLe hfits]
  · simp [ipv4Encode, State.skip, List.drop_append, hhost, hport]

/-- **Round trip of IPv6 addresses.** -/
theorem ipv6Decode_ipv6Encode (addr : Ipv6Address) (rest : List UInt8) :
    ipv6Decode ⟨ipv6Encode addr ++ rest, false⟩ = (addr, ⟨rest, false⟩) := by
  have hhost : addr.host.toList.length = 16 := addr.host.toList_length
  have hport : (toLe 2 addr.port.toNat).length = 2 := length_toLe 2 _
  have hfits : addr.port.toNat < 256 ^ 2 := addr.port.toNat_lt
  rw [ipv6Decode, dif_pos ⟨rfl, by simp [ipv6Encode, hhost, hport]; omega⟩]
  refine Prod.ext ?_ ?_
  · simp [ipv6Encode, List.take_left' hhost, List.drop_left' hhost, List.take_left' hport,
      ofLe_toLe hfits]
  · simp [ipv6Encode, State.skip, List.drop_append, hhost, hport]

/-- **Round trip of arrays** that are not too long, whose elements are read back. -/
theorem arrayDecode_arrayEncode {α : Type*} {encode : α → List UInt8} {decode : State → α × State}
    (hround : ∀ item rest, decode ⟨encode item ++ rest, false⟩ = (item, ⟨rest, false⟩))
    {items : List α} (hlen : items.length ≤ arrayMaxLength) (rest : List UInt8) :
    arrayDecode decode ⟨arrayEncode encode items ++ rest, false⟩ = (items, ⟨rest, false⟩) := by
  have hloop : ∀ items : List α, arrayLoop decode items.length
      ⟨items.flatMap encode ++ rest, false⟩ = (items, ⟨rest, false⟩) := by
    intro items
    induction items with
    | nil => rfl
    | cons item items ih => simp [arrayLoop, List.flatMap_cons, List.append_assoc, hround, ih]
  have hcount : (UInt64.ofNat items.length).toNat = items.length := by
    rw [UInt64.toNat_ofNat']
    exact Nat.mod_eq_of_lt (by simp only [arrayMaxLength] at hlen; omega)
  simp [arrayDecode, arrayEncode, List.append_assoc, uintDecode_uintEncode, hcount, hloop,
    not_lt.2 hlen]

/-! ## What a decoder has read -/

lemma uintDecode_ok {bytes : List UInt8} (h : (uintDecode ⟨bytes, false⟩).2.error = false) :
    ∃ first tail, bytes = first :: tail ∧ uintWidth first ≤ tail.length ∧
      (uintDecode ⟨bytes, false⟩).2 = ⟨tail.drop (uintWidth first), false⟩ ∧
      (first ≤ 0xFC ∧ (uintDecode ⟨bytes, false⟩).1 = first.toUInt64 ∨
        ¬ first ≤ 0xFC ∧
          (uintDecode ⟨bytes, false⟩).1 = UInt64.ofNat (ofLe (tail.take (uintWidth first)))) := by
  cases bytes with
  | nil => simp [uintDecode, State.fail] at h
  | cons first tail =>
    refine ⟨first, tail, rfl, ?_⟩
    by_cases hshort : first ≤ 0xFC
    · have hwidth : uintWidth first = 0 := by simp [uintWidth, hshort]
      simp [uintDecode, hshort, hwidth, State.skip]
    · by_cases hroom : uintWidth first ≤ tail.length
      · simp [uintDecode, hshort, leDecode, State.hasBytes, State.skip, hroom]
      · simp [uintDecode, hshort, leDecode, State.hasBytes, State.skip, hroom, State.fail] at h

lemma fixedDecode_ok {n : ℕ} {bytes : List UInt8}
    (h : (fixedDecode n ⟨bytes, false⟩).2.error = false) :
    n ≤ bytes.length ∧ (fixedDecode n ⟨bytes, false⟩).1.toList = bytes.take n ∧
      (fixedDecode n ⟨bytes, false⟩).2 = ⟨bytes.drop n, false⟩ := by
  by_cases hroom : n ≤ bytes.length
  · refine ⟨hroom, ?_⟩
    rw [fixedDecode, dif_pos ⟨rfl, hroom⟩]
    exact ⟨rfl, rfl⟩
  · simp [fixedDecode, hroom, State.fail] at h

lemma arrayLoop_ipv4_ok {n : ℕ} {s : State} (h : (arrayLoop ipv4Decode n s).2.error = false) :
    6 * (arrayLoop ipv4Decode n s).1.length ≤ s.rest.length := by
  induction n generalizing s with
  | zero => simp [arrayLoop]
  | succ n ih =>
    by_cases herror : s.error = true
    · simp [arrayLoop, herror]
    · by_cases hroom : 6 ≤ s.rest.length
      · have hread : (ipv4Decode s).2 = s.skip 6 := by
          rw [ipv4Decode, dif_pos ⟨by simpa using herror, hroom⟩]
        simp only [arrayLoop, herror, Bool.false_eq_true, if_false, hread] at h ⊢
        have hrest := ih h
        have hlen : (s.skip 6).rest.length = s.rest.length - 6 := List.length_drop
        rw [hlen] at hrest
        simp only [List.length_cons]
        omega
      · -- the address met the end of the bytes, and the error stays
        have hread : (ipv4Decode s).2 = s.fail := by
          rw [ipv4Decode, dif_neg (by simp [hroom])]
        have hstop : arrayLoop ipv4Decode n s.fail = ([], s.fail) := by
          cases n with
          | zero => rfl
          | succ n => simp [arrayLoop, State.fail]
        simp only [arrayLoop, herror, Bool.false_eq_true, if_false, hread, hstop] at h
        simp [State.fail] at h

lemma length_arrayLoop_ipv4 (n : ℕ) (bytes : List UInt8) :
    min n (bytes.length / 6 + 1) ≤ (arrayLoop ipv4Decode n ⟨bytes, false⟩).1.length := by
  induction n generalizing bytes with
  | zero => simp [arrayLoop]
  | succ n ih =>
    simp only [arrayLoop, Bool.false_eq_true, if_false, List.length_cons]
    by_cases hroom : 6 ≤ bytes.length
    · have hread : (ipv4Decode ⟨bytes, false⟩).2 = ⟨bytes.drop 6, false⟩ := by
        rw [ipv4Decode, dif_pos ⟨rfl, hroom⟩]
        rfl
      rw [hread]
      have hrest := ih (bytes.drop 6)
      simp only [List.length_drop] at hrest
      omega
    · omega

lemma arrayDecode_ok {bytes : List UInt8}
    (h : (arrayDecode ipv4Decode ⟨bytes, false⟩).2.error = false) :
    1 + 6 * (arrayDecode ipv4Decode ⟨bytes, false⟩).1.length ≤ bytes.length := by
  simp only [arrayDecode] at h ⊢
  split at h
  · simp [State.fail] at h
  · next hcount =>
    rw [if_neg hcount]
    have hread : (uintDecode ⟨bytes, false⟩).2.error = false := by
      simp only [Bool.or_eq_true, not_or, Bool.not_eq_true] at hcount
      exact hcount.1
    obtain ⟨first, tail, rfl, -, hstate, -⟩ := uintDecode_ok hread
    have hloop := arrayLoop_ipv4_ok h
    rw [hstate] at hloop ⊢
    simp only [List.length_drop, List.length_cons] at hloop ⊢
    omega

end HyperDHT.Compact
