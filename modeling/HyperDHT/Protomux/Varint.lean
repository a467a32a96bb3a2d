import HyperDHT.Lib.LittleEndian

/-!
# Variable-length integers and length-prefixed buffers

The encoders and decoders at the top of `protomux.cpp`. A decoder of the source moves a pointer
towards the end of its buffer; here it returns what it read and the bytes it left.

## Main definitions

* `Protomux.Bytes` — a byte string as the source has it, with a length that fits in `size_t`.
* `Protomux.varintSize`, `varintEncode`, `varintDecode`.
* `Protomux.WholeVarint` — a varint is not cut off.
* `Protomux.bufferEncode`, `Protomux.bufferDecode` — a length-prefixed byte string.
* `Protomux.toHex`, `Protomux.buildPairKey` — the key `protocol##hex(id)` of a channel.

## Main results

* `Protomux.varintDecode_varintEncode`, `Protomux.bufferDecode_bufferEncode` — decoding an
  encoding returns the value and stops right after it.
* `Protomux.length_varintEncode`, `Protomux.length_bufferEncode` — the size functions are the
  lengths of the encodings, so that a buffer allocated with them is filled exactly.
-/

set_option autoImplicit false

namespace HyperDHT.Protomux

open LittleEndian

/-- A byte string whose length is a `size_t`. -/
abbrev Bytes := { bytes : List UInt8 // bytes.length < 2 ^ 64 }

/-- The empty byte string. -/
abbrev Bytes.nil : Bytes := ⟨[], by decide⟩

/-- A byte string of one byte. -/
abbrev Bytes.single (byte : UInt8) : Bytes := ⟨[byte], by simp⟩

/-- The length of a byte string, as `size_t`. -/
def Bytes.size (bytes : Bytes) : UInt64 := UInt64.ofNat bytes.1.length

@[simp] lemma Bytes.toNat_size (bytes : Bytes) : bytes.size.toNat = bytes.1.length := by
  simp only [Bytes.size, UInt64.toNat_ofNat']
  exact Nat.mod_eq_of_lt bytes.2

/-! ## Varints -/

/-- The number of bytes of the encoding of a value. -/
def varintSize (value : UInt64) : ℕ :=
  if value ≤ 0xFC then 1
  else if value ≤ 0xFFFF then 3
  else if value ≤ 0xFFFFFFFF then 5
  else 9

/-- The encoding: one byte, or a marker and the value in two, four or eight bytes. -/
def varintEncode (value : UInt64) : List UInt8 :=
  if value ≤ 0xFC then [value.toUInt8]
  else if value ≤ 0xFFFF then 0xFD :: toLe 2 value.toNat
  else if value ≤ 0xFFFFFFFF then 0xFE :: toLe 4 value.toNat
  else 0xFF :: toLe 8 value.toNat

/-- Read a value of `n` bytes. A truncated value is zero and moves the pointer to the end. -/
def fixedDecode (n : ℕ) (bytes : List UInt8) : UInt64 × List UInt8 :=
  if bytes.length < n then (0, [])
  else (UInt64.ofNat (ofLe (bytes.take n)), bytes.drop n)

/-- Read a varint. At the end of the buffer the value is zero. -/
def varintDecode : List UInt8 → UInt64 × List UInt8
  | [] => (0, [])
  | first :: rest =>
    if first ≤ 0xFC then (first.toUInt64, rest)
    else if first = 0xFD then fixedDecode 2 rest
    else if first = 0xFE then fixedDecode 4 rest
    else fixedDecode 8 rest

/-- The size function is the length of the encoding. -/
@[simp] lemma length_varintEncode (value : UInt64) :
    (varintEncode value).length = varintSize value := by
  simp only [varintEncode, varintSize]
  split_ifs <;> simp

lemma varintEncode_ne_nil (value : UInt64) : varintEncode value ≠ [] := by
  simp only [varintEncode]
  split_ifs <;> simp

lemma fixedDecode_toLe {n : ℕ} {value : UInt64} (h : value.toNat < 256 ^ n)
    (rest : List UInt8) : fixedDecode n (toLe n value.toNat ++ rest) = (value, rest) := by
  have htake : (toLe n value.toNat ++ rest).take n = toLe n value.toNat :=
    List.take_left' (length_toLe n _)
  have hdrop : (toLe n value.toNat ++ rest).drop n = rest :=
    List.drop_left' (length_toLe n _)
  rw [fixedDecode, if_neg (by simp), htake, hdrop, ofLe_toLe h]
  simp

/-- **Round trip of varints**: decoding an encoding, whatever follows it, returns the value and
stops right after it. -/
theorem varintDecode_varintEncode (value : UInt64) (rest : List UInt8) :
    varintDecode (varintEncode value ++ rest) = (value, rest) := by
  have hlt := value.toNat_lt
  simp only [varintEncode, UInt64.le_iff_toNat_le]
  split_ifs with h1 h2 h3
  · -- one byte: the value is the byte
    have hle : value.toUInt8 ≤ 0xFC := by
      rw [UInt8.le_iff_toNat_le, UInt64.toNat_toUInt8]
      simp only [UInt64.reduceToNat, UInt8.reduceToNat] at h1 ⊢
      omega
    have hval : value.toUInt8.toUInt64 = value := by
      rw [← UInt64.toNat_inj, UInt8.toNat_toUInt64, UInt64.toNat_toUInt8]
      simp only [UInt64.reduceToNat] at h1
      omega
    simp [varintDecode, hle, hval]
  · have hfits : value.toNat < 256 ^ 2 := by
      simp only [UInt64.reduceToNat] at h2
      omega
    simpa [varintDecode] using fixedDecode_toLe hfits rest
  · have hfits : value.toNat < 256 ^ 4 := by
      simp only [UInt64.reduceToNat] at h3
      omega
    simpa [varintDecode] using fixedDecode_toLe hfits rest
  · have hfits : value.toNat < 256 ^ 8 := by omega
    simpa [varintDecode] using fixedDecode_toLe hfits rest

/-- How many bytes follow the first one. -/
def varintBytes (first : UInt8) : ℕ :=
  if first ≤ 0xFC then 0 else if first = 0xFD then 2 else if first = 0xFE then 4 else 8

/-- A varint is there as a whole. -/
def WholeVarint : List UInt8 → Prop
  | [] => False
  | first :: rest => varintBytes first ≤ rest.length

instance : DecidablePred WholeVarint
  | [] => .isFalse id
  | first :: rest => inferInstanceAs (Decidable (varintBytes first ≤ rest.length))

lemma wholeVarint_varintEncode (value : UInt64) (rest : List UInt8) :
    WholeVarint (varintEncode value ++ rest) := by
  unfold varintEncode
  split_ifs with hone
  · have hfirst : value.toUInt8 ≤ 0xFC := by
      rw [UInt8.le_iff_toNat_le, UInt64.toNat_toUInt8]
      rw [UInt64.le_iff_toNat_le] at hone
      simp only [UInt64.reduceToNat, UInt8.reduceToNat] at hone ⊢
      omega
    simp [WholeVarint, varintBytes, hfirst]
  all_goals simp [WholeVarint, varintBytes]

lemma length_varintDecode_lt {bytes : List UInt8} (h : bytes ≠ []) :
    (varintDecode bytes).2.length < bytes.length := by
  cases bytes with
  | nil => exact absurd rfl h
  | cons first rest =>
    have hfixed : ∀ n, (fixedDecode n rest).2.length ≤ rest.length := by
      intro n
      simp only [fixedDecode]
      split_ifs <;> simp
    simp only [varintDecode, List.length_cons]
    split_ifs
    · simp
    all_goals exact Nat.lt_succ_of_le (hfixed _)

/-! ## Length-prefixed buffers and strings -/

/-- The number of bytes of a length-prefixed buffer (`buffer_preencode`, and
`string_preencode` for the bytes of a string). -/
def bufferPreencode (len : UInt64) : ℕ := varintSize len + len.toNat

/-- A length-prefixed buffer (`buffer_encode`, and `string_encode` for the bytes of a
string). -/
def bufferEncode (data : Bytes) : List UInt8 := varintEncode data.size ++ data.1

/-- Read a length-prefixed buffer (`buffer_decode` and `string_decode`). An empty or truncated
buffer is empty and leaves the pointer after the length. -/
def bufferDecode (bytes : List UInt8) : List UInt8 × List UInt8 :=
  let (len, rest) := varintDecode bytes
  if len = 0 ∨ len.toNat > rest.length then ([], rest)
  else (rest.take len.toNat, rest.drop len.toNat)

@[simp] lemma length_bufferEncode (data : Bytes) :
    (bufferEncode data).length = bufferPreencode data.size := by
  simp [bufferEncode, bufferPreencode]

/-- **Round trip of buffers**: decoding an encoding, whatever follows it, returns the bytes and
stops right after them. -/
theorem bufferDecode_bufferEncode (data : Bytes) (rest : List UInt8) :
    bufferDecode (bufferEncode data ++ rest) = (data.1, rest) := by
  rw [bufferEncode, List.append_assoc, bufferDecode, varintDecode_varintEncode]
  simp only [Bytes.toNat_size, List.length_append]
  split_ifs with h
  · -- only the empty buffer has length zero, and no encoding is truncated
    have hlen : data.1.length = 0 := by
      rcases h with h | h
      · simpa using congrArg UInt64.toNat h
      · omega
    simp [List.eq_nil_of_length_eq_zero hlen]
  · simp

/-! ## Pair keys -/

/-- The digits of `to_hex`, as bytes of text. -/
def hexDigit (n : ℕ) : UInt8 := UInt8.ofNat (if n < 10 then 48 + n else 87 + n)

/-- Two hexadecimal digits a byte. -/
def toHex (data : List UInt8) : List UInt8 :=
  data.flatMap fun b => [hexDigit (b.toNat / 16), hexDigit (b.toNat % 16)]

/-- The key of a channel: the protocol, two `#` and the hexadecimal id. -/
def buildPairKey (protocol id : List UInt8) : List UInt8 := protocol ++ [35, 35] ++ toHex id

end HyperDHT.Protomux
