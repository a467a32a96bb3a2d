import HyperDHT.Compact.Codec

/-!
# Encoding in two passes

An encoder of the source goes through the fields of its message twice: the `preencode` pass adds up
the size of the buffer, and the `encode` pass writes into a buffer of that size, with an error flag
that goes up when the buffer is too short. The two passes are written by hand, so that they may
drift apart.

## Main definitions

* `Compact.Writer` — the cursor of the second pass.
* `Compact.uintPreencode`, `Compact.uintWrite` and so on — the two passes of each field.
* `Compact.Fills` — the two passes of a field agree on its bytes.
* `Compact.encoded` — the cursor after the two passes over a list of fields.

## Main results

* `Compact.fills_uint`, `fills_buffer`, `fills_fixed`, `fills_ipv4`, `fills_ipv6`, `fills_array`,
  `fills_optionally`, `fills_unlessEmpty` — the fields.
* `Compact.AllFill.encoded_eq` — fields whose passes agree fill the buffer exactly.

## Design

The position of the cursor is the number of the bytes that were written. The sizes are those of
objects in memory, so that their sum does not wrap around.
-/

set_option autoImplicit false

namespace HyperDHT.Compact

open LittleEndian

/-! ## The cursor -/

/-- The cursor of an encoder: the bytes before its position, the size of the buffer, and the error
flag. -/
structure Writer where
  written : List UInt8 := []
  size : ℕ
  error : Bool := false
  deriving DecidableEq

namespace Writer

/-- The flag goes up. -/
def fail (w : Writer) : Writer := { w with error := true }

/-- There is room for `n` more bytes. -/
def hasBytes (w : Writer) (n : ℕ) : Bool := w.written.length ≤ w.size ∧ n ≤ w.size - w.written.length

/-- Write the bytes, if there was no error and there is room for them. -/
def put (bytes : List UInt8) (w : Writer) : Writer :=
  if w.error || !w.hasBytes bytes.length then w.fail
  else { w with written := w.written ++ bytes }

/-- The whole buffer, with the zeros that were not written over. -/
def buffer (w : Writer) : List UInt8 :=
  w.written ++ List.replicate (w.size - w.written.length) 0

/-- The buffer was filled exactly, without an error. -/
structure Full (w : Writer) : Prop where
  error : w.error = false
  length : w.written.length = w.size

lemma Full.buffer_eq {w : Writer} (h : w.Full) : w.buffer = w.written := by
  simp [buffer, h.length]

end Writer

/-! ## The two passes of the fields -/

def uintPreencode (v : UInt64) (size : ℕ) : ℕ :=
  if v ≤ 0xFC then size + 1
  else if v ≤ 0xFFFF then size + 3
  else if v ≤ 0xFFFFFFFF then size + 5
  else size + 9

def uintWrite (v : UInt64) (w : Writer) : Writer :=
  if v ≤ 0xFC then w.put [v.toUInt8]
  else if v ≤ 0xFFFF then w.put (0xFD :: toLe 2 v.toNat)
  else if v ≤ 0xFFFFFFFF then w.put (0xFE :: toLe 4 v.toNat)
  else w.put (0xFF :: toLe 8 v.toNat)

def uint16Preencode (size : ℕ) : ℕ := size + 2

def uint16Write (v : UInt16) (w : Writer) : Writer := w.put (toLe 2 v.toNat)

def bufferPreencode (data : List UInt8) (size : ℕ) : ℕ :=
  if data.isEmpty then size + 1 else uintPreencode (UInt64.ofNat data.length) size + data.length

def bufferWrite (data : List UInt8) (w : Writer) : Writer :=
  if data.isEmpty then w.put [0] else (uintWrite (UInt64.ofNat data.length) w).put data

def fixedPreencode {n : ℕ} (_ : List.Vector UInt8 n) (size : ℕ) : ℕ := size + n

def fixedWrite {n : ℕ} (v : List.Vector UInt8 n) (w : Writer) : Writer := w.put v.toList

def ipv4Preencode (_ : Ipv4Address) (size : ℕ) : ℕ := size + 6

def ipv4Write (addr : Ipv4Address) (w : Writer) : Writer :=
  w.put (addr.host.toList ++ toLe 2 addr.port.toNat)

def ipv6Preencode (_ : Ipv6Address) (size : ℕ) : ℕ := size + 18

def ipv6Write (addr : Ipv6Address) (w : Writer) : Writer :=
  w.put (addr.host.toList ++ toLe 2 addr.port.toNat)

section Combinators

variable {α σ : Type*}

def arrayPreencode (preencode : α → ℕ → ℕ) (items : List α) (size : ℕ) : ℕ :=
  items.foldl (fun size item => preencode item size)
    (uintPreencode (UInt64.ofNat items.length) size)

def arrayWrite (write : α → Writer → Writer) (items : List α) (w : Writer) : Writer :=
  items.foldl (fun w item => write item w) (uintWrite (UInt64.ofNat items.length) w)

/-- A pass over a field that may be missing. -/
def optionally (pass : α → σ → σ) : Option α → σ → σ
  | none, s => s
  | some a, s => pass a s

/-- A pass over a list that is left out when it is empty. -/
def unlessEmpty (pass : List α → σ → σ) (items : List α) (s : σ) : σ :=
  if items.isEmpty then s else pass items s

/-- A pass over a field that is left out unless a condition holds. -/
def onlyIf (condition : Bool) (pass : σ → σ) (s : σ) : σ := if condition then pass s else s

end Combinators

/-! ## Passes that agree -/

/-- The first pass counts the bytes, and the second one writes them if there is room. -/
structure Fills (preencode : ℕ → ℕ) (write : Writer → Writer) (bytes : List UInt8) : Prop where
  size : ∀ size, preencode size = size + bytes.length
  write : ∀ w : Writer, w.error = false → w.written.length + bytes.length ≤ w.size →
    write w = { w with written := w.written ++ bytes }

lemma fills_put {preencode : ℕ → ℕ} {bytes : List UInt8}
    (h : ∀ size, preencode size = size + bytes.length) :
    Fills preencode (fun w => w.put bytes) bytes := by
  refine ⟨h, fun w herror hroom => ?_⟩
  have hbytes : w.hasBytes bytes.length = true := by
    simp only [Writer.hasBytes, decide_eq_true_eq]
    omega
  simp [Writer.put, herror, hbytes]

lemma fills_nil : Fills (fun size => size) (fun w => w) [] := ⟨fun _ => rfl, fun w _ _ => by simp⟩

lemma Fills.comp {p q : ℕ → ℕ} {f g : Writer → Writer} {b c : List UInt8} (h : Fills p f b)
    (h' : Fills q g c) : Fills (fun size => q (p size)) (fun w => g (f w)) (b ++ c) := by
  refine ⟨fun size => ?_, fun w herror hroom => ?_⟩
  · rw [h'.size, h.size, List.length_append, Nat.add_assoc]
  · rw [List.length_append] at hroom
    have hroom' : (w.written ++ b).length + c.length ≤ w.size := by
      rw [List.length_append]
      omega
    simp only [h.write w herror (by omega)]
    rw [h'.write { w with written := w.written ++ b } herror hroom', List.append_assoc]

lemma fills_uint (v : UInt64) : Fills (uintPreencode v) (uintWrite v) (uintEncode v) := by
  have hwrite : uintWrite v = fun w => w.put (uintEncode v) := by
    funext w
    simp only [uintWrite, uintEncode]
    split_ifs <;> rfl
  have hsize : ∀ size, uintPreencode v size = size + (uintEncode v).length := by
    intro size
    simp only [uintPreencode, uintEncode]
    split_ifs <;> simp
  rw [hwrite]
  exact fills_put hsize

lemma fills_uint16 (v : UInt16) : Fills uint16Preencode (uint16Write v) (toLe 2 v.toNat) :=
  fills_put fun size => by simp [uint16Preencode]

lemma fills_buffer (data : List UInt8) :
    Fills (bufferPreencode data) (bufferWrite data) (bufferEncode data) := by
  cases data with
  | nil => exact @fills_put (bufferPreencode []) [0] fun _ => rfl
  | cons b data =>
    have hdata : Fills (fun size => size + (b :: data).length) (fun w => w.put (b :: data))
        (b :: data) := fills_put fun _ => rfl
    exact (fills_uint (UInt64.ofNat (b :: data).length)).comp hdata

lemma fills_fixed {n : ℕ} (v : List.Vector UInt8 n) :
    Fills (fixedPreencode v) (fixedWrite v) v.toList :=
  fills_put fun size => by simp [fixedPreencode]

lemma fills_ipv4 (addr : Ipv4Address) :
    Fills (ipv4Preencode addr) (ipv4Write addr) (ipv4Encode addr) :=
  fills_put fun size => by simp [ipv4Preencode]

lemma fills_ipv6 (addr : Ipv6Address) :
    Fills (ipv6Preencode addr) (ipv6Write addr) (ipv6Encode addr) :=
  fills_put fun size => by simp [ipv6Preencode]

section Combinators

variable {α : Type*} {preencode : α → ℕ → ℕ} {write : α → Writer → Writer}
  {encode : α → List UInt8}

lemma fills_foldl (h : ∀ a, Fills (preencode a) (write a) (encode a)) (items : List α) :
    Fills (fun size => items.foldl (fun size item => preencode item size) size)
      (fun w => items.foldl (fun w item => write item w) w) (items.flatMap encode) := by
  induction items with
  | nil => exact fills_nil
  | cons a items ih => exact (h a).comp ih

lemma fills_array (h : ∀ a, Fills (preencode a) (write a) (encode a)) (items : List α) :
    Fills (arrayPreencode preencode items) (arrayWrite write items) (arrayEncode encode items) :=
  (fills_uint _).comp (fills_foldl h items)

lemma fills_optionally (h : ∀ a, Fills (preencode a) (write a) (encode a)) (x : Option α) :
    Fills (optionally preencode x) (optionally write x) ((x.map encode).getD []) := by
  cases x with
  | none => exact fills_nil
  | some a => exact h a

lemma fills_unlessEmpty {preencode : List α → ℕ → ℕ} {write : List α → Writer → Writer}
    {encode : List α → List UInt8} (h : ∀ l, Fills (preencode l) (write l) (encode l))
    (items : List α) :
    Fills (unlessEmpty preencode items) (unlessEmpty write items)
      (if items.isEmpty then [] else encode items) := by
  cases items with
  | nil => exact fills_nil
  | cons a items => exact h (a :: items)

lemma fills_onlyIf {p : ℕ → ℕ} {f : Writer → Writer} {b : List UInt8} (h : Fills p f b)
    (condition : Bool) :
    Fills (onlyIf condition p) (onlyIf condition f) (if condition then b else []) := by
  cases condition with
  | false => exact fills_nil
  | true => exact h

end Combinators

/-! ## Messages -/

/-- The first pass over the fields of a message. -/
def preencoded (passes : List (ℕ → ℕ)) : ℕ := passes.foldl (fun size pass => pass size) 0

/-- The cursor after the second pass over the fields of a message, on a buffer of the size that the
first pass has computed. -/
def encoded (preencodes : List (ℕ → ℕ)) (writes : List (Writer → Writer)) : Writer :=
  writes.foldl (fun w write => write w) { size := preencoded preencodes }

/-- The two passes agree, field by field. -/
inductive AllFill : List (ℕ → ℕ) → List (Writer → Writer) → List UInt8 → Prop
  | nil : AllFill [] [] []
  | cons {p : ℕ → ℕ} {f : Writer → Writer} {b : List UInt8} {ps : List (ℕ → ℕ)}
      {fs : List (Writer → Writer)} {bs : List UInt8} (h : Fills p f b) (hs : AllFill ps fs bs) :
      AllFill (p :: ps) (f :: fs) (b ++ bs)

lemma AllFill.fills {ps : List (ℕ → ℕ)} {fs : List (Writer → Writer)} {bytes : List UInt8}
    (h : AllFill ps fs bytes) :
    Fills (fun size => ps.foldl (fun size pass => pass size) size)
      (fun w => fs.foldl (fun w write => write w) w) bytes := by
  induction h with
  | nil => exact fills_nil
  | cons h _ ih => exact h.comp ih

/-- **Passes that agree fill the buffer exactly.** -/
theorem AllFill.encoded_eq {ps : List (ℕ → ℕ)} {fs : List (Writer → Writer)} {bytes : List UInt8}
    (h : AllFill ps fs bytes) :
    encoded ps fs = { written := bytes, size := bytes.length } := by
  have hsize : preencoded ps = bytes.length := by
    have := h.fills.size 0
    rwa [Nat.zero_add] at this
  have hwrite := h.fills.write { size := preencoded ps } rfl (by simp [hsize])
  rw [encoded]
  refine hwrite.trans ?_
  simp [hsize]

lemma AllFill.full {ps : List (ℕ → ℕ)} {fs : List (Writer → Writer)} {bytes : List UInt8}
    (h : AllFill ps fs bytes) : (encoded ps fs).Full := by
  rw [h.encoded_eq]
  exact ⟨rfl, rfl⟩

lemma AllFill.buffer_eq {ps : List (ℕ → ℕ)} {fs : List (Writer → Writer)} {bytes : List UInt8}
    (h : AllFill ps fs bytes) : (encoded ps fs).buffer = bytes := by
  rw [h.full.buffer_eq, h.encoded_eq]

end HyperDHT.Compact
