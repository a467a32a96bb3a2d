import HyperDHT.Lib.Framing
import HyperDHT.Lib.LittleEndian

/-!
# Frames of a secret stream

A frame on the raw stream is its length, three bytes in little-endian order, and its body. This file has the
framing of `secret_stream.cpp`: `write_uint24_le`, and what `try_extract_frame` finds in its buffer.

## Main definitions

* `SecretStream.frame` — a body with its length in front of it.
* `SecretStream.Parsed`, `SecretStream.parseFrame` — what a buffer begins with.
* `SecretStream.nextFrame` — the first frame of a buffer, if it is whole.

## Main results

* `SecretStream.nextFrame_codec` — `nextFrame` takes off exactly the frames of valid bodies.
* `SecretStream.parseFrame_ne_oversized` — no three bytes stand for a length over the limit.
-/

set_option autoImplicit false

namespace HyperDHT.SecretStream

open LittleEndian

/-- `HEADERBYTES`, the length of the header of a secretstream. -/
def headerBytes : ℕ := 24
/-- `ABYTES`, a tag byte and a MAC. -/
def abytes : ℕ := 17
/-- `STREAM_ID_LEN`. -/
def streamIdLen : ℕ := 32
/-- `ID_HEADER_BYTES`, the length of the body of the first frame. -/
def idHeaderBytes : ℕ := headerBytes + streamIdLen
/-- `MAX_ATOMIC_WRITE`, the limit of `write`. -/
def maxAtomicWrite : ℕ := 0xFFFFFF - abytes
/-- `FRAME_LEN_MAX`, the limit of `try_extract_frame`. -/
def frameLenMax : ℕ := maxAtomicWrite + abytes

/-- A body with its length in front of it. -/
def frame (body : List UInt8) : List UInt8 := toLe 3 body.length ++ body

/-- What a buffer begins with. -/
inductive Parsed where
  /-- Part of a frame. -/
  | more
  /-- A length over the limit. -/
  | oversized
  /-- A length of zero. -/
  | zero
  /-- A frame, with what is behind it. -/
  | frame (body rest : List UInt8)
  deriving DecidableEq

/-- The checks of `try_extract_frame` on its buffer. -/
def parseFrame (buf : List UInt8) : Parsed :=
  if buf.length < 3 then .more
  else
    let frameLen := ofLe (buf.take 3)
    if frameLen > frameLenMax then .oversized
    else if frameLen = 0 then .zero
    else if buf.length < 3 + frameLen then .more
    else .frame ((buf.drop 3).take frameLen) (buf.drop (3 + frameLen))

/-- The first frame of a buffer, if it is whole. -/
def nextFrame (buf : List UInt8) : Option (List UInt8 × List UInt8) :=
  match parseFrame buf with
  | .frame body rest => some (body, rest)
  | _ => none

/-- The body of a frame that passes the checks. -/
def ValidBody (body : List UInt8) : Prop := 0 < body.length ∧ body.length ≤ frameLenMax

lemma nextFrame_eq_some {buf body rest : List UInt8} :
    nextFrame buf = some (body, rest) ↔ parseFrame buf = .frame body rest := by
  unfold nextFrame
  cases parseFrame buf <;> simp

lemma frameLenMax_lt : frameLenMax < 256 ^ 3 := by decide

lemma ofLe_le_frameLenMax {bytes : List UInt8} (h : bytes.length ≤ 3) :
    ofLe bytes ≤ frameLenMax := by
  have hlt : ofLe bytes < 256 ^ bytes.length := ofLe_lt bytes
  have hpow : 256 ^ bytes.length ≤ 256 ^ 3 := Nat.pow_le_pow_right (by decide) h
  have hmax : frameLenMax + 1 = 256 ^ 3 := by decide
  omega

/-- **The limits agree**: no three bytes stand for a length over the limit of the parser. -/
theorem parseFrame_ne_oversized (buf : List UInt8) : parseFrame buf ≠ .oversized := by
  have hle : ¬ ofLe (buf.take 3) > frameLenMax := by
    have hmax : ofLe (buf.take 3) ≤ frameLenMax := ofLe_le_frameLenMax (List.length_take_le 3 buf)
    omega
  unfold parseFrame
  simp only [hle, if_false]
  split_ifs <;> simp

lemma parseFrame_append {head rest : List UInt8} (hhead : head.length = 3) :
    parseFrame (head ++ rest) =
      if ofLe head = 0 then .zero
      else if rest.length < ofLe head then .more
      else .frame (rest.take (ofLe head)) (rest.drop (ofLe head)) := by
  have htake : (head ++ rest).take 3 = head := by rw [← hhead, List.take_left']; rfl
  have hdrop : (head ++ rest).drop 3 = rest := by rw [← hhead, List.drop_left']; rfl
  have hle : ¬ ofLe head > frameLenMax := by
    have hmax : ofLe head ≤ frameLenMax := ofLe_le_frameLenMax (by omega)
    omega
  have hlength : (head ++ rest).length = 3 + rest.length := by rw [List.length_append, hhead]
  unfold parseFrame
  rw [if_neg (by omega)]
  simp only [htake, hdrop, hle, if_false, ← List.drop_drop, hlength, Nat.add_lt_add_iff_left]

lemma parseFrame_zero_append {buf : List UInt8} (h : parseFrame buf = .zero)
    (more : List UInt8) : parseFrame (buf ++ more) = .zero := by
  have hlength : ¬ buf.length < 3 := by
    intro hshort
    simp [parseFrame, hshort] at h
  obtain ⟨head, rest, rfl, hhead⟩ : ∃ head rest, buf = head ++ rest ∧ head.length = 3 :=
    ⟨buf.take 3, buf.drop 3, (List.take_append_drop 3 buf).symm, by rw [List.length_take]; omega⟩
  rw [parseFrame_append hhead] at h
  have hzero : ofLe head = 0 := by
    by_contra hne
    rw [if_neg hne] at h
    split_ifs at h
  rw [List.append_assoc, parseFrame_append hhead, if_pos hzero]

lemma parseFrame_frame {body : List UInt8} (h : ValidBody body) (rest : List UInt8) :
    parseFrame (frame body ++ rest) = .frame body rest := by
  have hle : ofLe (toLe 3 body.length) = body.length :=
    ofLe_toLe (Nat.lt_of_le_of_lt h.2 frameLenMax_lt)
  have hpos := h.1
  rw [frame, List.append_assoc, parseFrame_append (length_toLe 3 _), hle,
    if_neg (by omega), if_neg (by rw [List.length_append]; omega)]
  simp

/-- **The framing**: `nextFrame` takes a frame off a buffer exactly if the buffer begins with the
frame of a valid body. -/
theorem nextFrame_codec : Framing.Codec nextFrame frame ValidBody where
  exact := by
    intro bytes body rest h
    rw [nextFrame_eq_some] at h
    have hlength : ¬ bytes.length < 3 := by
      intro hshort
      simp [parseFrame, hshort] at h
    obtain ⟨head, tail, rfl, hhead⟩ : ∃ head tail, bytes = head ++ tail ∧ head.length = 3 :=
      ⟨bytes.take 3, bytes.drop 3, (List.take_append_drop 3 bytes).symm,
        by rw [List.length_take]; omega⟩
    rw [parseFrame_append hhead] at h
    split_ifs at h with hzero hshort
    obtain ⟨rfl, rfl⟩ : tail.take (ofLe head) = body ∧ tail.drop (ofLe head) = rest := by
      simpa using h
    have hbody : (tail.take (ofLe head)).length = ofLe head := by rw [List.length_take]; omega
    refine ⟨⟨by omega, ?_⟩, ?_⟩
    · rw [hbody]
      exact ofLe_le_frameLenMax (by omega)
    · have hbytes : toLe 3 (ofLe head) = head := by rw [← hhead, toLe_ofLe]
      rw [frame, hbody, hbytes, List.append_assoc, List.take_append_drop]
  accept := by
    intro body h rest
    rw [nextFrame_eq_some, parseFrame_frame h]
  nonempty := by
    intro body _ h
    simpa [frame] using congrArg List.length h

lemma parseFrame_eq_more {buf more : List UInt8} {bodies : List (List UInt8)}
    (hbodies : ∀ body ∈ bodies, ValidBody body) (hnext : nextFrame buf = none)
    (hbuf : buf ++ more = (bodies.map frame).flatten) : parseFrame buf = .more := by
  cases hparse : parseFrame buf with
  | more => rfl
  | oversized => exact absurd hparse (parseFrame_ne_oversized buf)
  | zero =>
    have hzero := parseFrame_zero_append hparse more
    rw [hbuf] at hzero
    cases bodies with
    | nil => simp [parseFrame] at hzero
    | cons body bodies =>
      rw [List.map_cons, List.flatten_cons, parseFrame_frame (hbodies body (by simp))] at hzero
      cases hzero
  | frame body rest =>
    rw [nextFrame_eq_some.2 hparse] at hnext
    cases hnext

end HyperDHT.SecretStream
