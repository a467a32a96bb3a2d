import HyperDHT.Compact.Codec

/-!
# Where the decoders read

A decoder of `compact.hpp` moves a cursor over a buffer: `start` goes forward, and a frame moves `end`
back for the decoder inside it. The positions are 64-bit numbers, and the lengths come from the wire.
A decoder stays inside of its buffer as long as no length of a frame, added to the position, wraps
around.

## Main definitions

* `Compact.Bounds.Cursor` — the two positions and the error flag.
* `Compact.Bounds.Decoder` — a decoder put together from the primitive ones, arrays and frames.
* `Compact.Bounds.Decoder.run` — a decoder run on a buffer, with a log of the states, of the bytes it read and
  of the spans it returned.
* `Compact.Bounds.Stays` — the log of a decoder that stays inside of its buffer.
* `Compact.Bounds.FramesFit` — no frame of the log wraps around.
* `Compact.Bounds.Cursor.window` — the bytes between the two positions.

## Main results

* `Compact.Bounds.stays_iff_framesFit` — a decoder stays inside exactly if its frames fit.
* `Compact.Bounds.not_stays_wrappingFrame` — a frame whose end wraps around to zero.
* `Compact.Bounds.uintDecode_window` — inside of the buffer, numbers are read as the codecs read them.

## Design

The positions are natural numbers, and the additions and subtractions that the code does not guard wrap
around at `2 ^ 64`. The cursor `Compact.State`, which the codecs of messages use, only has the bytes
between the two positions; it is what a cursor comes to that stays inside of its buffer.
-/

set_option autoImplicit false

namespace HyperDHT.Compact.Bounds

open LittleEndian

/-! ## The cursor -/

/-- The bytes of a buffer; their number is a 64-bit number. -/
abbrev Input := { bytes : List UInt8 // bytes.length < 2 ^ 64 }

/-- The `n` bytes from a position on. -/
def Input.slice (input : Input) (start n : ℕ) : List UInt8 := (input.1.drop start).take n

/-- The cursor of a decoder. The source calls the second position `end`. -/
structure Cursor where
  start : ℕ
  stop : ℕ
  error : Bool := false
  deriving DecidableEq

/-- A 64-bit sum. -/
def wrapAdd (a b : ℕ) : ℕ := (a + b) % 2 ^ 64

/-- A 64-bit difference. -/
def wrapSub (a b : ℕ) : ℕ := (a + (2 ^ 64 - b)) % 2 ^ 64

namespace Cursor

/-- A cursor over a whole buffer. -/
def forDecode (input : Input) : Cursor := { start := 0, stop := input.1.length }

/-- The flag goes up. -/
def fail (s : Cursor) : Cursor := { s with error := true }

/-- The position moves on. -/
def advance (s : Cursor) (n : ℕ) : Cursor := { s with start := wrapAdd s.start n }

/-- There are `n` more bytes. -/
def hasBytes (s : Cursor) (n : ℕ) : Bool := s.start ≤ s.stop ∧ n ≤ wrapSub s.stop s.start

end Cursor

/-- What is observed of a decoder: its state at the begin and at the end of each decoder it calls, the
bytes it reads, the spans that it returns, the length of a frame with the position after it, and the
end of the buffer before and after a frame. -/
inductive Event where
  | state (s : Cursor)
  | read (start n : ℕ)
  | span (start n : ℕ)
  | length (start n : ℕ)
  | frame (before after : ℕ)
  deriving DecidableEq

/-- A value that was decoded; a span is a pointer and a length. -/
inductive Value where
  | null
  | num (v : ℕ)
  | bool (b : Bool)
  | span (start n : ℕ)
  | bytes (data : List UInt8)
  | address (host : List UInt8) (port : ℕ)
  | list (values : List Value)

/-- What a decoder returns, the cursor it leaves behind, and what was observed. -/
structure Result (α : Type) where
  value : α
  cursor : Cursor
  log : List Event

/-- Observe the state before and after a decoder. -/
def logged {α : Type} (decode : Cursor → Result α) (s : Cursor) : Result α :=
  let r := decode s
  { r with log := .state s :: r.log ++ [.state r.cursor] }

/-! ## The decoders -/

variable (input : Input)

/-- `Uint::decode`. -/
def uintRead (s : Cursor) : Result ℕ :=
  if s.error || !s.hasBytes 1 then ⟨0, s.fail, []⟩
  else
    let first := (input.slice s.start 1).headD 0
    let s' := s.advance 1
    if first ≤ 0xFC then ⟨first.toNat, s', [.read s.start 1]⟩
    else if s'.hasBytes (uintWidth first) then
      ⟨ofLe (input.slice s'.start (uintWidth first)), s'.advance (uintWidth first),
        [.read s.start 1, .read s'.start (uintWidth first)]⟩
    else ⟨0, s'.fail, [.read s.start 1]⟩

/-- Read `n` bytes: the decoders of fixed integers, of `Bool`, and of fixed byte strings. -/
def fixedRead (n : ℕ) (value : List UInt8 → Value) (s : Cursor) : Result Value :=
  if s.error || !s.hasBytes n then ⟨value (List.replicate n 0), s.fail, []⟩
  else ⟨value (input.slice s.start n), s.advance n, [.read s.start n]⟩

/-- `Buffer::decode`. -/
def bufferRead (s : Cursor) : Result Value :=
  let len := logged (uintRead input) s
  if len.cursor.error then ⟨.null, len.cursor, len.log⟩
  else if len.value = 0 then ⟨.null, len.cursor, len.log⟩
  else if len.value > maxBufferDecode then ⟨.null, len.cursor.fail, len.log⟩
  else if !len.cursor.hasBytes len.value then ⟨.null, len.cursor.fail, len.log⟩
  else
    ⟨.span len.cursor.start len.value, len.cursor.advance len.value,
      len.log ++ [.span len.cursor.start len.value]⟩

/-- `Raw::decode`: whatever is left, without a look at the position. -/
def rawRead (s : Cursor) : Result Value :=
  if s.error then ⟨.null, s, []⟩
  else
    ⟨.span s.start (wrapSub s.stop s.start), { s with start := s.stop },
      [.span s.start (wrapSub s.stop s.start)]⟩

/-- `Ipv4Addr::decode` and `Ipv6Addr::decode`: the bytes of the host, and a port. -/
def addressRead (host : ℕ) (s : Cursor) : Result Value :=
  if s.error || !s.hasBytes (host + 2) then ⟨.address (List.replicate host 0) 0, s.fail, []⟩
  else
    let s' := s.advance host
    ⟨.address (input.slice s.start host) (ofLe (input.slice s'.start 2)), s'.advance 2,
      [.read s.start host, .read s'.start 2]⟩

/-- The primitive decoders. -/
inductive Prim where
  | uint
  | uint8
  | uint16
  | uint32
  | uint64
  | bool
  | buffer
  | raw
  | fixed32
  | fixed64
  | ipv4
  | ipv6
  deriving DecidableEq

/-- Run a primitive decoder. -/
def Prim.decode : Prim → Cursor → Result Value
  | .uint => fun s =>
    let r := uintRead input s
    ⟨.num r.value, r.cursor, r.log⟩
  | .uint8 => fixedRead input 1 fun data => .num (ofLe data)
  | .uint16 => fixedRead input 2 fun data => .num (ofLe data)
  | .uint32 => fixedRead input 4 fun data => .num (ofLe data)
  | .uint64 => fixedRead input 8 fun data => .num (ofLe data)
  | .bool => fixedRead input 1 fun data => .bool (ofLe data != 0)
  | .buffer => bufferRead input
  | .raw => rawRead
  | .fixed32 => fixedRead input 32 .bytes
  | .fixed64 => fixedRead input 64 .bytes
  | .ipv4 => addressRead input 4
  | .ipv6 => addressRead input 16

/-- The loop of `Array::decode`. -/
def elementsRead (decode : Cursor → Result Value) : ℕ → Cursor → Result (List Value)
  | 0, s => ⟨[], s, []⟩
  | n + 1, s =>
    if s.error then ⟨[], s, []⟩
    else
      let item := decode s
      let items := elementsRead decode n item.cursor
      ⟨item.value :: items.value, items.cursor, item.log ++ items.log⟩

/-- `Array::decode`. -/
def arrayRead (decode : Cursor → Result Value) (s : Cursor) : Result Value :=
  let count := logged (uintRead input) s
  if count.cursor.error || count.value > arrayMaxLength then
    ⟨.list [], count.cursor.fail, count.log⟩
  else
    let items := elementsRead decode count.value count.cursor
    ⟨.list items.value, items.cursor, count.log ++ items.log⟩

/-- `Frame::decode`. The end of the frame is a sum that nothing guards. -/
def frameRead (decode : Cursor → Result Value) (s : Cursor) : Result Value :=
  let len := logged (uintRead input) s
  if len.cursor.error then ⟨.null, len.cursor, len.log⟩
  else
    let savedEnd := len.cursor.stop
    let inner := { len.cursor with stop := wrapAdd len.cursor.start len.value }
    if inner.stop > savedEnd then
      ⟨.null, { inner with error := true, stop := savedEnd },
        len.log ++ [.length len.cursor.start len.value]⟩
    else
      let r := decode inner
      ⟨r.value, { r.cursor with start := r.cursor.stop, stop := savedEnd },
        len.log ++ (.length len.cursor.start len.value :: .state inner :: r.log)⟩

/-- A decoder that is put together from others. What it does next may depend on the value that was
read and on the error flag. -/
inductive Decoder where
  | done (v : Value)
  | read (p : Prim) (next : Value → Bool → Decoder)
  | array (element : Decoder) (next : Value → Bool → Decoder)
  | frame (inner : Decoder) (next : Value → Bool → Decoder)

/-- Run a decoder. -/
def Decoder.run : Decoder → Cursor → Result Value
  | .done v => fun s => ⟨v, s, []⟩
  | .read p next => fun s =>
    let r := logged (p.decode input) s
    let rest := (next r.value r.cursor.error).run r.cursor
    ⟨rest.value, rest.cursor, r.log ++ rest.log⟩
  | .array element next => fun s =>
    let r := logged (arrayRead input element.run) s
    let rest := (next r.value r.cursor.error).run r.cursor
    ⟨rest.value, rest.cursor, r.log ++ rest.log⟩
  | .frame inner next => fun s =>
    let r := logged (frameRead input inner.run) s
    let rest := (next r.value r.cursor.error).run r.cursor
    ⟨rest.value, rest.cursor, r.log ++ .frame s.stop r.cursor.stop :: rest.log⟩

/-! ## Staying inside -/

/-- The positions of a cursor are in order, and the second one is at most `n`. -/
def Cursor.Inside (n : ℕ) (s : Cursor) : Prop := s.start ≤ s.stop ∧ s.stop ≤ n

/-- What is observed lies within `n` bytes, and a frame brings the end back. -/
def Event.InBounds (n : ℕ) : Event → Prop
  | .state s => s.Inside n
  | .read start len => start + len ≤ n
  | .span start len => start + len ≤ n
  | .length _ _ => True
  | .frame before after => after = before

/-- What is observed of a decoder before and after: the position does not go back, the error flag
stays up, and nothing is read once it is up. -/
def Event.Before : Event → Event → Prop
  | .state s, .state s' => s.start ≤ s'.start ∧ (s.error = true → s'.error = true)
  | .state s, .read _ _ => s.error = false
  | .state s, .span _ _ => s.error = false
  | _, _ => True

/-- The log of a decoder that stays inside of a buffer of `n` bytes. -/
def Stays (n : ℕ) (log : List Event) : Prop :=
  (∀ e ∈ log, e.InBounds n) ∧ log.Pairwise Event.Before

/-- The end of each frame, before it is wrapped around, is a 64-bit number. -/
def FramesFit (log : List Event) : Prop :=
  ∀ start len, .length start len ∈ log → start + len < 2 ^ 64

variable {input} {n : ℕ} {α : Type}

namespace Event

lemma Before.trans_state {e e' : Event} {s : Cursor} (h : Before e (.state s))
    (h' : Before (.state s) e') : Before e e' := by
  cases e with
  | state s₀ =>
    obtain ⟨hstart, herror⟩ := h
    have hclear : s.error = false → s₀.error = false := by
      intro hs
      by_contra hne
      simp [herror (by simpa using hne)] at hs
    cases e' with
    | state s' => exact ⟨hstart.trans h'.1, fun h₀ => h'.2 (herror h₀)⟩
    | read start len => exact hclear h'
    | span start len => exact hclear h'
    | length start len => trivial
    | frame before after => trivial
  | read start len => trivial
  | span start len => trivial
  | length start len => trivial
  | frame before after => trivial

end Event

namespace Stays

lemma of_sublist {log log' : List Event} (h : Stays n log') (hsub : log.Sublist log') :
    Stays n log :=
  ⟨fun e he => h.1 e (hsub.subset he), h.2.sublist hsub⟩

/-- **Two logs that meet in a state** make up one log. -/
lemma join {before after : List Event} {s : Cursor} (h : Stays n (before ++ [.state s]))
    (h' : Stays n (.state s :: after)) : Stays n (before ++ .state s :: after) := by
  refine ⟨fun e he => ?_, ?_⟩
  · rcases List.mem_append.1 he with hb | ha
    · exact h.1 e (List.mem_append_left _ hb)
    · exact h'.1 e ha
  · obtain ⟨hbefore, -, hlast⟩ := List.pairwise_append.1 h.2
    refine List.pairwise_append.2 ⟨hbefore, h'.2, fun e he e' he' => ?_⟩
    have hstate : Event.Before e (.state s) := hlast e he _ (by simp)
    rcases List.mem_cons.1 he' with rfl | hafter
    · exact hstate
    · exact hstate.trans_state (List.rel_of_pairwise_cons h'.2 hafter)

end Stays

/-- A log that goes from one state to another and stays inside. -/
def Path (n : ℕ) (s : Cursor) (log : List Event) (s' : Cursor) : Prop :=
  Stays n (.state s :: log ++ [.state s'])

namespace Path

variable {s s' s'' : Cursor} {log log' : List Event}

lemma inside_left (h : Path n s log s') : s.Inside n := h.1 (.state s) (by simp)

lemma inside (h : Path n s log s') : s'.Inside n := h.1 (.state s') (by simp)

lemma stays (h : Path n s log s') : Stays n log :=
  h.of_sublist ((List.sublist_cons_self _ _).trans (List.sublist_append_left _ _))

lemma move (h : s.Inside n) (h' : s'.Inside n) (hstart : s.start ≤ s'.start)
    (herror : s.error = true → s'.error = true) : Path n s [] s' := by
  simpa [Path, Stays, Event.InBounds, Event.Before, h, h', hstart] using herror

lemma length (h : s.Inside n) (start len : ℕ) : Path n s [.length start len] s := by
  simp [Path, Stays, Event.InBounds, Event.Before, h]

/-- **One path after another**, with the state between them observed. -/
lemma via (h : Path n s log s') (h' : Path n s' log' s'') :
    Path n s (log ++ .state s' :: log') s'' := by
  have hjoin := h.join h'
  simpa [Path] using hjoin

/-- **One path after another.** -/
lemma trans (h : Path n s log s') (h' : Path n s' log' s'') : Path n s (log ++ log') s'' := by
  refine (h.via h').of_sublist (List.Sublist.append ?_ (List.Sublist.refl _))
  exact .cons_cons _ ((List.Sublist.refl _).append (List.sublist_cons_self _ _))

end Path

/-- A decoder that stays inside, from a state on, and leaves the end where it is. -/
structure Keeps (n : ℕ) (s : Cursor) (r : Result α) : Prop where
  path : Path n s r.log r.cursor
  stop_eq : r.cursor.stop = s.stop

namespace Keeps

variable {s : Cursor} {r : Result α}

lemma inside (h : Keeps n s r) : r.cursor.Inside n := h.path.inside

lemma rest (h : s.Inside n) (v : α) : Keeps n s ⟨v, s, []⟩ := ⟨.move h h le_rfl id, rfl⟩

lemma fail (h : s.Inside n) (v : α) : Keeps n s ⟨v, s.fail, []⟩ :=
  ⟨.move h h le_rfl fun _ => rfl, rfl⟩

/-- **One decoder after another.** -/
lemma trans {β γ : Type} {r' : Result β} (h : Keeps n s r) (h' : Keeps n r.cursor r') (v : γ) :
    Keeps n s ⟨v, r'.cursor, r.log ++ r'.log⟩ :=
  ⟨h.path.trans h'.path, h'.stop_eq.trans h.stop_eq⟩

lemma logged {decode : Cursor → Result α} (h : Keeps n s (decode s)) :
    Keeps n s (logged decode s) := by
  have hbefore : Path n s [.state s] s := by
    have hs := Path.move h.path.inside_left h.path.inside_left le_rfl id
    exact hs.via hs
  have hafter : Path n (decode s).cursor [.state (decode s).cursor] (decode s).cursor := by
    have hs := Path.move h.inside h.inside le_rfl id
    exact hs.via hs
  exact ⟨(hbefore.trans h.path).trans hafter, h.stop_eq⟩

lemma fail_after {β : Type} (h : Keeps n s r) (v : β) : Keeps n s ⟨v, r.cursor.fail, r.log⟩ := by
  have h' := h.trans (Keeps.fail h.inside v) v
  simpa using h'

lemma with_value {β : Type} (h : Keeps n s r) (v : β) : Keeps n s ⟨v, r.cursor, r.log⟩ :=
  ⟨h.path, h.stop_eq⟩

end Keeps

/-! ## The primitive decoders stay inside -/

namespace Cursor

variable {s : Cursor} {k : ℕ}

lemma hasBytes_iff (h : s.start ≤ s.stop) (hlt : s.stop < 2 ^ 64) :
    s.hasBytes k = true ↔ s.start + k ≤ s.stop := by
  rw [hasBytes, decide_eq_true_iff, wrapSub]
  omega

lemma advance_start (h : s.start + k ≤ s.stop) (hlt : s.stop < 2 ^ 64) :
    (s.advance k).start = s.start + k := by
  simp only [advance, wrapAdd]
  omega

@[simp] lemma advance_stop : (s.advance k).stop = s.stop := rfl

@[simp] lemma advance_error : (s.advance k).error = s.error := rfl

end Cursor

lemma Keeps.read {s : Cursor} {k : ℕ} (hs : s.Inside n) (hn : n < 2 ^ 64) (he : s.error = false)
    (hk : s.start + k ≤ s.stop) {e : Event} (hread : e = .read s.start k ∨ e = .span s.start k)
    (v : α) : Keeps n s ⟨v, s.advance k, [e]⟩ := by
  have hstart := Cursor.advance_start hk (hs.2.trans_lt hn)
  have hafter : (s.advance k).Inside n := by
    simp only [Cursor.Inside, hstart, Cursor.advance_stop]
    exact ⟨hk, hs.2⟩
  have hle : s.start + k ≤ n := hk.trans hs.2
  refine ⟨⟨?_, ?_⟩, rfl⟩
  · rcases hread with rfl | rfl <;> simp [Event.InBounds, hs, hafter, hle]
  · rcases hread with rfl | rfl <;> simp [Event.Before, hstart, he]

lemma keeps_uintRead {s : Cursor} (hs : s.Inside n) (hn : n < 2 ^ 64) :
    Keeps n s (uintRead input s) := by
  simp only [uintRead]
  split_ifs with hfail hshort hmore
  · exact .fail hs 0
  all_goals
    simp only [Bool.or_eq_true, Bool.not_eq_true', not_or, Bool.not_eq_true, Bool.not_eq_false,
      Cursor.hasBytes_iff hs.1 (hs.2.trans_lt hn)] at hfail
    have hfirst : Keeps n s (⟨0, s.advance 1, [.read s.start 1]⟩ : Result ℕ) :=
      .read hs hn hfail.1 hfail.2 (.inl rfl) 0
  · exact hfirst.with_value _
  · -- the bytes after the first one
    have hin := hfirst.inside
    exact hfirst.trans (.read hin hn hfail.1
      ((Cursor.hasBytes_iff hin.1 (hin.2.trans_lt hn)).1 hmore) (.inl rfl) 0) _
  · exact hfirst.fail_after 0

lemma keeps_fixedRead {s : Cursor} (hs : s.Inside n) (hn : n < 2 ^ 64) (k : ℕ)
    (value : List UInt8 → Value) : Keeps n s (fixedRead input k value s) := by
  rw [fixedRead]
  split_ifs with hfail
  · exact .fail hs _
  · simp only [Bool.or_eq_true, Bool.not_eq_true', not_or, Bool.not_eq_true, Bool.not_eq_false,
      Cursor.hasBytes_iff hs.1 (hs.2.trans_lt hn)] at hfail
    exact .read hs hn hfail.1 hfail.2 (.inl rfl) _

lemma keeps_bufferRead {s : Cursor} (hs : s.Inside n) (hn : n < 2 ^ 64) :
    Keeps n s (bufferRead input s) := by
  have hlen : Keeps n s (logged (uintRead input) s) := (keeps_uintRead hs hn).logged
  rw [bufferRead]
  split_ifs with herror hzero hlong hroom
  · exact hlen.with_value _
  · exact hlen.with_value _
  · exact hlen.fail_after _
  · exact hlen.fail_after _
  · have hin := hlen.inside
    simp only [Bool.not_eq_true', Bool.not_eq_false,
      Cursor.hasBytes_iff hin.1 (hin.2.trans_lt hn)] at hroom
    exact hlen.trans (.read hin hn (by simpa using herror) hroom (.inr rfl) Value.null) _

lemma keeps_rawRead {s : Cursor} (hs : s.Inside n) (hn : n < 2 ^ 64) :
    Keeps n s (rawRead s) := by
  rw [rawRead]
  split_ifs with herror
  · exact .rest hs _
  · have hrest : wrapSub s.stop s.start = s.stop - s.start := by
      simp only [Cursor.Inside] at hs
      simp only [wrapSub]
      omega
    have hmove : ({ s with start := s.stop } : Cursor) = s.advance (s.stop - s.start) := by
      have hadd := Cursor.advance_start (s := s) (k := s.stop - s.start)
        (by have := hs.1; omega) (hs.2.trans_lt hn)
      simp only [Cursor.advance, Cursor.mk.injEq, and_self, and_true] at hadd ⊢
      have := hs.1
      omega
    rw [hrest, hmove]
    exact .read hs hn (by simpa using herror) (by have := hs.1; omega) (.inr rfl) _

lemma keeps_addressRead {s : Cursor} (hs : s.Inside n) (hn : n < 2 ^ 64) (host : ℕ) :
    Keeps n s (addressRead input host s) := by
  rw [addressRead]
  split_ifs with hfail
  · exact .fail hs _
  · simp only [Bool.or_eq_true, Bool.not_eq_true', not_or, Bool.not_eq_true, Bool.not_eq_false,
      Cursor.hasBytes_iff hs.1 (hs.2.trans_lt hn)] at hfail
    have hhost : Keeps n s (⟨.null, s.advance host, [.read s.start host]⟩ : Result Value) :=
      .read hs hn hfail.1 (by omega) (.inl rfl) _
    have hstart := Cursor.advance_start (s := s) (k := host) (by omega) (hs.2.trans_lt hn)
    have hport : (s.advance host).start + 2 ≤ (s.advance host).stop := by
      rw [hstart, Cursor.advance_stop]
      omega
    exact hhost.trans (.read hhost.inside hn hfail.1 hport (.inl rfl) Value.null) _

/-- **Every primitive decoder stays inside.** -/
lemma keeps_prim {s : Cursor} (hs : s.Inside n) (hn : n < 2 ^ 64) (p : Prim) :
    Keeps n s (p.decode input s) := by
  cases p with simp only [Prim.decode]
  | uint => exact (keeps_uintRead hs hn).with_value _
  | buffer => exact keeps_bufferRead hs hn
  | raw => exact keeps_rawRead hs hn
  | ipv4 => exact keeps_addressRead hs hn 4
  | ipv6 => exact keeps_addressRead hs hn 16
  | uint8 => exact keeps_fixedRead hs hn 1 _
  | uint16 => exact keeps_fixedRead hs hn 2 _
  | uint32 => exact keeps_fixedRead hs hn 4 _
  | uint64 => exact keeps_fixedRead hs hn 8 _
  | bool => exact keeps_fixedRead hs hn 1 _
  | fixed32 => exact keeps_fixedRead hs hn 32 _
  | fixed64 => exact keeps_fixedRead hs hn 64 _

/-! ## The cursor of the codecs -/

namespace Cursor

variable {s : Cursor} {k : ℕ}

/-- What the codecs of messages see of a cursor: the bytes between its positions. -/
def window (input : Input) (s : Cursor) : State :=
  { rest := input.slice s.start (s.stop - s.start), error := s.error }

lemma length_window (hs : s.Inside input.1.length) :
    (s.window input).rest.length = s.stop - s.start := by
  obtain ⟨horder, hstop⟩ := hs
  simp only [window, Input.slice, List.length_take, List.length_drop]
  omega

lemma hasBytes_window (hs : s.Inside input.1.length) :
    (s.window input).hasBytes k = s.hasBytes k := by
  rw [Bool.eq_iff_iff, hasBytes_iff hs.1 (hs.2.trans_lt input.2), State.hasBytes,
    decide_eq_true_iff, length_window hs]
  have horder := hs.1
  omega

lemma take_window (h : s.start + k ≤ s.stop) :
    (s.window input).rest.take k = input.slice s.start k := by
  simp only [window, Input.slice, List.take_take]
  congr 1
  omega

lemma skip_window (hs : s.Inside input.1.length) (h : s.start + k ≤ s.stop) :
    (s.window input).skip k = (s.advance k).window input := by
  have hstart := advance_start h (hs.2.trans_lt input.2)
  simp only [State.skip, window, Input.slice, hstart, advance_stop, advance_error,
    List.drop_take, List.drop_drop, State.mk.injEq, and_true]
  congr 1
  omega

end Cursor

/-- **A number is read as the codecs read it**: the decoder of `Compact.State` on the bytes between
the positions. -/
theorem uintDecode_window {s : Cursor} (hs : s.Inside input.1.length) :
    uintDecode (s.window input) =
      (UInt64.ofNat (uintRead input s).value, (uintRead input s).cursor.window input) := by
  have hbytes : ∀ k, s.hasBytes k = true ↔ s.start + k ≤ s.stop := fun k =>
    Cursor.hasBytes_iff hs.1 (hs.2.trans_lt input.2)
  by_cases hfail : s.error = true ∨ ¬ s.start + 1 ≤ s.stop
  · -- nothing is read
    have hread : uintRead input s = ⟨0, s.fail, []⟩ := by
      rw [uintRead, if_pos]
      rcases hfail with herror | hshort
      · simp [herror]
      · simpa [← hbytes] using Or.inr hshort
    rw [hread, uintDecode]
    split_ifs with herror
    · rfl
    · have hnil : (s.window input).rest = [] := by
        rw [← List.length_eq_zero_iff, Cursor.length_window hs]
        have hshort := hfail.resolve_left herror
        omega
      rw [hnil]
      rfl
  · obtain ⟨herror, hroom⟩ := not_or.1 hfail
    have hin : (s.advance 1).Inside input.1.length := by
      have hstart := Cursor.advance_start (not_not.1 hroom) (hs.2.trans_lt input.2)
      exact ⟨by simpa [hstart] using not_not.1 hroom, hs.2⟩
    have hskip := Cursor.skip_window hs (not_not.1 hroom)
    have htake := @Cursor.take_window input s 1 (not_not.1 hroom)
    have hnot : ¬ (s.error || !s.hasBytes 1) = true := by
      simpa [hbytes] using And.intro herror (not_not.1 hroom)
    have hclear : ¬ (s.window input).error = true := herror
    rw [uintRead, if_neg hnot, uintDecode, if_neg hclear]
    cases hrest : (s.window input).rest with
    | nil =>
      have hlen := Cursor.length_window hs
      rw [hrest, List.length_nil] at hlen
      omega
    | cons first tail =>
      have hfirst : (input.slice s.start 1).headD 0 = first := by
        rw [← htake, hrest]
        rfl
      simp only [hfirst, hskip]
      split_ifs with hshort hmore
      · exact Prod.ext (by simp [UInt64.ofNat_uInt8ToNat]) rfl
      · have hfits := (Cursor.hasBytes_iff hin.1 (hin.2.trans_lt input.2)).1 hmore
        rw [leDecode, if_pos ((Cursor.hasBytes_window hin).trans hmore),
          Cursor.take_window hfits, Cursor.skip_window hin hfits]
      · rw [leDecode, if_neg (by rwa [Cursor.hasBytes_window hin])]
        rfl

/-! ## Frames that fit -/

@[simp] lemma framesFit_nil : FramesFit [] := by simp [FramesFit]

@[simp] lemma framesFit_append {log log' : List Event} :
    FramesFit (log ++ log') ↔ FramesFit log ∧ FramesFit log' := by
  simp only [FramesFit, List.mem_append]
  exact ⟨fun h => ⟨fun a b he => h a b (.inl he), fun a b he => h a b (.inr he)⟩,
    fun h a b he => he.elim (h.1 a b) (h.2 a b)⟩

@[simp] lemma framesFit_state {s : Cursor} {log : List Event} :
    FramesFit (.state s :: log) ↔ FramesFit log := by simp [FramesFit]

@[simp] lemma framesFit_frame {before after : ℕ} {log : List Event} :
    FramesFit (.frame before after :: log) ↔ FramesFit log := by simp [FramesFit]

@[simp] lemma framesFit_length {start len : ℕ} {log : List Event} :
    FramesFit (.length start len :: log) ↔ start + len < 2 ^ 64 ∧ FramesFit log := by
  simp only [FramesFit, List.mem_cons, Event.length.injEq]
  constructor
  · exact fun h => ⟨h _ _ (.inl ⟨rfl, rfl⟩), fun a b he => h a b (.inr he)⟩
  · rintro ⟨hhead, htail⟩ a b (⟨rfl, rfl⟩ | he)
    · exact hhead
    · exact htail a b he

@[simp] lemma framesFit_logged {decode : Cursor → Result α} {s : Cursor} :
    FramesFit (logged decode s).log ↔ FramesFit (decode s).log := by
  simp [logged]

lemma keeps_elementsRead {decode : Cursor → Result Value}
    (hdecode : ∀ s, s.Inside n → FramesFit (decode s).log → Keeps n s (decode s)) (k : ℕ) :
    ∀ s, s.Inside n → FramesFit (elementsRead decode k s).log →
      Keeps n s (elementsRead decode k s) := by
  induction k with
  | zero => exact fun s hs _ => .rest hs _
  | succ k ih =>
    intro s hs hfit
    rw [elementsRead] at hfit ⊢
    split_ifs at hfit ⊢ with herror
    · exact .rest hs _
    · obtain ⟨hitem, hitems⟩ := framesFit_append.1 hfit
      have hkeeps := hdecode s hs hitem
      exact hkeeps.trans (ih _ hkeeps.inside hitems) _

lemma keeps_arrayRead {decode : Cursor → Result Value} (hn : n < 2 ^ 64)
    (hdecode : ∀ s, s.Inside n → FramesFit (decode s).log → Keeps n s (decode s))
    {s : Cursor} (hs : s.Inside n) (hfit : FramesFit (arrayRead input decode s).log) :
    Keeps n s (arrayRead input decode s) := by
  have hcount : Keeps n s (logged (uintRead input) s) := (keeps_uintRead hs hn).logged
  rw [arrayRead] at hfit ⊢
  split_ifs at hfit ⊢ with hfail
  · exact hcount.fail_after _
  · have hitems := (framesFit_append.1 hfit).2
    exact hcount.trans (keeps_elementsRead hdecode _ _ hcount.inside hitems) _

lemma keeps_frameRead {decode : Cursor → Result Value} (hn : n < 2 ^ 64)
    (hdecode : ∀ s, s.Inside n → FramesFit (decode s).log → Keeps n s (decode s))
    {s : Cursor} (hs : s.Inside n) (hfit : FramesFit (frameRead input decode s).log) :
    Keeps n s (frameRead input decode s) := by
  have hlen : Keeps n s (logged (uintRead input) s) := (keeps_uintRead hs hn).logged
  have hin := hlen.inside
  simp only [frameRead] at hfit ⊢
  split_ifs at hfit ⊢ with hfail hlong
  · exact hlen.with_value _
  · -- the frame is longer than what is left
    have hback : Path n (logged (uintRead input) s).cursor
        [.length (logged (uintRead input) s).cursor.start (logged (uintRead input) s).value]
        { (logged (uintRead input) s).cursor with error := true } :=
      (Path.length hin _ _).trans (.move hin hin le_rfl fun _ => rfl)
    exact ⟨hlen.path.trans hback, hlen.stop_eq⟩
  · simp only [framesFit_append, framesFit_length, framesFit_state] at hfit
    obtain ⟨-, hwrap, hinner⟩ := hfit
    generalize logged (uintRead input) s = len at *
    have hend : wrapAdd len.cursor.start len.value = len.cursor.start + len.value :=
      Nat.mod_eq_of_lt hwrap
    rw [hend] at hinner hlong ⊢
    have hnarrow : Cursor.Inside n
        { len.cursor with stop := len.cursor.start + len.value } :=
      ⟨Nat.le_add_right _ _, (not_lt.1 hlong).trans hin.2⟩
    have hr := hdecode _ hnarrow hinner
    have hstop := hr.stop_eq
    have hwide : Cursor.Inside n
        { (decode { len.cursor with stop := len.cursor.start + len.value }).cursor with
          start := (decode { len.cursor with stop := len.cursor.start + len.value }).cursor.stop
          stop := len.cursor.stop } := by
      refine ⟨?_, hin.2⟩
      rw [hstop]
      exact not_lt.1 hlong
    -- the narrowed end is observed, and the old end comes back
    have hopen := (Path.length hin len.cursor.start len.value).trans
      (Path.move hin hnarrow le_rfl id)
    have hclose := hr.path.trans (Path.move hr.inside hwide hr.inside.1 id)
    have hframe := hlen.path.trans (hopen.via hclose)
    exact ⟨by simpa using hframe, hlen.stop_eq⟩

/-- **A decoder whose frames fit stays inside.** -/
theorem keeps_run (hn : n < 2 ^ 64) (d : Decoder) :
    ∀ s, s.Inside n → FramesFit (d.run input s).log → Keeps n s (d.run input s) := by
  induction d with
  | done v => exact fun s hs _ => .rest hs v
  | read p next ih =>
    intro s hs hfit
    simp only [Decoder.run, framesFit_append] at hfit ⊢
    have hr := (@keeps_prim input n s hs hn p).logged
    exact hr.trans (ih _ _ _ hr.inside hfit.2) _
  | array element next ihelement ihnext =>
    intro s hs hfit
    simp only [Decoder.run, framesFit_append, framesFit_logged] at hfit ⊢
    have hr := (keeps_arrayRead hn ihelement hs hfit.1).logged
    exact hr.trans (ihnext _ _ _ hr.inside hfit.2) _
  | frame inner next ihinner ihnext =>
    intro s hs hfit
    simp only [Decoder.run, framesFit_append, framesFit_frame, framesFit_logged] at hfit ⊢
    have hr := (keeps_frameRead hn ihinner hs hfit.1).logged
    have hback : Path n (logged (frameRead input (inner.run input)) s).cursor
        [.frame s.stop (logged (frameRead input (inner.run input)) s).cursor.stop]
        (logged (frameRead input (inner.run input)) s).cursor := by
      simp [Path, Stays, Event.InBounds, Event.Before, hr.inside, hr.stop_eq]
    have hrest := ihnext _ _ _ hr.inside hfit.2
    have hall := hr.path.trans (hback.trans hrest.path)
    exact ⟨by simpa using hall, hrest.stop_eq.trans hr.stop_eq⟩

/-! ## Frames that wrap around -/

lemma uintWidth_le (first : UInt8) : uintWidth first ≤ 8 := by
  unfold uintWidth
  split_ifs <;> omega

lemma uintRead_lt (s : Cursor) : (uintRead input s).value < 2 ^ 64 := by
  simp only [uintRead]
  split_ifs with hfail hshort hmore
  · exact Nat.two_pow_pos 64
  · exact ((input.slice s.start 1).headD 0).toNat_lt.trans (by decide)
  · refine (ofLe_lt _).trans_le ?_
    have hlen : (input.slice (s.advance 1).start
        (uintWidth ((input.slice s.start 1).headD 0))).length ≤ 8 :=
      (List.length_take_le _ _).trans (uintWidth_le _)
    exact (Nat.pow_le_pow_right (by decide) hlen).trans (by decide)
  · exact Nat.two_pow_pos 64

/-- A log has no frame that wraps around if all of it is within `n` bytes. -/
def BoundsFit (n : ℕ) (log : List Event) : Prop := (∀ e ∈ log, e.InBounds n) → FramesFit log

namespace BoundsFit

lemma of_fit {log : List Event} (h : FramesFit log) : BoundsFit n log := fun _ => h

lemma append {log log' : List Event} (h : BoundsFit n log) (h' : BoundsFit n log') :
    BoundsFit n (log ++ log') := by
  intro hin
  rw [List.forall_mem_append] at hin
  exact framesFit_append.2 ⟨h hin.1, h' hin.2⟩

lemma logged {decode : Cursor → Result α} {s : Cursor} (h : BoundsFit n (decode s).log) :
    BoundsFit n (logged decode s).log := by
  intro hin
  refine framesFit_logged.2 (h fun e he => hin e ?_)
  simp [Bounds.logged, he]

end BoundsFit

lemma framesFit_uintRead (s : Cursor) : FramesFit (uintRead input s).log := by
  simp only [uintRead]
  split_ifs <;> simp [FramesFit]

lemma framesFit_prim (p : Prim) (s : Cursor) : FramesFit (p.decode input s).log := by
  cases p with simp only [Prim.decode]
  | uint => exact framesFit_uintRead s
  | buffer =>
    have hlen := framesFit_logged.2 (@framesFit_uintRead input s)
    simp only [bufferRead]
    split_ifs
    all_goals first | exact hlen | exact framesFit_append.2 ⟨hlen, by simp [FramesFit]⟩
  | raw =>
    simp only [rawRead]
    split_ifs <;> simp [FramesFit]
  | ipv4 | ipv6 =>
    simp only [addressRead]
    split_ifs <;> simp [FramesFit]
  | uint8 | uint16 | uint32 | uint64 | bool | fixed32 | fixed64 =>
    simp only [fixedRead]
    split_ifs <;> simp [FramesFit]

lemma boundsFit_elementsRead {decode : Cursor → Result Value}
    (hdecode : ∀ s, BoundsFit n (decode s).log) (k : ℕ) :
    ∀ s, BoundsFit n (elementsRead decode k s).log := by
  induction k with
  | zero => exact fun s => .of_fit framesFit_nil
  | succ k ih =>
    intro s
    rw [elementsRead]
    split_ifs with herror
    · exact .of_fit framesFit_nil
    · exact (hdecode s).append (ih _)

lemma boundsFit_arrayRead {decode : Cursor → Result Value}
    (hdecode : ∀ s, BoundsFit n (decode s).log) (s : Cursor) :
    BoundsFit n (arrayRead input decode s).log := by
  have hcount : BoundsFit n (logged (uintRead input) s).log :=
    .of_fit (framesFit_logged.2 (framesFit_uintRead s))
  simp only [arrayRead]
  split_ifs with hfail
  · exact hcount
  · exact hcount.append (boundsFit_elementsRead hdecode _ _)

/-- **A frame that wraps around** narrows the buffer to an end before the position. -/
lemma boundsFit_frameRead {decode : Cursor → Result Value} (hn : n < 2 ^ 64)
    (hdecode : ∀ s, BoundsFit n (decode s).log) (s : Cursor) :
    BoundsFit n (frameRead input decode s).log := by
  have hlen : BoundsFit n (logged (uintRead input) s).log :=
    .of_fit (framesFit_logged.2 (framesFit_uintRead s))
  have hlt : (logged (uintRead input) s).value < 2 ^ 64 := uintRead_lt s
  have hseen : .state (logged (uintRead input) s).cursor ∈ (logged (uintRead input) s).log := by
    simp [logged]
  simp only [frameRead]
  generalize logged (uintRead input) s = len at *
  split_ifs with hfail hlong
  · exact hlen
  · -- a refused frame ends after the buffer, so its end is no smaller than the position
    intro hin
    rw [List.forall_mem_append] at hin
    have hcursor : len.cursor.Inside n := hin.1 _ hseen
    refine framesFit_append.2 ⟨hlen hin.1, framesFit_length.2 ⟨?_, framesFit_nil⟩⟩
    have hbefore := hcursor.1
    have hafter := hcursor.2
    simp only [wrapAdd] at hlong
    omega
  · intro hin
    simp only [List.forall_mem_append, List.forall_mem_cons] at hin
    have hcursor : len.cursor.Inside n := hin.1 _ hseen
    have hinner := hin.2.2.1.1
    refine framesFit_append.2 ⟨hlen hin.1, framesFit_length.2 ⟨?_, ?_⟩⟩
    · have hbefore := hcursor.1
      have hafter := hcursor.2
      simp only [wrapAdd] at hinner
      omega
    · exact framesFit_state.2 (hdecode _ hin.2.2.2)

lemma boundsFit_run (hn : n < 2 ^ 64) (d : Decoder) : ∀ s, BoundsFit n (d.run input s).log := by
  induction d with
  | done v => exact fun s => .of_fit framesFit_nil
  | read p next ih =>
    intro s
    have hr : BoundsFit n (p.decode input s).log := .of_fit (framesFit_prim p s)
    exact hr.logged.append (ih _ _ _)
  | array element next ihelement ihnext =>
    intro s
    exact (boundsFit_arrayRead ihelement s).logged.append (ihnext _ _ _)
  | frame inner next ihinner ihnext =>
    intro s
    refine (boundsFit_frameRead hn ihinner s).logged.append fun hin => ?_
    exact framesFit_frame.2 (ihnext _ _ _ (List.forall_mem_cons.1 hin).2)

/-! ## Main results -/

/-- **A decoder stays inside of its buffer exactly if its frames fit**: the positions of every state
are in order and within the buffer, the first one never goes back, what is read and what is returned
lies within the buffer, the end is restored after each frame, and after an error nothing is read, if
and only if no length of a frame, added to the position it was met at, wraps around. -/
theorem stays_iff_framesFit (input : Input) (d : Decoder) :
    Stays input.1.length (d.run input (.forDecode input)).log ↔
      FramesFit (d.run input (.forDecode input)).log := by
  have hinside : (Cursor.forDecode input).Inside input.1.length := ⟨Nat.zero_le _, le_rfl⟩
  exact ⟨fun h => boundsFit_run input.2 d _ h.1,
    fun h => (keeps_run input.2 d _ hinside h).path.stays⟩

/-- A frame of `2 ^ 64 - 9` bytes, whose length takes nine bytes. -/
def wrappingFrame : Input := ⟨[0xFF, 0xF7, 0xFF, 0xFF, 0xFF, 0xFF, 0xFF, 0xFF, 0xFF], by decide⟩

/-- A frame whose end wraps around to zero: the bytes that are left in it begin after the buffer. -/
theorem not_stays_wrappingFrame :
    ¬ ∀ (input : Input) (d : Decoder),
      Stays input.1.length (d.run input (.forDecode input)).log := by
  intro h
  have hspan := (h wrappingFrame (.frame (.read .raw fun v _ => .done v) fun v _ => .done v)).1
    (.span 9 (2 ^ 64 - 9)) (by decide)
  simp [Event.InBounds, wrappingFrame] at hspan

end HyperDHT.Compact.Bounds
