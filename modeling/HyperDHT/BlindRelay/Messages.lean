import Mathlib.Data.Vector.Basic
import HyperDHT.Protomux.Varint

/-!
# Messages of the blind relay

The two messages of the "blind-relay" protocol (`encode_pair`, `decode_pair`, `encode_unpair` and
`decode_unpair` of `blind_relay.cpp`). A peer asks the relay with a Pair message to be paired with the peer
that presents the same token; an Unpair message cancels that.

## Main definitions

* `BlindRelay.Token`, `PairMessage`, `UnpairMessage` — the data.
* `BlindRelay.encodePair`, `decodePair`, `encodeUnpair`, `decodeUnpair` — the wire format.
* `BlindRelay.pairType`, `BlindRelay.unpairType` — the message types on the channel.

## Main results

* `BlindRelay.decodePair_encodePair`, `BlindRelay.decodeUnpair_encodeUnpair` — a message is read back as it
  was written.
* `BlindRelay.length_encodePair` — the size that is computed for the buffer is the length of the encoding.

## Design

The maps of the source are keyed by `token_hex`, which is injective; here the token itself is the key.
-/

set_option autoImplicit false

namespace HyperDHT.BlindRelay

open Protomux

/-- A token, 32 bytes. -/
abbrev Token := List.Vector UInt8 32

def zeroToken : Token := List.Vector.replicate 32 0

/-- A Pair message. -/
structure PairMessage where
  isInitiator : Bool := false
  token : Token := zeroToken
  /-- The id of a stream of the sender. -/
  id : UInt32 := 0
  seq : UInt32 := 0
  deriving DecidableEq

/-- An Unpair message. -/
structure UnpairMessage where
  token : Token := zeroToken
  deriving DecidableEq

def pairType : Int32 := 0

def unpairType : Int32 := 1

/-! ## The wire format -/

/-- `[flags][token][id][seq]`, where bit 0 of the flags is the role. -/
def encodePair (m : PairMessage) : List UInt8 :=
  (if m.isInitiator then 1 else 0) :: m.token.toList ++ varintEncode m.id.toUInt64 ++
    varintEncode m.seq.toUInt64

/-- Read the token that a buffer begins with, if the buffer is long enough. -/
def decodeToken (bytes : List UInt8) : Option (Token × List UInt8) :=
  if h : (bytes.take 32).length = 32 then some (⟨bytes.take 32, h⟩, bytes.drop 32) else none

/-- Read a varint into 32 bits; at the end of the buffer the field keeps its default. -/
def decodeUint (bytes : List UInt8) : UInt32 × List UInt8 :=
  if bytes = [] then (0, []) else ((varintDecode bytes).1.toUInt32, (varintDecode bytes).2)

/-- The fields up to the end of the buffer; the rest keep their defaults. -/
def decodePair : List UInt8 → PairMessage
  | [] => {}
  | flags :: bytes =>
    let isInitiator := flags &&& 1 ≠ 0
    match decodeToken bytes with
    | none => { isInitiator := isInitiator }
    | some (token, rest) =>
      let (id, rest) := decodeUint rest
      let (seq, _) := decodeUint rest
      { isInitiator := isInitiator, token := token, id := id, seq := seq }

/-- `[flags][token]`, where the flags are empty. -/
def encodeUnpair (m : UnpairMessage) : List UInt8 := 0 :: m.token.toList

/-- The token, if the buffer holds it. -/
def decodeUnpair : List UInt8 → UnpairMessage
  | [] => {}
  | _ :: bytes =>
    match decodeToken bytes with
    | none => {}
    | some (token, _) => { token := token }

/-! ## Round trips -/

@[simp] lemma decodeToken_append (token : Token) (rest : List UInt8) :
    decodeToken (token.toList ++ rest) = some (token, rest) := by
  have htake : (token.toList ++ rest).take 32 = token.toList := List.take_left' token.toList_length
  have hdrop : (token.toList ++ rest).drop 32 = rest := List.drop_left' token.toList_length
  have hlen : ((token.toList ++ rest).take 32).length = 32 := by rw [htake, token.toList_length]
  rw [decodeToken, dif_pos hlen, hdrop]
  exact congrArg (fun t => some (t, rest)) (Subtype.ext htake)

@[simp] lemma decodeUint_append (value : UInt32) (rest : List UInt8) :
    decodeUint (varintEncode value.toUInt64 ++ rest) = (value, rest) := by
  rw [decodeUint, if_neg (by simp [varintEncode_ne_nil]), varintDecode_varintEncode]
  simp

/-- **Round trip of Pair messages**: what is written is read back. -/
@[simp] theorem decodePair_encodePair (m : PairMessage) : decodePair (encodePair m) = m := by
  have hseq : decodeUint (varintEncode m.seq.toUInt64) = (m.seq, []) := by
    simpa using decodeUint_append m.seq []
  have hflags : (((if m.isInitiator then 1 else 0 : UInt8) &&& 1 ≠ 0) : Bool) = m.isInitiator := by
    cases m.isInitiator <;> decide
  simp only [encodePair, List.cons_append, List.append_assoc, decodePair, decodeToken_append,
    decodeUint_append, hseq, hflags]

/-- **Round trip of Unpair messages**: what is written is read back. -/
@[simp] theorem decodeUnpair_encodeUnpair (m : UnpairMessage) : decodeUnpair (encodeUnpair m) = m := by
  have htoken : decodeToken m.token.toList = some (m.token, []) := by
    simpa using decodeToken_append m.token []
  simp only [encodeUnpair, decodeUnpair, htoken]

lemma length_encodePair (m : PairMessage) :
    (encodePair m).length = 1 + 32 + varintSize m.id.toUInt64 + varintSize m.seq.toUInt64 := by
  simp [encodePair]
  omega

end HyperDHT.BlindRelay
