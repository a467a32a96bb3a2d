import HyperDHT.Compact.Writer
import HyperDHT.Rpc.Messages

/-!
# The wire format of requests and responses

The encoders and decoders of `messages.cpp`. A message is a type byte, the flags that say which of
its optional fields are there, and the fields. The encoders go through the fields twice, once for
the size of the buffer and once to write, and the decoders a third time.

## Main definitions

* `Rpc.encodeRequest`, `encodeResponse` — the encoders, with `Rpc.requestWriter` and
  `Rpc.responseWriter` for the cursor that they end with.
* `Rpc.decodeRequest`, `decodeResponse`, `decodeMessage` — the decoders.
* `Rpc.Envelope.Fits` — no value and no list of nodes is longer than what a decoder takes.

## Main results

* `Rpc.decodeMessage_encode` — a message that fits fills its buffer exactly and is read back,
  whatever follows it.
* `Rpc.not_decodeMessage_longValue` — a response with a value that is too long is not read back.

## Design

A decoder of the source writes into a message of its caller; a field that is not on the wire keeps
what the caller had there. After a failure nobody looks at that message, so that a decoder that fails
returns nothing here.
-/

set_option autoImplicit false

namespace HyperDHT.Rpc

open Compact Routing LittleEndian

/-- The type bytes: the version of the protocol, with the kind of the message above it. -/
def requestId : UInt8 := 0x03
@[inherit_doc requestId] def responseId : UInt8 := 0x13

/-- The flags of a request. -/
def flagHasId : UInt8 := 1
@[inherit_doc flagHasId] def flagHasToken : UInt8 := 2
@[inherit_doc flagHasId] def flagInternal : UInt8 := 4
@[inherit_doc flagHasId] def flagHasTarget : UInt8 := 8
@[inherit_doc flagHasId] def flagHasValue : UInt8 := 16

/-- The flags of a response. -/
def respFlagHasId : UInt8 := 1
@[inherit_doc respFlagHasId] def respFlagHasToken : UInt8 := 2
@[inherit_doc respFlagHasId] def respFlagHasCloser : UInt8 := 4
@[inherit_doc respFlagHasId] def respFlagHasError : UInt8 := 8
@[inherit_doc respFlagHasId] def respFlagHasValue : UInt8 := 16

/-! ## The encoders -/

def requestFlags (req : Request) : UInt8 :=
  (if req.id.isSome then flagHasId else 0) ||| (if req.token.isSome then flagHasToken else 0) |||
    (if req.internal then flagInternal else 0) |||
    (if req.target.isSome then flagHasTarget else 0) |||
    (if req.value.isSome then flagHasValue else 0)

/-- The first pass over a request. -/
def requestPreencodes (req : Request) : List (ℕ → ℕ) :=
  [uintPreencode (requestFlags req).toUInt64,
    uint16Preencode,
    ipv4Preencode req.toAddr,
    optionally (fun id => fixedPreencode id.bytes) req.id,
    optionally fixedPreencode req.token,
    uintPreencode req.command.toUInt64,
    optionally (fun target => fixedPreencode target.bytes) req.target,
    optionally bufferPreencode req.value]

/-- The second pass over a request. -/
def requestWrites (req : Request) : List (Writer → Writer) :=
  [uintWrite (requestFlags req).toUInt64,
    uint16Write req.tid,
    ipv4Write req.toAddr,
    optionally (fun id => fixedWrite id.bytes) req.id,
    optionally fixedWrite req.token,
    uintWrite req.command.toUInt64,
    optionally (fun target => fixedWrite target.bytes) req.target,
    optionally bufferWrite req.value]

/-- The cursor after the two passes over a request. -/
def requestWriter (req : Request) : Writer := encoded (requestPreencodes req) (requestWrites req)

def encodeRequest (req : Request) : List UInt8 := requestId :: (requestWriter req).buffer

def responseFlags (resp : Response) : UInt8 :=
  (if resp.id.isSome then respFlagHasId else 0) |||
    (if resp.token.isSome then respFlagHasToken else 0) |||
    (if !resp.closerNodes.isEmpty then respFlagHasCloser else 0) |||
    (if resp.error.isSome then respFlagHasError else 0) |||
    (if resp.value.isSome then respFlagHasValue else 0)

/-- The first pass over a response. -/
def responsePreencodes (resp : Response) : List (ℕ → ℕ) :=
  [uintPreencode (responseFlags resp).toUInt64,
    uint16Preencode,
    ipv4Preencode resp.fromAddr,
    optionally (fun id => fixedPreencode id.bytes) resp.id,
    optionally fixedPreencode resp.token,
    unlessEmpty (arrayPreencode ipv4Preencode) resp.closerNodes,
    optionally (fun error => uintPreencode error.toUInt64) resp.error,
    optionally bufferPreencode resp.value]

/-- The second pass over a response. -/
def responseWrites (resp : Response) : List (Writer → Writer) :=
  [uintWrite (responseFlags resp).toUInt64,
    uint16Write resp.tid,
    ipv4Write resp.fromAddr,
    optionally (fun id => fixedWrite id.bytes) resp.id,
    optionally fixedWrite resp.token,
    unlessEmpty (arrayWrite ipv4Write) resp.closerNodes,
    optionally (fun error => uintWrite error.toUInt64) resp.error,
    optionally bufferWrite resp.value]

/-- The cursor after the two passes over a response. -/
def responseWriter (resp : Response) : Writer :=
  encoded (responsePreencodes resp) (responseWrites resp)

def encodeResponse (resp : Response) : List UInt8 := responseId :: (responseWriter resp).buffer

/-! ## The decoders -/

/-- Go on unless there was an error. -/
def checked {α : Type} (read : α × State) : Option (α × State) :=
  if read.2.error then none else some read

/-- Read a field if its flag is set, and keep the old value otherwise. -/
def readIf {α : Type} (flag : Bool) (old : α) (decode : State → α × State) (s : State) :
    Option (α × State) :=
  if flag then checked (decode s) else some (old, s)

/-- A field that is there. -/
def present {α : Type} (decode : State → α × State) (s : State) : Option α × State :=
  (some (decode s).1, (decode s).2)

/-- Read an id. -/
def nodeIdDecode (s : State) : NodeId × State := (⟨(fixedDecode 32 s).1⟩, (fixedDecode 32 s).2)

/-- Read a number and keep its low 32 bits. -/
def lowDecode (s : State) : UInt32 × State := ((uintDecode s).1.toUInt32, (uintDecode s).2)

def decodeRequest (data : List UInt8) (req : Request) : Option Request := do
  let (flagsRaw, s) ← checked (uintDecode (.forDecode data))
  if flagsRaw > 0xFF then none
  let flags := flagsRaw.toUInt8
  let (tid, s) ← checked (uint16Decode s)
  let (toAddr, s) ← checked (ipv4Decode s)
  let (id, s) ← readIf (flags &&& flagHasId != 0) req.id (present nodeIdDecode) s
  let (token, s) ← readIf (flags &&& flagHasToken != 0) req.token (present (fixedDecode 32)) s
  let internal := flags &&& flagInternal != 0
  let (command, s) ← checked (lowDecode s)
  let (target, s) ← readIf (flags &&& flagHasTarget != 0) req.target (present nodeIdDecode) s
  let (value, _) ← readIf (flags &&& flagHasValue != 0) req.value (present bufferDecode) s
  return { tid, toAddr, id, token, command, target, value, internal }

def decodeResponse (data : List UInt8) (resp : Response) : Option Response := do
  let (flagsRaw, s) ← checked (uintDecode (.forDecode data))
  if flagsRaw > 0xFF then none
  let flags := flagsRaw.toUInt8
  let (tid, s) ← checked (uint16Decode s)
  let (fromAddr, s) ← checked (ipv4Decode s)
  let (id, s) ← readIf (flags &&& respFlagHasId != 0) resp.id (present nodeIdDecode) s
  let (token, s) ← readIf (flags &&& respFlagHasToken != 0) resp.token (present (fixedDecode 32)) s
  let (closerNodes, s) ← readIf (flags &&& respFlagHasCloser != 0) resp.closerNodes
    (arrayDecode ipv4Decode) s
  let (error, s) ← readIf (flags &&& respFlagHasError != 0) resp.error (present lowDecode) s
  let (value, _) ← readIf (flags &&& respFlagHasValue != 0) resp.value (present bufferDecode) s
  return { tid, fromAddr, id, token, closerNodes, error, value }

/-- A message of either type. -/
inductive Envelope where
  | request (req : Request)
  | response (resp : Response)
  deriving DecidableEq

/-- Decode a message of the type of its first byte, into the messages of the caller. -/
def decodeMessage (data : List UInt8) (req : Request) (resp : Response) : Option Envelope :=
  match data with
  | [] => none
  | [_] => none
  | type :: body =>
    if type = requestId then (decodeRequest body req).map .request
    else if type = responseId then (decodeResponse body resp).map .response
    else none

namespace Envelope

/-- The cursor after the two passes over a message. -/
def writer : Envelope → Writer
  | .request req => requestWriter req
  | .response resp => responseWriter resp

def encode : Envelope → List UInt8
  | .request req => encodeRequest req
  | .response resp => encodeResponse resp

/-- No value and no list of nodes is longer than what a decoder takes. -/
def Fits : Envelope → Prop
  | .request req => ∀ value, req.value = some value → value.length ≤ maxBufferDecode
  | .response resp => (∀ value, resp.value = some value → value.length ≤ maxBufferDecode) ∧
      resp.closerNodes.length ≤ arrayMaxLength

end Envelope

/-! ## The passes agree -/

lemma allFill_request (req : Request) : AllFill (requestPreencodes req) (requestWrites req)
    (uintEncode (requestFlags req).toUInt64 ++ (toLe 2 req.tid.toNat ++ (ipv4Encode req.toAddr ++
      ((req.id.map fun id => id.bytes.toList).getD [] ++
      ((req.token.map fun token => token.toList).getD [] ++
      (uintEncode req.command.toUInt64 ++
      ((req.target.map fun target => target.bytes.toList).getD [] ++
      ((req.value.map bufferEncode).getD [] ++ [])))))))) :=
  .cons (fills_uint _) <| .cons (fills_uint16 _) <| .cons (fills_ipv4 _) <|
    .cons (fills_optionally (fun id : NodeId => fills_fixed id.bytes) _) <|
    .cons (fills_optionally fills_fixed _) <| .cons (fills_uint _) <|
    .cons (fills_optionally (fun target : NodeId => fills_fixed target.bytes) _) <|
    .cons (fills_optionally fills_buffer _) .nil

lemma allFill_response (resp : Response) : AllFill (responsePreencodes resp) (responseWrites resp)
    (uintEncode (responseFlags resp).toUInt64 ++ (toLe 2 resp.tid.toNat ++
      (ipv4Encode resp.fromAddr ++ ((resp.id.map fun id => id.bytes.toList).getD [] ++
      ((resp.token.map fun token => token.toList).getD [] ++
      ((if resp.closerNodes.isEmpty then [] else arrayEncode ipv4Encode resp.closerNodes) ++
      ((resp.error.map fun error => uintEncode error.toUInt64).getD [] ++
      ((resp.value.map bufferEncode).getD [] ++ [])))))))) :=
  .cons (fills_uint _) <| .cons (fills_uint16 _) <| .cons (fills_ipv4 _) <|
    .cons (fills_optionally (fun id : NodeId => fills_fixed id.bytes) _) <|
    .cons (fills_optionally fills_fixed _) <|
    .cons (fills_unlessEmpty (fun _ => fills_array fills_ipv4 _) _) <|
    .cons (fills_optionally (fun error : UInt32 => fills_uint error.toUInt64) _) <|
    .cons (fills_optionally fills_buffer _) .nil

/-! ## The flags -/

lemma requestFlags_spec (req : Request) :
    ¬ (requestFlags req).toUInt64 > 0xFF ∧
      (requestFlags req &&& flagHasId != 0) = req.id.isSome ∧
      (requestFlags req &&& flagHasToken != 0) = req.token.isSome ∧
      (requestFlags req &&& flagInternal != 0) = req.internal ∧
      (requestFlags req &&& flagHasTarget != 0) = req.target.isSome ∧
      (requestFlags req &&& flagHasValue != 0) = req.value.isSome := by
  unfold requestFlags
  generalize req.id.isSome = a
  generalize req.token.isSome = b
  generalize req.internal = c
  generalize req.target.isSome = d
  generalize req.value.isSome = e
  revert a b c d e
  decide

lemma responseFlags_spec (resp : Response) :
    ¬ (responseFlags resp).toUInt64 > 0xFF ∧
      (responseFlags resp &&& respFlagHasId != 0) = resp.id.isSome ∧
      (responseFlags resp &&& respFlagHasToken != 0) = resp.token.isSome ∧
      (responseFlags resp &&& respFlagHasCloser != 0) = !resp.closerNodes.isEmpty ∧
      (responseFlags resp &&& respFlagHasError != 0) = resp.error.isSome ∧
      (responseFlags resp &&& respFlagHasValue != 0) = resp.value.isSome := by
  unfold responseFlags
  generalize resp.id.isSome = a
  generalize resp.token.isSome = b
  generalize resp.closerNodes.isEmpty = c
  generalize resp.error.isSome = d
  generalize resp.value.isSome = e
  revert a b c d e
  decide

/-! ## Messages are read back -/

section

variable {α : Type} {decode : State → α × State} {encode : α → List UInt8}

lemma readIf_encode {x : Option α} (flag : Bool) (hflag : flag = x.isSome)
    (hround : ∀ a, x = some a → ∀ rest, decode ⟨encode a ++ rest, false⟩ = (a, ⟨rest, false⟩))
    (rest : List UInt8) :
    readIf flag none (present decode) ⟨(x.map encode).getD [] ++ rest, false⟩ =
      some (x, ⟨rest, false⟩) := by
  subst hflag
  cases x with
  | none => rfl
  | some a => simp [readIf, present, checked, hround a rfl rest]

lemma nodeIdDecode_append (id : NodeId) (rest : List UInt8) :
    nodeIdDecode ⟨id.bytes.toList ++ rest, false⟩ = (id, ⟨rest, false⟩) := by
  simp [nodeIdDecode, fixedDecode_append]

lemma lowDecode_uintEncode (v : UInt32) (rest : List UInt8) :
    lowDecode ⟨uintEncode v.toUInt64 ++ rest, false⟩ = (v, ⟨rest, false⟩) := by
  simp [lowDecode, uintDecode_uintEncode]

lemma readIf_closerNodes {nodes : List Ipv4Address} (flag : Bool) (hflag : flag = !nodes.isEmpty)
    (hlen : nodes.length ≤ arrayMaxLength) (rest : List UInt8) :
    readIf flag [] (arrayDecode ipv4Decode)
        ⟨(if nodes.isEmpty then [] else arrayEncode ipv4Encode nodes) ++ rest, false⟩ =
      some (nodes, ⟨rest, false⟩) := by
  subst hflag
  cases nodes with
  | nil => rfl
  | cons a nodes =>
    simp [readIf, checked, arrayDecode_arrayEncode ipv4Decode_ipv4Encode hlen rest]

end

/-- **A request is read back**, whatever follows its fields. -/
theorem decodeRequest_append (req : Request)
    (h : ∀ value, req.value = some value → value.length ≤ maxBufferDecode) (rest : List UInt8) :
    decodeRequest ((requestWriter req).buffer ++ rest) { toAddr := Ipv4Address.zero } =
      some req := by
  obtain ⟨hflags, hid, htoken, hinternal, htarget, hvalue⟩ := requestFlags_spec req
  rw [requestWriter, (allFill_request req).buffer_eq]
  simp only [List.append_assoc, decodeRequest, State.forDecode, uintDecode_uintEncode, checked,
    Bool.false_eq_true, if_false, Option.bind_eq_bind, Option.bind_some, hflags,
    UInt8.toUInt8_toUInt64, uint16Decode_toLe, ipv4Decode_ipv4Encode]
  rw [readIf_encode _ hid fun id _ => nodeIdDecode_append id, Option.bind_some,
    readIf_encode _ htoken fun token _ => fixedDecode_append token, Option.bind_some]
  simp only [lowDecode_uintEncode, Bool.false_eq_true, if_false, Option.bind_some]
  rw [readIf_encode _ htarget fun id _ => nodeIdDecode_append id, Option.bind_some,
    readIf_encode _ hvalue fun value hv => bufferDecode_bufferEncode (h value hv),
    Option.bind_some, hinternal]
  rfl

/-- **A response is read back**, whatever follows its fields. -/
theorem decodeResponse_append (resp : Response)
    (h : ∀ value, resp.value = some value → value.length ≤ maxBufferDecode)
    (hnodes : resp.closerNodes.length ≤ arrayMaxLength) (rest : List UInt8) :
    decodeResponse ((responseWriter resp).buffer ++ rest) {} = some resp := by
  obtain ⟨hflags, hid, htoken, hcloser, herror, hvalue⟩ := responseFlags_spec resp
  rw [responseWriter, (allFill_response resp).buffer_eq]
  simp only [List.append_assoc, decodeResponse, State.forDecode, uintDecode_uintEncode, checked,
    Bool.false_eq_true, if_false, Option.bind_eq_bind, Option.bind_some, hflags,
    UInt8.toUInt8_toUInt64, uint16Decode_toLe, ipv4Decode_ipv4Encode]
  rw [readIf_encode _ hid fun id _ => nodeIdDecode_append id, Option.bind_some,
    readIf_encode _ htoken fun token _ => fixedDecode_append token, Option.bind_some,
    readIf_closerNodes _ hcloser hnodes, Option.bind_some,
    readIf_encode _ herror fun error _ => lowDecode_uintEncode error, Option.bind_some,
    readIf_encode _ hvalue fun value hv => bufferDecode_bufferEncode (h value hv),
    Option.bind_some]
  rfl

lemma decodeMessage_cons {type : UInt8} {body : List UInt8} (h : body ≠ []) (req : Request)
    (resp : Response) :
    decodeMessage (type :: body) req resp =
      if type = requestId then (decodeRequest body req).map .request
      else if type = responseId then (decodeResponse body resp).map .response
      else none := by
  cases body with
  | nil => exact absurd rfl h
  | cons b body => rfl

lemma uintEncode_ne_nil (v : UInt64) : uintEncode v ≠ [] := by
  simp only [uintEncode]
  split_ifs <;> simp

/-- **Round trip of the envelope**: the encoder meets no error and fills its buffer exactly, and
decoding what it wrote, whatever follows it, returns the type and the message. -/
theorem decodeMessage_encode (m : Envelope) (h : m.Fits) :
    m.writer.Full ∧
      ∀ rest, decodeMessage (m.encode ++ rest) { toAddr := Ipv4Address.zero } {} = some m := by
  cases m with
  | request req =>
    refine ⟨(allFill_request req).full, fun rest => ?_⟩
    have hne : (requestWriter req).buffer ++ rest ≠ [] := by
      rw [requestWriter, (allFill_request req).buffer_eq]
      simp [uintEncode_ne_nil]
    rw [Envelope.encode, encodeRequest, List.cons_append, decodeMessage_cons hne, if_pos rfl,
      decodeRequest_append req h]
    rfl
  | response resp =>
    refine ⟨(allFill_response resp).full, fun rest => ?_⟩
    have hne : (responseWriter resp).buffer ++ rest ≠ [] := by
      rw [responseWriter, (allFill_response resp).buffer_eq]
      simp [uintEncode_ne_nil]
    rw [Envelope.encode, encodeResponse, List.cons_append, decodeMessage_cons hne,
      if_neg (by decide), if_pos rfl, decodeResponse_append resp h.1 h.2]
    rfl

def emptyValue : Request :=
  { toAddr := Ipv4Address.zero, command := 0xFFFFFFFF, value := some [] }

theorem decodeMessage_encode_emptyValue :
    (Envelope.request emptyValue).Fits ∧ (Envelope.request emptyValue).writer.Full ∧
      ∀ rest, decodeMessage ((Envelope.request emptyValue).encode ++ rest)
        { toAddr := Ipv4Address.zero } {} = some (.request emptyValue) :=
  have hfits : (Envelope.request emptyValue).Fits := by
    rintro value ⟨⟩
    exact Nat.zero_le _
  ⟨hfits, decodeMessage_encode (.request emptyValue) hfits⟩

lemma bufferDecode_of_long {data : List UInt8} (hlong : maxBufferDecode < data.length)
    (hsize : data.length < 2 ^ 64) (rest : List UInt8) :
    (bufferDecode ⟨bufferEncode data ++ rest, false⟩).2.error = true := by
  have hlen : (UInt64.ofNat data.length).toNat = data.length := by
    rw [UInt64.toNat_ofNat']
    exact Nat.mod_eq_of_lt hsize
  have hne : UInt64.ofNat data.length ≠ 0 := by
    intro hzero
    rw [hzero] at hlen
    have hzero : data.length = 0 := hlen.symm
    rw [hzero] at hlong
    cases hlong
  have hnil : data.isEmpty = false := by
    cases data with
    | nil => cases hlong
    | cons b data => rfl
  rw [bufferEncode, if_neg (by simp [hnil]), List.append_assoc, bufferDecode, uintDecode_uintEncode]
  simp only [hlen, hne, Bool.false_eq_true, if_false]
  rw [if_pos hlong]
  rfl

lemma decodeResponse_of_long {resp : Response} {value : List UInt8} (hvalue : resp.value = some value)
    (hlong : maxBufferDecode < value.length) (hsize : value.length < 2 ^ 64)
    (hnodes : resp.closerNodes.length ≤ arrayMaxLength) :
    decodeResponse (responseWriter resp).buffer {} = none := by
  obtain ⟨hflags, hid, htoken, hcloser, herror, hhas⟩ := responseFlags_spec resp
  rw [responseWriter, (allFill_response resp).buffer_eq]
  simp only [decodeResponse, State.forDecode, uintDecode_uintEncode, checked,
    Bool.false_eq_true, if_false, Option.bind_eq_bind, Option.bind_some, hflags,
    UInt8.toUInt8_toUInt64, uint16Decode_toLe, ipv4Decode_ipv4Encode]
  rw [readIf_encode _ hid fun id _ => nodeIdDecode_append id, Option.bind_some,
    readIf_encode _ htoken fun token _ => fixedDecode_append token, Option.bind_some,
    readIf_closerNodes _ hcloser hnodes, Option.bind_some,
    readIf_encode _ herror fun error _ => lowDecode_uintEncode error, Option.bind_some]
  have hstop := bufferDecode_of_long hlong hsize []
  rw [List.append_nil] at hstop
  simp [hvalue, hhas, readIf, checked, present, hstop]

def longValue : Response := { value := some (List.replicate (maxBufferDecode + 1) 0) }

/-- A response with a value that is too long is encoded, but not decoded. -/
theorem not_decodeMessage_longValue :
    ¬ ∀ rest, decodeMessage ((Envelope.response longValue).encode ++ rest)
      { toAddr := Ipv4Address.zero } {} = some (.response longValue) := by
  intro h
  have hnil := h []
  have hlength : (List.replicate (maxBufferDecode + 1) (0 : UInt8)).length = maxBufferDecode + 1 :=
    List.length_replicate
  have hnone : decodeResponse (responseWriter longValue).buffer {} = none :=
    decodeResponse_of_long rfl (by rw [hlength]; exact Nat.lt_succ_self _)
      (by rw [hlength]; decide) (by decide)
  have hne : (responseWriter longValue).buffer ≠ [] := by
    rw [responseWriter, (allFill_response longValue).buffer_eq]
    simp [uintEncode_ne_nil]
  rw [List.append_nil, Envelope.encode, encodeResponse, decodeMessage_cons hne,
    if_neg (by decide), if_pos rfl, hnone] at hnil
  cases hnil

end HyperDHT.Rpc
