import Mathlib.Data.Vector.Basic
import HyperDHT.SecretStream.Frame

/-!
# The duplex over a secret stream

The classes `SecretStream` and `SecretStreamDuplex` of `secret_stream.cpp`. Each end sends its stream id and the header
of its secretstream in the first frame, and then one frame for each message it writes.

## Main definitions

* `SecretStream.Sodium` — the functions of libsodium, as parameters.
* `SecretStream.PushState`, `SecretStream.PullState` — the two states of a secretstream.
* `SecretStream.Crypto` — the class `SecretStream`, with `encrypt` and `decrypt`.
* `SecretStream.Duplex` — the class `SecretStreamDuplex` and its methods.
* `SecretStream.Input`, `SecretStream.Duplex.step` — the duplex as a machine.

## Main results

* `SecretStream.Duplex.processIncomingBytes_append` — two chunks and their concatenation lead to the same state.
* `SecretStream.Duplex.handled_drain` — `handle_frame` is called with the frames of the buffer, in order, up to the one
  that destroys the stream.

## Design

* The secretstream is ideal. What `push` makes depends on its key, its header and all messages it was given; `pull`
  succeeds exactly on what the other end pushed next, under the same key and header, and else changes nothing.
* The bytes given to `udx_stream_write` are collected in `sent`, and the calls of `handle_frame` and `on_message` in
  `handled` and `messages`. UDX takes what it is given. What a callback calls is an input that follows.
* An inactivity timeout, an error of the raw stream and a call of the user are the input `destroy`. The byte
  counters and the restart of the timers are left out.
-/

set_option autoImplicit false

namespace HyperDHT.SecretStream

open LittleEndian

/-! ## The secretstream -/

/-- A key of a secretstream. -/
abbrev Key := List.Vector UInt8 32
/-- The hash of the Noise handshake. -/
abbrev Hash := List.Vector UInt8 64
/-- The header that a secretstream begins with. -/
abbrev Header := List.Vector UInt8 24
/-- A stream id. -/
abbrev StreamId := List.Vector UInt8 32

/-- The functions of libsodium. -/
structure Sodium where
  /-- `crypto_generichash` with 32 bytes, of a message and a key. -/
  generichash : List UInt8 → List UInt8 → StreamId
  /-- The ciphertext of a message that is pushed after some other ones. -/
  push : Key → Header → List (List UInt8) → List UInt8 → List UInt8
  length_push : ∀ key header before data, (push key header before data).length = data.length + abytes

/-- The state of the end that pushes. -/
structure PushState where
  key : Key
  header : Header
  /-- The messages that were pushed. -/
  pushed : List (List UInt8) := []

/-- The state of the end that pulls. -/
structure PullState where
  key : Key
  header : Header
  /-- How many messages were pulled. -/
  pulled : ℕ := 0

section Crypto

variable (L : Sodium)

namespace PushState

/-- The ciphertext of the next message. -/
def ciphertext (p : PushState) (data : List UInt8) : List UInt8 := L.push p.key p.header p.pushed data

/-- The ciphertexts of the messages that were pushed. -/
def ciphertexts (p : PushState) : List (List UInt8) :=
  p.pushed.mapIdx fun i data => L.push p.key p.header (p.pushed.take i) data

end PushState

/-- `crypto_secretstream_xchacha20poly1305_pull`, of an end whose peer has pushed with `peer`. -/
def PullState.pull (peer : PushState) (p : PullState) (body : List UInt8) :
    Option (PullState × List UInt8) :=
  if p.key = peer.key ∧ p.header = peer.header then
    match peer.pushed[p.pulled]? with
    | some data =>
      if L.push peer.key peer.header (peer.pushed.take p.pulled) data = body then
        some ({ p with pulled := p.pulled + 1 }, data)
      else none
    | none => none
  else none

/-- `NS_INITIATOR`. -/
def nsInitiator : List UInt8 :=
  [0xa9, 0x31, 0xa0, 0x15, 0x5b, 0x5c, 0x09, 0xe6, 0xd2, 0x86, 0x28, 0x23, 0x6a, 0xf8, 0x3c, 0x4b,
    0x8a, 0x6a, 0xf9, 0xaf, 0x60, 0x98, 0x6e, 0xde, 0xed, 0xe9, 0xdc, 0x5d, 0x63, 0x19, 0x2b, 0xf7]

/-- `NS_RESPONDER`. -/
def nsResponder : List UInt8 :=
  [0x74, 0x2c, 0x9d, 0x83, 0x3d, 0x43, 0x0a, 0xf4, 0xc4, 0x8a, 0x87, 0x05, 0xe9, 0x16, 0x31, 0xee,
    0xcf, 0x29, 0x54, 0x42, 0xbb, 0xca, 0x18, 0x99, 0x6e, 0x59, 0x70, 0x97, 0x72, 0x3b, 0x10, 0x61]

/-- `compute_stream_id`. -/
def computeStreamId (handshakeHash : Hash) (isInitiator : Bool) : StreamId :=
  L.generichash (if isInitiator then nsInitiator else nsResponder) handshakeHash.toList

/-! ## The class `SecretStream` -/

/-- What the Noise handshake has agreed on. -/
structure DuplexHandshake where
  txKey : Key
  rxKey : Key
  handshakeHash : Hash
  isInitiator : Bool

/-- The class `SecretStream`. -/
structure Crypto where
  localId : StreamId
  remoteId : StreamId
  rxKey : Key
  push : PushState
  /-- The pull state, once the header of the peer was received. -/
  pull : Option PullState := none
  headerSent : Bool := false
  keepAliveMs : UInt64 := 0

namespace Crypto

/-- The constructor, where `init_push` draws `header`. -/
def new (hs : DuplexHandshake) (header : Header) : Crypto where
  localId := computeStreamId L hs.handshakeHash hs.isInitiator
  remoteId := computeStreamId L hs.handshakeHash (!hs.isInitiator)
  rxKey := hs.rxKey
  push := { key := hs.txKey, header := header }

/-- The body of the first frame. -/
def idHeader (c : Crypto) : List UInt8 := c.localId.toList ++ c.push.header.toList

def createHeaderMessage (c : Crypto) : Crypto × List UInt8 :=
  ({ c with headerSent := true }, toLe 3 idHeaderBytes ++ c.idHeader)

def receiveHeader (c : Crypto) (data : List UInt8) : Option Crypto :=
  if hlength : data.length = idHeaderBytes then
    if data.take streamIdLen = c.remoteId.toList then
      let header : Header :=
        ⟨data.drop streamIdLen, by rw [List.length_drop, hlength]; rfl⟩
      some { c with pull := some { key := c.rxKey, header := header } }
    else none
  else none

/-- Both headers were exchanged. -/
def isReady (c : Crypto) : Bool := c.headerSent && c.pull.isSome

/-- The frame of a message; nothing where it cannot be encrypted. -/
def encrypt (c : Crypto) (data : List UInt8) : Crypto × List UInt8 :=
  if c.isReady = false then (c, [])
  else if data.length > 0xFFFFFF - abytes then (c, [])
  else
    ({ c with push := { c.push with pushed := c.push.pushed ++ [data] } }, frame (c.push.ciphertext L data))

/-- The message of a frame, if it is authentic and no keepalive. -/
def decrypt (peer : PushState) (c : Crypto) (data : List UInt8) : Crypto × Option (List UInt8) :=
  if c.isReady = false then (c, none)
  else if data.length < abytes then (c, none)
  else
    match c.pull.bind (·.pull L peer data) with
    | none => (c, none)
    | some (pull, pt) =>
      ({ c with pull := some pull }, if pt = [] ∧ c.keepAliveMs > 0 then none else some pt)

end Crypto

end Crypto

/-! ## The class `SecretStreamDuplex` -/

/-- The cap of the messages that wait for the connection. -/
def maxPending : ℕ := 64

/-- The class `SecretStreamDuplex`. -/
structure Duplex where
  crypto : Crypto
  /-- `opts_.keep_alive_ms`. -/
  keepAliveMs : UInt64 := 0
  started : Bool := false
  connected : Bool := false
  headerSent : Bool := false
  headerReceived : Bool := false
  ended : Bool := false
  destroyed : Bool := false
  closeError : Int := 0
  recvBuf : List UInt8 := []
  pendingMessages : List (List UInt8) := []
  sent : List UInt8 := []
  handled : List (List UInt8) := []
  messages : List (List UInt8) := []

/-- What can happen to a duplex: the calls of its user, the acknowledgement of the header frame, bytes from the raw
stream, and the timer of the keepalives. -/
inductive Input where
  | start
  | headerAck (status : Int)
  | read (data : List UInt8)
  | write (data : List UInt8)
  | keepAlive
  | end
  | destroy (error : Int)

namespace Duplex

/-- The constructor. -/
def new (L : Sodium) (hs : DuplexHandshake) (header : Header) (keepAliveMs : UInt64) : Duplex where
  crypto := Crypto.new L hs header
  keepAliveMs := keepAliveMs

def destroy (d : Duplex) (error : Int) : Duplex :=
  if d.destroyed then d else { d with destroyed := true, closeError := error }

def start (d : Duplex) : Duplex :=
  if d.started ∨ d.destroyed then d
  else
    let (crypto, header) := d.crypto.createHeaderMessage
    { d with
      started := true
      headerSent := false
      crypto :=
        if d.keepAliveMs > 0 then { crypto with keepAliveMs := d.keepAliveMs } else crypto
      sent := d.sent ++ header }

def maybeFireConnect (d : Duplex) : Duplex :=
  if d.connected then d
  else if d.headerSent = false ∨ d.headerReceived = false then d
  else
    -- the messages that came before the connection are replayed
    { d with
      connected := true
      pendingMessages := []
      messages := d.messages ++ if d.destroyed then [] else d.pendingMessages }

/-- The callback of the write of the header frame. -/
def headerAck (d : Duplex) (status : Int) : Duplex :=
  if status ≥ 0 then { d with headerSent := true }.maybeFireConnect else d.destroy status

/-- `write`, with the value it returns. -/
def write (L : Sodium) (d : Duplex) (data : List UInt8) : Duplex × Int :=
  if d.destroyed ∨ d.ended then (d, -1)
  else if d.connected = false then (d, -2)
  else if data.length > maxAtomicWrite then (d, -3)
  else
    let (crypto, encrypted) := d.crypto.encrypt L data
    if encrypted = [] ∧ data.length ≠ 0 then ({ d with crypto := crypto }, -4)
    else ({ d with crypto := crypto, sent := d.sent ++ encrypted }, 0)

section Receiving

variable (L : Sodium) (peer : PushState)

def handleFrame (d : Duplex) (msg : List UInt8) : Duplex :=
  let d := { d with handled := d.handled ++ [msg] }
  if d.headerReceived = false then
    if msg.length ≠ idHeaderBytes then d.destroy (-5)
    else
      match d.crypto.receiveHeader msg with
      | none => d.destroy (-6)
      | some crypto => { d with crypto := crypto, headerReceived := true }.maybeFireConnect
  else
    let (crypto, plain) := d.crypto.decrypt L peer msg
    let d := { d with crypto := crypto }
    match plain with
    | none => d
    | some plain =>
      if d.connected = false then
        let d := { d with pendingMessages := d.pendingMessages ++ [plain] }
        if d.pendingMessages.length > maxPending then d.destroy (-7) else d
      else { d with messages := d.messages ++ [plain] }

/-- One round of the loop, and whether it goes on. -/
def tryExtractFrame (d : Duplex) : Duplex × Bool :=
  match parseFrame d.recvBuf with
  | .more => (d, false)
  | .oversized => (d.destroy (-9), false)
  | .zero => (d.destroy (-10), false)
  | .frame body rest => ({ d with recvBuf := rest }.handleFrame L peer body, true)

/-- The loop of `process_incoming_bytes`, for at most `n` rounds. -/
def extractFrames : ℕ → Duplex → Duplex
  | 0, d => d
  | n + 1, d =>
    if d.destroyed then d
    else
      match d.tryExtractFrame L peer with
      | (d', true) => extractFrames n d'
      | (d', false) => d'

/-- The whole loop: every round that goes on takes bytes off the buffer. -/
def drain (d : Duplex) : Duplex := d.extractFrames L peer d.recvBuf.length

/-- Put bytes behind those of the buffer. -/
def buffer (d : Duplex) (data : List UInt8) : Duplex := { d with recvBuf := d.recvBuf ++ data }

def processIncomingBytes (d : Duplex) (data : List UInt8) : Duplex :=
  if data = [] then d else (d.buffer data).drain L peer

end Receiving

/-- The messages that an input gives to `write`. -/
def writes (d : Duplex) : Input → List (List UInt8)
  | .write data => [data]
  | .keepAlive => if d.keepAliveMs > 0 ∧ d.connected ∧ d.destroyed = false then [[]] else []
  | _ => []

/-- The bytes that an input gives to `process_incoming_bytes`: the read callback is there once the
stream was started. -/
def reads (d : Duplex) : Input → List UInt8
  | .read data => if d.started then data else []
  | _ => []

/-- A duplex takes an input, where `peer` is the push state of the other end. -/
def step (L : Sodium) (peer : PushState) (d : Duplex) : Input → Duplex
  | .start => d.start
  | .headerAck status => if d.started then d.headerAck status else d
  | .read data => d.processIncomingBytes L peer (d.reads (.read data))
  | .write data => (d.write L data).1
  | .keepAlive => (d.writes .keepAlive).foldl (fun d data => (d.write L data).1) d
  | .end => if d.ended ∨ d.destroyed then d else { d with ended := true }
  | .destroy error => d.destroy error

/-! ## What the methods leave unchanged -/

section Loop

variable {L : Sodium} {peer : PushState}

@[simp] lemma destroy_recvBuf (d : Duplex) (error : Int) : (d.destroy error).recvBuf = d.recvBuf := by
  unfold destroy; split <;> rfl

@[simp] lemma destroy_handled (d : Duplex) (error : Int) : (d.destroy error).handled = d.handled := by
  unfold destroy; split <;> rfl

@[simp] lemma destroy_destroyed (d : Duplex) (error : Int) : (d.destroy error).destroyed = true := by
  unfold destroy; split
  · assumption
  · rfl

lemma destroy_buffer (d : Duplex) (error : Int) (data : List UInt8) :
    (d.buffer data).destroy error = (d.destroy error).buffer data := by
  unfold destroy buffer; split <;> rfl

@[simp] lemma maybeFireConnect_recvBuf (d : Duplex) : d.maybeFireConnect.recvBuf = d.recvBuf := by
  unfold maybeFireConnect; split_ifs <;> rfl

@[simp] lemma maybeFireConnect_handled (d : Duplex) : d.maybeFireConnect.handled = d.handled := by
  unfold maybeFireConnect; split_ifs <;> rfl

lemma maybeFireConnect_buffer (d : Duplex) (data : List UInt8) :
    (d.buffer data).maybeFireConnect = d.maybeFireConnect.buffer data := by
  unfold maybeFireConnect buffer; split <;> [rfl; split <;> rfl]

/-- What `handle_frame` can do. -/
theorem handleFrame_cases (d : Duplex) (msg : List UInt8) :
    (d.headerReceived = false ∧ (msg.length ≠ idHeaderBytes ∨ d.crypto.receiveHeader msg = none) ∧
      ∃ error, d.handleFrame L peer msg = { d with handled := d.handled ++ [msg] }.destroy error) ∨
    (d.headerReceived = false ∧ ∃ crypto, d.crypto.receiveHeader msg = some crypto ∧
      d.handleFrame L peer msg =
        { d with
          handled := d.handled ++ [msg]
          crypto := crypto
          headerReceived := true }.maybeFireConnect) ∨
    (d.headerReceived = true ∧ ∃ crypto plain, d.crypto.decrypt L peer msg = (crypto, plain) ∧
      ((plain = none ∧
          d.handleFrame L peer msg = { d with handled := d.handled ++ [msg], crypto := crypto }) ∨
        ∃ pt, plain = some pt ∧
          ((d.connected = true ∧ d.handleFrame L peer msg =
              { d with
                handled := d.handled ++ [msg]
                crypto := crypto
                messages := d.messages ++ [pt] }) ∨
            (d.connected = false ∧ d.handleFrame L peer msg =
              if d.pendingMessages.length + 1 > maxPending then
                { d with
                  handled := d.handled ++ [msg]
                  crypto := crypto
                  pendingMessages := d.pendingMessages ++ [pt] }.destroy (-7)
              else
                { d with
                  handled := d.handled ++ [msg]
                  crypto := crypto
                  pendingMessages := d.pendingMessages ++ [pt] })))) := by
  unfold handleFrame
  cases hreceived : d.headerReceived with
  | false =>
    by_cases hlength : msg.length = idHeaderBytes
    · cases hheader : d.crypto.receiveHeader msg with
      | none => exact .inl ⟨rfl, .inr rfl, -6, by simp [hlength, hheader]⟩
      | some crypto =>
        exact .inr (.inl ⟨rfl, crypto, rfl, by simp [hlength, hheader]⟩)
    · exact .inl ⟨rfl, .inl hlength, -5, by simp [hlength]⟩
  | true =>
    rcases hplain : d.crypto.decrypt L peer msg with ⟨crypto, plain⟩
    refine .inr (.inr ⟨rfl, crypto, plain, rfl, ?_⟩)
    cases plain with
    | none => exact .inl ⟨rfl, by simp [hplain]⟩
    | some pt =>
      refine .inr ⟨pt, rfl, ?_⟩
      cases hconnected : d.connected with
      | true => exact .inl ⟨rfl, by simp [hplain]⟩
      | false => exact .inr ⟨rfl, by simp [hplain]⟩

lemma handleFrame_buffer (d : Duplex) (msg data : List UInt8) :
    (d.buffer data).handleFrame L peer msg = (d.handleFrame L peer msg).buffer data := by
  unfold handleFrame
  by_cases hreceived : d.headerReceived = false
  · simp only [if_pos hreceived, if_pos (show (d.buffer data).headerReceived = false from hreceived)]
    split_ifs with hlength
    · exact destroy_buffer { d with handled := d.handled ++ [msg] } (-5) data
    · simp only [show (d.buffer data).crypto = d.crypto from rfl]
      split
      · exact destroy_buffer { d with handled := d.handled ++ [msg] } (-6) data
      · exact maybeFireConnect_buffer
          { d with handled := d.handled ++ [msg], crypto := _, headerReceived := true } data
  · simp only [if_neg hreceived, if_neg (show ¬ (d.buffer data).headerReceived = false from hreceived),
      show (d.buffer data).crypto = d.crypto from rfl]
    split
    · rfl
    · simp only [show (d.buffer data).connected = d.connected from rfl,
        show (d.buffer data).pendingMessages = d.pendingMessages from rfl]
      split_ifs with hconnected hlength
      · exact destroy_buffer { d with handled := _, crypto := _, pendingMessages := _ } (-7) data
      · rfl
      · rfl

@[simp] lemma handleFrame_recvBuf (d : Duplex) (msg : List UInt8) :
    (d.handleFrame L peer msg).recvBuf = d.recvBuf := by
  rcases @handleFrame_cases L peer d msg with
    ⟨-, -, error, h⟩ | ⟨-, crypto, -, h⟩ | ⟨-, crypto, plain, -, ⟨-, h⟩ | ⟨pt, -, ⟨-, h⟩ | ⟨-, h⟩⟩⟩
  all_goals rw [h]
  · simp
  · simp
  · split_ifs <;> simp

@[simp] lemma handleFrame_handled (d : Duplex) (msg : List UInt8) :
    (d.handleFrame L peer msg).handled = d.handled ++ [msg] := by
  rcases @handleFrame_cases L peer d msg with
    ⟨-, -, error, h⟩ | ⟨-, crypto, -, h⟩ | ⟨-, crypto, plain, -, ⟨-, h⟩ | ⟨pt, -, ⟨-, h⟩ | ⟨-, h⟩⟩⟩
  all_goals rw [h]
  · simp
  · simp
  · split_ifs <;> simp

/-! ## The loop -/

lemma tryExtractFrame_frame {d : Duplex} {body rest : List UInt8}
    (h : parseFrame d.recvBuf = .frame body rest) :
    d.tryExtractFrame L peer = ({ d with recvBuf := rest }.handleFrame L peer body, true) := by
  rw [tryExtractFrame, h]

lemma extractFrames_eq {m n : ℕ} {d : Duplex} (hm : d.recvBuf.length ≤ m)
    (hn : d.recvBuf.length ≤ n) :
    d.extractFrames L peer m = d.extractFrames L peer n := by
  have hempty : ∀ {d : Duplex} (k : ℕ), d.recvBuf.length ≤ 0 → d.extractFrames L peer k = d := by
    intro d k hd
    have hparse : parseFrame d.recvBuf = .more := by rw [parseFrame, if_pos (by omega)]
    cases k with
    | zero => rfl
    | succ k => simp [extractFrames, tryExtractFrame, hparse]
  induction m generalizing n d with
  | zero => rw [hempty 0 hm, hempty n hm]
  | succ m ih =>
    cases n with
    | zero => rw [hempty _ hn, hempty 0 hn]
    | succ n =>
      rw [extractFrames, extractFrames]
      split_ifs
      · rfl
      · cases hparse : parseFrame d.recvBuf with
        | more => simp [tryExtractFrame, hparse]
        | oversized => simp [tryExtractFrame, hparse]
        | zero => simp [tryExtractFrame, hparse]
        | frame body rest =>
          have hlt : rest.length < d.recvBuf.length :=
            nextFrame_codec.length_lt (nextFrame_eq_some.2 hparse)
          simp only [tryExtractFrame_frame hparse]
          refine ih ?_ ?_
          · rw [handleFrame_recvBuf]
            exact Nat.le_of_lt_succ (hlt.trans_le hm)
          · rw [handleFrame_recvBuf]
            exact Nat.le_of_lt_succ (hlt.trans_le hn)

lemma drain_destroyed {d : Duplex} (h : d.destroyed = true) : d.drain L peer = d := by
  rw [drain, extractFrames_eq (n := d.recvBuf.length + 1) le_rfl (by omega), extractFrames, if_pos h]

lemma drain_more {d : Duplex} (h : parseFrame d.recvBuf = .more) : d.drain L peer = d := by
  rw [drain, extractFrames_eq (n := d.recvBuf.length + 1) le_rfl (by omega), extractFrames]
  simp [tryExtractFrame, h]

lemma drain_zero {d : Duplex} (hdestroyed : d.destroyed = false) (h : parseFrame d.recvBuf = .zero) :
    d.drain L peer = d.destroy (-10) := by
  rw [drain, extractFrames_eq (n := d.recvBuf.length + 1) le_rfl (by omega), extractFrames]
  simp [tryExtractFrame, h, hdestroyed]

lemma drain_frame {d : Duplex} {body rest : List UInt8} (hdestroyed : d.destroyed = false)
    (h : parseFrame d.recvBuf = .frame body rest) :
    d.drain L peer = ({ d with recvBuf := rest }.handleFrame L peer body).drain L peer := by
  have hlt : rest.length < d.recvBuf.length :=
    nextFrame_codec.length_lt (nextFrame_eq_some.2 h)
  rw [drain, extractFrames_eq (n := d.recvBuf.length + 1) le_rfl (by omega), extractFrames,
    tryExtractFrame_frame h, drain]
  simp only [hdestroyed, Bool.false_eq_true, if_false]
  refine extractFrames_eq ?_ le_rfl
  rw [handleFrame_recvBuf]
  exact hlt.le

/-- What holds of a duplex still holds after the loop, if `handle_frame` and `destroy` keep it and
it does not depend on the buffer. -/
theorem drain_induction {P : Duplex → Prop}
    (hbuffer : ∀ d bytes, P d → P { d with recvBuf := bytes })
    (hframe : ∀ d msg, d.destroyed = false → P d → P (d.handleFrame L peer msg))
    (hdestroy : ∀ d error, P d → P (d.destroy error)) {d : Duplex} (h : P d) :
    P (d.drain L peer) := by
  induction hn : d.recvBuf.length using Nat.strong_induction_on generalizing d with
  | _ n ih =>
    cases hdestroyed : d.destroyed with
    | true => rwa [drain_destroyed hdestroyed]
    | false =>
      cases hparse : parseFrame d.recvBuf with
      | more => rwa [drain_more hparse]
      | oversized => exact absurd hparse (parseFrame_ne_oversized _)
      | zero =>
        rw [drain_zero hdestroyed hparse]
        exact hdestroy d _ h
      | frame body rest =>
        rw [drain_frame hdestroyed hparse]
        have hlt := nextFrame_codec.length_lt (nextFrame_eq_some.2 hparse)
        refine ih rest.length (by omega) (hframe _ _ hdestroyed (hbuffer d rest h)) ?_
        rw [handleFrame_recvBuf]

/-- **Chunks of a buffer**: bytes that come behind those of the buffer may be waited for.

**Proof sketch.** Induction on the length of the buffer: its first frame is also the first frame of
the longer one, and `handle_frame` does not see the buffer. -/
theorem drain_buffer (d : Duplex) (data : List UInt8) :
    (d.buffer data).drain L peer = ((d.drain L peer).buffer data).drain L peer := by
  induction hn : d.recvBuf.length using Nat.strong_induction_on generalizing d with
  | _ n ih =>
    cases hdestroyed : d.destroyed with
    | true => rw [drain_destroyed (d := d) hdestroyed]
    | false =>
      cases hparse : parseFrame d.recvBuf with
      | more => rw [drain_more (d := d) hparse]
      | oversized => exact absurd hparse (parseFrame_ne_oversized _)
      | zero =>
        rw [drain_zero (d := d) hdestroyed hparse,
          drain_zero (d := d.buffer data) hdestroyed (parseFrame_zero_append hparse data),
          destroy_buffer, drain_destroyed]
        exact destroy_destroyed d _
      | frame body rest =>
        have hnext := nextFrame_eq_some.2 hparse
        have hlonger : parseFrame (d.buffer data).recvBuf = .frame body (rest ++ data) :=
          nextFrame_eq_some.1 (nextFrame_codec.next_append hnext data)
        rw [drain_frame (d := d) hdestroyed hparse, drain_frame (d := d.buffer data) hdestroyed hlonger,
          ← ih rest.length (hn ▸ nextFrame_codec.length_lt hnext) _ (by rw [handleFrame_recvBuf]),
          ← handleFrame_buffer]
        rfl

/-- **Two chunks** and their concatenation lead to the same state. -/
theorem processIncomingBytes_append (d : Duplex) (xs ys : List UInt8) :
    (d.processIncomingBytes L peer xs).processIncomingBytes L peer ys =
      d.processIncomingBytes L peer (xs ++ ys) := by
  by_cases hxs : xs = []
  · simp [processIncomingBytes, hxs]
  · by_cases hys : ys = []
    · simp [processIncomingBytes, hys]
    · have happend : d.buffer (xs ++ ys) = (d.buffer xs).buffer ys := by simp [buffer]
      rw [processIncomingBytes, processIncomingBytes, processIncomingBytes, if_neg hxs, if_neg hys,
        if_neg (by simp [hxs]), happend, drain_buffer (d.buffer xs) ys]

/-- `handle_frame` is called with the frames of the buffer, in order; all of them, unless the
stream is destroyed. -/
theorem handled_drain (d : Duplex) :
    ∃ frames, (d.drain L peer).handled = d.handled ++ frames ∧
      frames <+: (Framing.split nextFrame d.recvBuf).1 ∧
      ((d.drain L peer).destroyed = false → frames = (Framing.split nextFrame d.recvBuf).1 ∧
        (d.drain L peer).recvBuf = (Framing.split nextFrame d.recvBuf).2) := by
  induction hn : d.recvBuf.length using Nat.strong_induction_on generalizing d with
  | _ n ih =>
    cases hdestroyed : d.destroyed with
    | true =>
      rw [drain_destroyed hdestroyed, hdestroyed]
      exact ⟨[], by simp, List.nil_prefix, by simp⟩
    | false =>
      cases hparse : parseFrame d.recvBuf with
      | more =>
        have hnext : nextFrame d.recvBuf = none := by rw [nextFrame, hparse]
        rw [drain_more hparse, nextFrame_codec.split_none hnext]
        exact ⟨[], by simp, List.nil_prefix, fun _ => ⟨rfl, rfl⟩⟩
      | oversized => exact absurd hparse (parseFrame_ne_oversized _)
      | zero =>
        rw [drain_zero hdestroyed hparse]
        exact ⟨[], by simp, List.nil_prefix, by simp⟩
      | frame body rest =>
        have hnext := nextFrame_eq_some.2 hparse
        obtain ⟨frames, hhandled, hprefix, hall⟩ := ih rest.length
          (hn ▸ nextFrame_codec.length_lt hnext) ({ d with recvBuf := rest }.handleFrame L peer body)
          (by rw [handleFrame_recvBuf])
        rw [drain_frame hdestroyed hparse, nextFrame_codec.split_some hnext]
        rw [handleFrame_recvBuf] at hprefix hall
        refine ⟨body :: frames, ?_, ?_, fun hlive => ?_⟩
        · rw [hhandled, handleFrame_handled]
          simp
        · exact List.cons_prefix_cons.2 ⟨rfl, hprefix⟩
        · obtain ⟨rfl, hrest⟩ := hall hlive
          exact ⟨rfl, hrest⟩

end Loop

end Duplex

end HyperDHT.SecretStream
