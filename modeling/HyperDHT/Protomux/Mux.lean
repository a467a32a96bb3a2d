import Mathlib.Logic.Function.Basic
import HyperDHT.Protomux.Varint

/-!
# The channel multiplexer

The `Mux` and `Channel` classes of `protomux.cpp`. A mux carries many channels over one framed
stream; a channel is known by its `(protocol, id)`, and two channels of the two ends are paired
when both ends have opened that `(protocol, id)`.

## Main definitions

* `Protomux.Channel`, `Protomux.Mux` — the state of a channel and of a mux.
* `Protomux.onDataCalls` — the handler calls that an incoming frame leads to.
* `Protomux.Mux.createChannel`, `channelOpen`, `channelSend`, `channelClose`, `cork`, `uncork`,
  `onData`, `destroy` — the public methods.
* `Protomux.Op`, `Protomux.step` — a mux as a machine over the calls of these methods.

## Design

* A `Channel*` is a number that is never used again (`Ptr`); a call through a pointer that the
  mux does not own any more does nothing.
* The frames given to the write function are collected in `outbox`, the calls of user callbacks
  in `events`, both in order. Callbacks do not re-enter the mux. The backpressure flag
  `drained_`, which is only what the write function last returned, is left out.
* The parsing of a frame does not read the state of the mux, so that `onData` is a fold of the
  handlers over the calls of `onDataCalls`.
-/

set_option autoImplicit false

namespace HyperDHT.Protomux

/-- The identity of a `Channel` object. -/
abbrev Ptr := ℕ

/-- A pair key, `protocol##hex(id)`. -/
abbrev Key := List UInt8

/-- The control messages of channel zero. -/
def controlBatch : UInt64 := 0
@[inherit_doc controlBatch] def controlOpen : UInt64 := 1
@[inherit_doc controlBatch] def controlReject : UInt64 := 2
@[inherit_doc controlBatch] def controlClose : UInt64 := 3

/-- The limit of the bytes buffered for channels that are not open yet. -/
def maxBuffered : ℕ := 32768

/-- The cap of the entries of one batch frame. -/
def maxBatchEntries : ℕ := 1024

/-- The greatest channel id. -/
def uint32Max : UInt64 := 0xFFFFFFFF

/-! ## Data -/

/-- A message that arrived before its channel was fully opened. -/
structure PendingMessage where
  type : UInt32
  data : List UInt8
  deriving DecidableEq

/-- A remote OPEN that waits for a local channel. -/
structure PendingOpen where
  /-- The local id of the channel at the remote end. -/
  remoteLocalId : UInt32
  handshake : List UInt8
  protocol : List UInt8
  id : List UInt8
  deriving DecidableEq

/-- A frame that was written while the mux was corked. -/
structure BatchEntry where
  localId : UInt32
  payload : List UInt8
  deriving DecidableEq

/-- A virtual stream within the mux. -/
structure Channel where
  ptr : Ptr
  protocol : Bytes
  id : Bytes
  localId : UInt32
  remoteId : UInt32 := 0
  openSent : Bool := false
  /-- Both sides have opened. -/
  opened : Bool := false
  closed : Bool := false
  destroyed : Bool := false
  /-- For each message type, whether its handler has an `on_message`. -/
  messages : List Bool := []
  /-- The primary key and then the keys of the aliases. -/
  pairKeys : List Key
  pendingMessages : List PendingMessage := []
  deriving DecidableEq

/-- A call of a user callback, and each call of `Channel::dispatch`. -/
inductive Event where
  | onOpen (channel : Ptr) (handshake : List UInt8)
  | dispatch (channel : Ptr) (type : UInt32) (data : List UInt8)
  | onMessage (channel : Ptr) (type : UInt32) (data : List UInt8)
  | onClose (channel : Ptr)
  | onDestroy (channel : Ptr)
  /-- The callback registered under a key, or the global one for `none`. -/
  | notify (slot : Option Key) (protocol id handshake : List UInt8)
  deriving DecidableEq

/-- The multiplexer. A hash map is a function to `Option`. -/
structure Mux where
  channels : List Channel := []
  nextPtr : Ptr := 0
  nextLocalId : UInt32 := 1
  remoteToChannel : UInt32 → Option Ptr := fun _ => none
  localToChannel : UInt32 → Option Ptr := fun _ => none
  pairNotify : Key → Bool := fun _ => false
  onNotify : Bool := false
  pendingRemote : Key → Option PendingOpen := fun _ => none
  lastChannelByKey : Key → Option Ptr := fun _ => none
  destroyed : Bool := false
  corkCount : Int := 0
  batch : List BatchEntry := []
  bufferedBytes : ℕ := 0
  outbox : List (List UInt8) := []
  events : List Event := []

/-! ## Frames -/

/-- `[0][OPEN][localId][protocol][id][handshake]`. -/
def openFrame (localId : UInt32) (protocol id handshake : Bytes) : List UInt8 :=
  varintEncode 0 ++ varintEncode controlOpen ++ varintEncode localId.toUInt64 ++
    bufferEncode protocol ++ bufferEncode id ++ bufferEncode handshake

/-- `[0][CLOSE][localId]`. -/
def closeFrame (localId : UInt32) : List UInt8 :=
  varintEncode 0 ++ varintEncode controlClose ++ varintEncode localId.toUInt64

/-- `[remoteId][messageType][data]`. The message type is an `int`, cast to `uint64_t`. -/
def dataFrame (remoteId : UInt32) (messageType : Int32) (data : List UInt8) : List UInt8 :=
  varintEncode remoteId.toUInt64 ++ varintEncode messageType.toInt64.toUInt64 ++ data

/-- A call of one of the handlers of incoming messages, with its argument. -/
inductive Call where
  | open (data : List UInt8)
  | reject (data : List UInt8)
  | close (data : List UInt8)
  | data (channelId : UInt32) (data : List UInt8)
  deriving DecidableEq

/-- The call for a control message other than a batch. -/
def controlCalls (payload : List UInt8) : List Call :=
  let (type, rest) := varintDecode payload
  if type = controlOpen then [.open rest]
  else if type = controlReject then [.reject rest]
  else if type = controlClose then [.close rest]
  else []

/-- The call for one message of a batch. -/
def entryCalls (channelId : UInt64) (payload : List UInt8) : List Call :=
  if channelId = 0 then controlCalls payload else [.data channelId.toUInt32 payload]

/-- The two nested loops of `handle_batch`: `none` is the head of the outer loop, which reads a
channel id; `some channelId` is the head of the inner loop, which reads the messages of that
channel up to a message of length zero. -/
def batchLoop (channel : Option UInt64) (entries : ℕ) (bytes : List UInt8) : List Call :=
  if hbytes : bytes = [] then [] else
  have hlt := length_varintDecode_lt hbytes
  match channel with
  | none =>
    let channelId := (varintDecode bytes).1
    if channelId > uint32Max then []
    else batchLoop (some channelId) entries (varintDecode bytes).2
  | some channelId =>
    if entries + 1 > maxBatchEntries then [] else
    let msgLen := (varintDecode bytes).1
    let rest := (varintDecode bytes).2
    if msgLen = 0 then batchLoop none (entries + 1) rest
    else if msgLen.toNat > rest.length then []
    else
      have hdrop : (rest.drop msgLen.toNat).length < bytes.length := by
        rw [List.length_drop]
        exact Nat.lt_of_le_of_lt (Nat.sub_le _ _) hlt
      entryCalls channelId (rest.take msgLen.toNat) ++
        batchLoop (some channelId) (entries + 1) (rest.drop msgLen.toNat)
termination_by bytes.length

/-- The calls of `handle_batch`. -/
def batchCalls (data : List UInt8) : List Call := batchLoop none 0 data

/-- The handler calls an incoming frame leads to, in order. -/
def onDataCalls (frame : List UInt8) : List Call :=
  let (channelId, rest) := varintDecode frame
  if rest = [] then []
  else if channelId = 0 then
    if (varintDecode rest).1 = controlBatch then batchCalls (varintDecode rest).2
    else controlCalls rest
  else if channelId > uint32Max then []
  else [.data channelId.toUInt32 rest]

/-- The fields of an OPEN message. -/
def decodeOpen (data : List UInt8) : Option PendingOpen :=
  let (rawId, rest) := varintDecode data
  if rawId = 0 ∨ rawId > uint32Max then none else
  let (protocol, rest) := bufferDecode rest
  if protocol = [] then none else
  let (id, rest) := bufferDecode rest
  let (handshake, _) := bufferDecode rest
  some ⟨rawId.toUInt32, handshake, protocol, id⟩

/-- The channel id of a REJECT or CLOSE message. -/
def decodeId (data : List UInt8) : Option UInt32 :=
  let rawId := (varintDecode data).1
  if rawId = 0 ∨ rawId > uint32Max then none else some rawId.toUInt32

/-- The message type and the payload of a data message. The type is cut to 32 bits. -/
def decodeMessage (data : List UInt8) : UInt32 × List UInt8 :=
  ((varintDecode data).1.toUInt32, (varintDecode data).2)

namespace Mux

/-! ## Channels of a mux -/

/-- The channel a pointer points at. -/
def channel? (m : Mux) (p : Ptr) : Option Channel := m.channels.find? (·.ptr = p)

/-- Write to the channel a pointer points at. -/
def modifyChannel (m : Mux) (p : Ptr) (f : Channel → Channel) : Mux :=
  { m with channels := m.channels.map fun c => if c.ptr = p then f c else c }

/-- Record the call of a callback. -/
def log (m : Mux) (e : Event) : Mux := { m with events := m.events ++ [e] }

/-! ## Writing, corking and uncorking -/

/-- Write a frame, or add it to the batch while the mux is corked. -/
def writeFrame (m : Mux) (frame : List UInt8) : Mux :=
  if m.destroyed then m
  else if m.corkCount > 0 then
    if frame = [] then m
    else
      let (localId, payload) := varintDecode frame
      { m with batch := m.batch ++ [{ localId := localId.toUInt32, payload := payload }] }
  else { m with outbox := m.outbox ++ [frame] }

def cork (m : Mux) : Mux := { m with corkCount := m.corkCount + 1 }

/-- The size `uncork` computes for the entries after the first channel id, where `prev` is the
channel id of the entry before. -/
def entriesSize (prev : UInt32) : List BatchEntry → ℕ
  | [] => 0
  | e :: es =>
    (if e.localId ≠ prev then 1 + varintSize e.localId.toUInt64 else 0) +
      (varintSize (UInt64.ofNat e.payload.length) + e.payload.length) + entriesSize e.localId es

/-- The bytes `uncork` writes for the entries: each payload with its length, and a zero length
with the new channel id before a payload of another channel. -/
def encodeEntries (prev : UInt32) : List BatchEntry → List UInt8
  | [] => []
  | e :: es =>
    (if e.localId ≠ prev then 0 :: varintEncode e.localId.toUInt64 else []) ++
      (varintEncode (UInt64.ofNat e.payload.length) ++ e.payload) ++ encodeEntries e.localId es

/-- The batch frame, `[0][BATCH][first channel id]` and the entries; nothing for no entry. -/
def batchFrame : List BatchEntry → List UInt8
  | [] => []
  | e :: es =>
    [0, 0] ++ varintEncode e.localId.toUInt64 ++ encodeEntries e.localId (e :: es)

def uncork (m : Mux) : Mux :=
  if m.corkCount ≤ 0 then { m with corkCount := 0 }
  else if m.corkCount - 1 > 0 then { m with corkCount := m.corkCount - 1 }
  else if m.batch = [] then { m with corkCount := m.corkCount - 1 }
  else
    { m with
      corkCount := m.corkCount - 1
      batch := []
      outbox := m.outbox ++ [batchFrame m.batch] }

/-! ## Channels opening and closing -/

/-- Call the handler of a message, if there is one. -/
def dispatch (m : Mux) (p : Ptr) (type : UInt32) (data : List UInt8) : Mux :=
  let m := m.log (.dispatch p type data)
  match m.channel? p with
  | some c => if c.messages[type.toNat]? = some true then m.log (.onMessage p type data) else m
  | none => m

/-- One round of the loop of `drain_pending`. -/
def drainOne (p : Ptr) (m : Mux) (pm : PendingMessage) : Mux :=
  let m := { m with
    bufferedBytes :=
      if m.bufferedBytes ≥ pm.data.length then m.bufferedBytes - pm.data.length else 0 }
  if (m.channel? p).any (·.destroyed) then m else m.dispatch p pm.type pm.data

/-- Dispatch the messages that arrived before the channel was fully opened. -/
def drainPending (m : Mux) (p : Ptr) : Mux :=
  match m.channel? p with
  | none => m
  | some c =>
    c.pendingMessages.foldl (drainOne p) (m.modifyChannel p ({ · with pendingMessages := [] }))

def fullyOpen (m : Mux) (p : Ptr) (remoteHandshake : List UInt8) : Mux :=
  match m.channel? p with
  | none => m
  | some c =>
    if c.opened ∨ c.destroyed then m
    else
      ((m.modifyChannel p ({ · with opened := true })).log
        (.onOpen p remoteHandshake)).drainPending p

/-- Link a local channel to a remote OPEN and fully open it. -/
def tryPair (m : Mux) (p : Ptr) (remote : PendingOpen) : Mux :=
  let m := m.modifyChannel p ({ · with remoteId := remote.remoteLocalId })
  let m := { m with
    remoteToChannel := Function.update m.remoteToChannel remote.remoteLocalId (some p) }
  m.fullyOpen p remote.handshake

/-- The first channel that answers to a key. -/
def findByPairKey (m : Mux) (key : Key) : Option Channel :=
  m.channels.find? fun c => !c.destroyed && c.pairKeys.contains key

def createChannel (m : Mux) (protocol : Bytes) (aliases : List Bytes) (id : Bytes)
    (unique : Bool) : Mux × Option Ptr :=
  if m.destroyed then (m, none)
  else if unique ∧ (m.findByPairKey (buildPairKey protocol.1 id.1)).any (·.opened) then (m, none)
  else
    let keys := buildPairKey protocol.1 id.1 :: aliases.map fun a => buildPairKey a.1 id.1
    let p := m.nextPtr
    let localId := m.nextLocalId
    ({ m with
        nextPtr := p + 1
        nextLocalId := localId + 1
        channels := m.channels ++
          [{ ptr := p, protocol := protocol, id := id, localId := localId, pairKeys := keys }]
        localToChannel := Function.update m.localToChannel localId (some p)
        lastChannelByKey := fun k => if k ∈ keys then some p else m.lastChannelByKey k },
      some p)

/-- `Channel::add_message`, for a handler with or without an `on_message`. -/
def addMessage (m : Mux) (p : Ptr) (handler : Bool) : Mux :=
  m.modifyChannel p fun c => { c with messages := c.messages ++ [handler] }

/-- `Channel::open`: send the OPEN, and pair at once with a remote OPEN that waits under one of
the channel's keys. -/
def channelOpen (m : Mux) (p : Ptr) (handshake : Bytes) : Mux :=
  match m.channel? p with
  | none => m
  | some c =>
    if c.openSent ∨ c.closed ∨ c.destroyed then m
    else
      let m := (m.modifyChannel p ({ · with openSent := true })).writeFrame
        (openFrame c.localId c.protocol c.id handshake)
      match c.pairKeys.findSome? fun k => (m.pendingRemote k).map (k, ·) with
      | none => m
      | some (k, pending) =>
        { m with pendingRemote := Function.update m.pendingRemote k none }.tryPair p pending

/-- `Channel::send`, with the value it returns. -/
def channelSend (m : Mux) (p : Ptr) (messageType : Int32) (data : List UInt8) : Mux × Bool :=
  match m.channel? p with
  | none => (m, false)
  | some c =>
    if !c.opened ∨ c.closed ∨ c.remoteId = 0 then (m, false)
    else (m.writeFrame (dataFrame c.remoteId messageType data), true)

/-- Remove a channel from all lookups and free it. -/
def removeChannel (m : Mux) (p : Ptr) : Mux :=
  match m.channel? p with
  | none => m
  | some c =>
    { m with
      remoteToChannel :=
        if c.remoteId ≠ 0 then Function.update m.remoteToChannel c.remoteId none
        else m.remoteToChannel
      localToChannel := Function.update m.localToChannel c.localId none
      pendingRemote := fun k => if k ∈ c.pairKeys then none else m.pendingRemote k
      lastChannelByKey := fun k =>
        if k ∈ c.pairKeys ∧ m.lastChannelByKey k = some p then none else m.lastChannelByKey k
      channels := m.channels.filter fun c => c.ptr ≠ p }

/-- `Channel::destroy`. -/
def channelDestroy (m : Mux) (p : Ptr) : Mux :=
  match m.channel? p with
  | none => m
  | some c =>
    if c.destroyed then m
    else
      ((m.modifyChannel p ({ · with destroyed := true, opened := false })).log
        (.onDestroy p)).removeChannel p

/-- `Channel::close`. -/
def channelClose (m : Mux) (p : Ptr) : Mux :=
  match m.channel? p with
  | none => m
  | some c =>
    if c.closed ∨ c.destroyed then m
    else
      (((m.modifyChannel p ({ · with closed := true })).writeFrame
        (closeFrame c.localId)).log (.onClose p)).channelDestroy p

/-- `Channel::remote_close`. -/
def remoteClose (m : Mux) (p : Ptr) : Mux :=
  match m.channel? p with
  | none => m
  | some c =>
    if c.destroyed then m
    else ((m.modifyChannel p ({ · with closed := true })).channelDestroy p).log (.onClose p)

/-! ## Incoming frames -/

def pair (m : Mux) (protocol id : List UInt8) : Mux :=
  { m with pairNotify := Function.update m.pairNotify (buildPairKey protocol id) true }

def unpair (m : Mux) (protocol id : List UInt8) : Mux :=
  { m with pairNotify := Function.update m.pairNotify (buildPairKey protocol id) false }

/-- Call the notify callback of the key, of the protocol alone, or the global one. -/
def dispatchNotify (m : Mux) (protocol id handshake : List UInt8) : Mux :=
  let key := buildPairKey protocol id
  let protoKey := buildPairKey protocol []
  if m.pairNotify key then m.log (.notify (some key) protocol id handshake)
  else if m.pairNotify protoKey then m.log (.notify (some protoKey) protocol id handshake)
  else if m.onNotify then m.log (.notify none protocol id handshake)
  else m

/-- Pair a remote OPEN with the local channel that waits for it, or store it. -/
def receiveOpen (m : Mux) (remote : PendingOpen) : Mux :=
  let key := buildPairKey remote.protocol remote.id
  match (m.findByPairKey key).filter fun c => c.openSent && !c.opened with
  | some c => m.tryPair c.ptr remote
  | none =>
    { m with pendingRemote := Function.update m.pendingRemote key (some remote) }.dispatchNotify
      remote.protocol remote.id remote.handshake

def handleOpen (m : Mux) (data : List UInt8) : Mux :=
  match decodeOpen data with
  | none => m
  | some remote => m.receiveOpen remote

def handleReject (m : Mux) (data : List UInt8) : Mux :=
  match (decodeId data).bind m.localToChannel with
  | none => m
  | some p => m.remoteClose p

def handleClose (m : Mux) (data : List UInt8) : Mux :=
  match (decodeId data).bind m.remoteToChannel with
  | none => m
  | some p => m.remoteClose p

def handleData (m : Mux) (channelId : UInt32) (data : List UInt8) : Mux :=
  match (m.remoteToChannel channelId).bind m.channel? with
  | none => m
  | some c =>
    if c.destroyed then m
    else
      let (type, rest) := decodeMessage data
      if !c.opened then
        -- buffer the message until the channel is fully opened
        if m.bufferedBytes + rest.length > maxBuffered then m
        else
          { m.modifyChannel c.ptr fun c =>
              { c with pendingMessages := c.pendingMessages ++ [⟨type, rest⟩] } with
            bufferedBytes := m.bufferedBytes + rest.length }
      else m.dispatch c.ptr type rest

/-- Run a handler. -/
def handle (m : Mux) : Call → Mux
  | .open data => m.handleOpen data
  | .reject data => m.handleReject data
  | .close data => m.handleClose data
  | .data channelId data => m.handleData channelId data

def onData (m : Mux) (frame : List UInt8) : Mux := (onDataCalls frame).foldl handle m

/-- The loop of `Mux::destroy`: close the first live channel until there is none. Every round
frees a channel, so that as many rounds as there are channels are enough. -/
def closeAll : ℕ → Mux → Mux
  | 0, m => m
  | n + 1, m =>
    match m.channels.find? fun c => !c.destroyed with
    | none => m
    | some c => closeAll n (m.remoteClose c.ptr)

def destroy (m : Mux) : Mux :=
  if m.destroyed then m
  else
    { closeAll m.channels.length { m with destroyed := true } with batch := [], corkCount := 0 }

end Mux

/-! ## The machine -/

/-- The calls of the public methods of a mux and of its channels. -/
inductive Op where
  | createChannel (protocol : Bytes) (aliases : List Bytes) (id : Bytes) (unique : Bool)
  | addMessage (channel : Ptr) (handler : Bool)
  | open (channel : Ptr) (handshake : Bytes)
  | send (channel : Ptr) (messageType : Int32) (data : List UInt8)
  | close (channel : Ptr)
  | cork
  | uncork
  | onData (frame : List UInt8)
  | pair (protocol id : List UInt8)
  | unpair (protocol id : List UInt8)
  | onNotify (callback : Bool)
  | destroy

/-- A mux takes a call. -/
def step (m : Mux) : Op → Mux
  | .createChannel protocol aliases id unique => (m.createChannel protocol aliases id unique).1
  | .addMessage p handler => m.addMessage p handler
  | .open p handshake => m.channelOpen p handshake
  | .send p messageType data => (m.channelSend p messageType data).1
  | .close p => m.channelClose p
  | .cork => m.cork
  | .uncork => m.uncork
  | .onData frame => m.onData frame
  | .pair protocol id => m.pair protocol id
  | .unpair protocol id => m.unpair protocol id
  | .onNotify callback => { m with onNotify := callback }
  | .destroy => m.destroy

end HyperDHT.Protomux
