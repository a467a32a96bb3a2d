import HyperDHT.Lib.Runs
import HyperDHT.Lib.Trace
import HyperDHT.Protomux.Mux

/-!
# A mux whose callbacks call back

The callbacks of a mux are code of its user, who may call the public methods of the mux and of its
channels from them. A method is then in progress while others begin and end, and it goes on, with the
pointers that it holds, in a mux that has changed. This module takes the methods of `protomux.cpp`
apart at the points where a callback is called.

## Main definitions

* `Protomux.Callback` — the callbacks, the write function included.
* `Protomux.Method` — the public methods.
* `Protomux.Task` — what a method in progress still has to do.
* `Protomux.Config` — a mux with the calls in progress and what happened so far.
* `Protomux.Config.runTask` — the library goes on, up to the next callback.
* `Protomux.Config.step` — the machine: the library goes on, the user calls a method, a callback
  returns.

## Design

* The stack holds the callbacks that are running and, below each of them, what the method that called
  it does afterwards. The user may call a method when a callback is on top, or nothing is in progress.
* `Happening.access` is recorded each time a task begins to work with a channel through a pointer, and
  when `for_each_channel` hands one to its callback. A task whose channel is gone does nothing else.
* The user calls methods of channels only that the mux still owns.
* The callbacks of a channel are public members: they may be set at any time. Those that the code
  moves out before it calls them are empty afterwards.
* The flag `drained_` and the queries, which change nothing, are left out.
-/

set_option autoImplicit false

namespace HyperDHT.Protomux

/-! ## Calls in progress -/

/-- A call of a function that the user has given to the mux. -/
inductive Callback where
  | write (frame : List UInt8)
  | onOpen (channel : Ptr) (handshake : List UInt8)
  | onMessage (channel : Ptr) (type : UInt32) (data : List UInt8)
  | onClose (channel : Ptr)
  | onDestroy (channel : Ptr)
  | onDrain (channel : Ptr)
  | notify (slot : Option Key) (protocol id handshake : List UInt8)
  | forEach (channel : Ptr)
  deriving DecidableEq

/-- Which callbacks of a channel are set. -/
structure Slots where
  onOpen : Bool := false
  onClose : Bool := false
  onDestroy : Bool := false
  onDrain : Bool := false
  deriving DecidableEq

/-- The public methods. Those of `Op` are the ones that do not call for what a callback does. -/
inductive Method where
  | op (op : Op)
  | channelCork (channel : Ptr)
  | channelUncork (channel : Ptr)
  | onStreamDrain
  | forEachChannel
  /-- Not a method: the user sets the callbacks of a channel. -/
  | setCallbacks (channel : Ptr) (slots : Slots)

/-- What a method in progress still has to do. -/
inductive Task where
  | method (m : Method)
  /-- The handler of a message that arrived. -/
  | handle (call : Call)
  /-- `Channel::open`, after the OPEN was written. -/
  | openPending (channel : Ptr)
  | drainPending (channel : Ptr)
  /-- A round of the loop of `drain_pending`. -/
  | drainOne (channel : Ptr) (pm : PendingMessage)
  /-- `Channel::close`, after the CLOSE was written. -/
  | closing (channel : Ptr)
  | remoteClose (channel : Ptr)
  | channelDestroy (channel : Ptr)
  /-- `Channel::destroy`, after `on_destroy`. -/
  | removeChannel (channel : Ptr)
  /-- Call an `on_close` that was moved out of its channel. -/
  | callOnClose (channel : Ptr)
  /-- A round of the loop of `on_stream_drain`. -/
  | drain (channel : Ptr)
  /-- A round of the loop of `for_each_channel`. -/
  | forEach (channel : Ptr)
  /-- The head of the loop of `Mux::destroy`. -/
  | destroyLoop

/-- A frame of the call stack: a callback that is running, or a method that goes on when all the
frames above are gone. -/
inductive CallFrame where
  | user (cb : Callback)
  | task (t : Task)

/-- What happens in a mux. -/
inductive Happening where
  /-- A `Channel` is read or written, or handed to a callback. -/
  | access (channel : Ptr)
  /-- `remove_channel` erases a channel, which deallocates it. -/
  | freed (channel : Ptr)
  | called (cb : Callback)
  /-- `Mux::destroy` begins. -/
  | destroying
  deriving DecidableEq

/-- A mux, its callbacks, the calls in progress and what happened so far. -/
structure Config where
  mux : Mux := {}
  slots : Ptr → Slots := fun _ => {}
  stack : List CallFrame := []
  trace : List Happening := []

/-- The channel whose method is called. -/
def Method.channel? : Method → Option Ptr
  | .op (.addMessage p _) => some p
  | .op (.open p _) => some p
  | .op (.send p _ _) => some p
  | .op (.close p) => some p
  | .channelCork p => some p
  | .channelUncork p => some p
  | .setCallbacks p _ => some p
  | _ => none

namespace Config

/-! ## The library goes on -/

/-- Record what happens. -/
def log (c : Config) (h : Happening) : Config := { c with trace := c.trace ++ [h] }

/-- Tasks to be done first. -/
def push (c : Config) (tasks : List Task) : Config :=
  { c with stack := tasks.map .task ++ c.stack }

/-- Call a callback. -/
def enter (c : Config) (cb : Callback) : Config :=
  { c with stack := .user cb :: c.stack, trace := c.trace ++ [.called cb] }

/-- Call a callback if it is set. -/
def enterIf (c : Config) (slot : Bool) (cb : Callback) : Config := if slot then c.enter cb else c

/-- Work with a channel through its pointer. -/
def withChannel (c : Config) (p : Ptr) (f : Config → Channel → Config) : Config :=
  match c.mux.channel? p with
  | none => c.log (.access p)
  | some ch => f (c.log (.access p)) ch

/-- Change the mux. -/
def modifyMux (c : Config) (f : Mux → Mux) : Config := { c with mux := f c.mux }

/-- Write to a channel. -/
def modifyChannel (c : Config) (p : Ptr) (f : Channel → Channel) : Config :=
  c.modifyMux (·.modifyChannel p f)

/-- Set the callbacks of a channel. -/
def setSlots (c : Config) (p : Ptr) (s : Slots) : Config :=
  { c with slots := Function.update c.slots p s }

/-- `Mux::write_frame`: the write function is called unless the mux is destroyed or corked. -/
def writeFrame (c : Config) (frame : List UInt8) : Config :=
  (c.modifyMux (·.writeFrame frame)).enterIf (!c.mux.destroyed && c.mux.corkCount ≤ 0)
    (.write frame)

/-- `Mux::uncork`: the write function is called for the batch when the last cork is gone. -/
def uncork (c : Config) : Config :=
  (c.modifyMux Mux.uncork).enterIf (c.mux.corkCount = 1 && c.mux.batch != [])
    (.write (Mux.batchFrame c.mux.batch))

/-- `Channel::dispatch`. -/
def dispatch (c : Config) (ch : Channel) (type : UInt32) (data : List UInt8) : Config :=
  c.enterIf (ch.messages[type.toNat]? = some true) (.onMessage ch.ptr type data)

/-- `Mux::try_pair` and `Channel::fully_open`, up to `on_open`. -/
def tryPair (c : Config) (ch : Channel) (remote : PendingOpen) : Config :=
  let c := (c.modifyChannel ch.ptr ({ · with remoteId := remote.remoteLocalId })).modifyMux fun m =>
    { m with
      remoteToChannel := Function.update m.remoteToChannel remote.remoteLocalId (some ch.ptr) }
  if ch.opened ∨ ch.destroyed then c
  else
    ((c.modifyChannel ch.ptr ({ · with opened := true })).push [.drainPending ch.ptr]).enterIf
      (c.slots ch.ptr).onOpen (.onOpen ch.ptr remote.handshake)

/-- `Mux::dispatch_notify`. -/
def dispatchNotify (c : Config) (protocol id handshake : List UInt8) : Config :=
  let key := buildPairKey protocol id
  let protoKey := buildPairKey protocol []
  if c.mux.pairNotify key then c.enter (.notify (some key) protocol id handshake)
  else if c.mux.pairNotify protoKey then c.enter (.notify (some protoKey) protocol id handshake)
  else c.enterIf c.mux.onNotify (.notify none protocol id handshake)

/-- `Mux::handle_open`, for an OPEN that was decoded. -/
def receiveOpen (c : Config) (remote : PendingOpen) : Config :=
  let key := buildPairKey remote.protocol remote.id
  match (c.mux.findByPairKey key).filter fun ch => ch.openSent && !ch.opened with
  | some ch => (c.log (.access ch.ptr)).tryPair ch remote
  | none =>
    (c.modifyMux fun m =>
      { m with pendingRemote := Function.update m.pendingRemote key (some remote) }).dispatchNotify
      remote.protocol remote.id remote.handshake

/-- `Mux::handle_data`. -/
def handleData (c : Config) (channelId : UInt32) (data : List UInt8) : Config :=
  match c.mux.remoteToChannel channelId with
  | none => c
  | some p => c.withChannel p fun c ch =>
    if ch.destroyed then c
    else
      let (type, rest) := decodeMessage data
      if !ch.opened then
        if c.mux.bufferedBytes + rest.length > maxBuffered then c
        else
          (c.modifyChannel p fun ch =>
            { ch with pendingMessages := ch.pendingMessages ++ [⟨type, rest⟩] }).modifyMux
            fun m => { m with bufferedBytes := m.bufferedBytes + rest.length }
      else c.dispatch ch type rest

/-- A handler of a message that arrived. -/
def handle (c : Config) : Call → Config
  | .open data =>
    match decodeOpen data with
    | none => c
    | some remote => c.receiveOpen remote
  | .reject data =>
    match (decodeId data).bind c.mux.localToChannel with
    | none => c
    | some p => c.push [.remoteClose p]
  | .close data =>
    match (decodeId data).bind c.mux.remoteToChannel with
    | none => c
    | some p => c.push [.remoteClose p]
  | .data channelId data => c.handleData channelId data

/-- A public method, up to the first callback. -/
def runMethod (c : Config) : Method → Config
  | .op (.createChannel protocol aliases id unique) =>
    c.modifyMux fun m => (m.createChannel protocol aliases id unique).1
  | .op (.addMessage p handler) => c.withChannel p fun c _ => c.modifyMux (·.addMessage p handler)
  | .op (.open p handshake) => c.withChannel p fun c ch =>
    if ch.openSent ∨ ch.closed ∨ ch.destroyed then c
    else
      ((c.modifyChannel p ({ · with openSent := true })).push [.openPending p]).writeFrame
        (openFrame ch.localId ch.protocol ch.id handshake)
  | .op (.send p messageType data) => c.withChannel p fun c ch =>
    if !ch.opened ∨ ch.closed ∨ ch.remoteId = 0 then c
    else c.writeFrame (dataFrame ch.remoteId messageType data)
  | .op (.close p) => c.withChannel p fun c ch =>
    if ch.closed ∨ ch.destroyed then c
    else
      ((c.modifyChannel p ({ · with closed := true })).push [.closing p]).writeFrame
        (closeFrame ch.localId)
  | .op .cork => c.modifyMux Mux.cork
  | .op .uncork => c.uncork
  | .op (.onData frame) => c.push ((onDataCalls frame).map .handle)
  | .op (.pair protocol id) => c.modifyMux (·.pair protocol id)
  | .op (.unpair protocol id) => c.modifyMux (·.unpair protocol id)
  | .op (.onNotify callback) => c.modifyMux ({ · with onNotify := callback })
  | .op .destroy =>
    if c.mux.destroyed then c
    else ((c.modifyMux ({ · with destroyed := true })).log .destroying).push [.destroyLoop]
  | .channelCork p => c.withChannel p fun c _ => c.modifyMux Mux.cork
  | .channelUncork p => c.withChannel p fun c _ => c.push [.method (.op .uncork)]
  | .onStreamDrain => c.push (c.mux.channels.map fun ch => .drain ch.ptr)
  | .forEachChannel =>
    c.push ((c.mux.channels.filter fun ch => !ch.destroyed).map fun ch => .forEach ch.ptr)
  | .setCallbacks p slots => c.withChannel p fun c _ => c.setSlots p slots

/-- A task, up to the next callback. -/
def runTask (c : Config) : Task → Config
  | .method m => c.runMethod m
  | .handle call => c.handle call
  | .openPending p => c.withChannel p fun c ch =>
    match ch.pairKeys.findSome? fun k => (c.mux.pendingRemote k).map (k, ·) with
    | none => c
    | some (k, pending) =>
      (c.modifyMux fun m =>
        { m with pendingRemote := Function.update m.pendingRemote k none }).tryPair ch pending
  | .drainPending p => c.withChannel p fun c ch =>
    (c.modifyChannel p ({ · with pendingMessages := [] })).push
      (ch.pendingMessages.map (.drainOne p))
  | .drainOne p pm => c.withChannel p fun c ch =>
    let c := c.modifyMux fun m => { m with
      bufferedBytes :=
        if m.bufferedBytes ≥ pm.data.length then m.bufferedBytes - pm.data.length else 0 }
    if ch.destroyed then c else c.dispatch ch pm.type pm.data
  | .closing p => c.withChannel p fun c _ =>
    ((c.setSlots p { c.slots p with onClose := false }).push [.channelDestroy p]).enterIf
      (c.slots p).onClose (.onClose p)
  | .remoteClose p => c.withChannel p fun c ch =>
    if ch.destroyed then c
    else
      -- `on_close` is moved out, and called when the channel is gone
      ((c.modifyChannel p ({ · with closed := true })).setSlots p
        { c.slots p with onClose := false }).push
        (.channelDestroy p :: if (c.slots p).onClose then [.callOnClose p] else [])
  | .channelDestroy p => c.withChannel p fun c ch =>
    if ch.destroyed then c
    else
      (((c.modifyChannel p ({ · with destroyed := true, opened := false })).setSlots p
        { c.slots p with onDestroy := false }).push [.removeChannel p]).enterIf
        (c.slots p).onDestroy (.onDestroy p)
  | .removeChannel p => c.withChannel p fun c _ =>
    (c.modifyMux (·.removeChannel p)).log (.freed p)
  | .callOnClose p => c.enter (.onClose p)
  | .drain p => c.withChannel p fun c ch =>
    c.enterIf (ch.opened && !ch.destroyed && (c.slots p).onDrain) (.onDrain p)
  | .forEach p => (c.log (.access p)).enter (.forEach p)
  | .destroyLoop =>
    match c.mux.channels.find? fun ch => !ch.destroyed with
    | none => c.modifyMux ({ · with batch := [], corkCount := 0 })
    | some ch => c.push [.remoteClose ch.ptr, .destroyLoop]

/-! ## The machine -/

/-- What may happen next: the library goes on, the user calls a method, a callback returns. -/
inductive Action where
  | run
  | call (m : Method)
  | ret

/-- Code of the user is running. -/
def userRuns (c : Config) : Bool :=
  match c.stack with
  | .task _ :: _ => false
  | _ => true

/-- The mux owns the channel whose method is called. -/
def owns (c : Config) (m : Method) : Bool :=
  match m.channel? with
  | none => true
  | some p => (c.mux.channel? p).isSome

/-- A step of the machine; an action that cannot happen does nothing. -/
def step (c : Config) : Action → Config
  | .run =>
    match c.stack with
    | .task t :: rest => runTask { c with stack := rest } t
    | _ => c
  | .call m => if c.userRuns && c.owns m then c.push [.method m] else c
  | .ret =>
    match c.stack with
    | .user _ :: rest => { c with stack := rest }
    | _ => c

end Config

end HyperDHT.Protomux
