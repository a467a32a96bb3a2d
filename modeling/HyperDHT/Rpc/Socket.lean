import HyperDHT.Lib.Runs
import HyperDHT.Lib.SwapPop
import HyperDHT.Rpc.Messages

/-!
# The request engine

The part of `RpcSocket` (`rpc.cpp`) that sends requests and matches their responses: transaction
ids, the congestion window, the list of requests in flight, the queue of those that wait for the
window, retries, timeouts, cancellation and closing.

## Main definitions

* `Rpc.CongestionWindow` — the sliding window of four buckets.
* `Rpc.InflightRequest`, `Rpc.RpcSocket` — a request object and the state of the engine.
* `Rpc.RpcSocket.requestWith`, `onResponse`, `onRequestTimeout`, `onDrainTick`, `cancelRequest`,
  `close` — the operations.
* `Rpc.RpcSocket.step` — the engine as a machine: what its owner, the network and the timers may
  do to it.

## Design

The callbacks are values of an arbitrary type `κ`. An operation that completes a request returns
the request object, and its caller runs the callback: in the source the callback is the last
thing that `handle_message` and `on_request_timeout` do, so whatever it does to the socket is a
later step of the run.

Time is left out: a timer may expire at any moment at which it runs. The timer of a request runs
from the first transmission until `destroy_request`, so it can expire only for a request in
flight. Round trip times and the health counters, which only tune the delays, are left out as
well.

A request object is known by its number `ptr`, which stands for its address in memory, and the
log records what the engine did. Neither is read by the operations.
-/

set_option autoImplicit false

namespace HyperDHT.Rpc

open Compact Routing

/-! ## The congestion window -/

/-- The size of a bucket. -/
def defaultMaxWindow : ℤ := 80

/-- Four time buckets that count requests, the current one being `i`. -/
structure CongestionWindow where
  i : Fin 4 := 0
  total : ℤ := 0
  window : Fin 4 → ℤ := fun _ => 0
  maxWindow : ℤ := defaultMaxWindow

namespace CongestionWindow

/-- The window admits no request. -/
def isFull (w : CongestionWindow) : Bool :=
  w.total ≥ 2 * w.maxWindow || w.window w.i ≥ w.maxWindow

/-- A request was sent. -/
def send (w : CongestionWindow) : CongestionWindow :=
  { w with total := w.total + 1, window := Function.update w.window w.i (w.window w.i + 1) }

/-- A request was resolved. A request of an earlier bucket is not given back. -/
def recv (w : CongestionWindow) : CongestionWindow :=
  if w.window w.i > 0 then
    { w with total := w.total - 1, window := Function.update w.window w.i (w.window w.i - 1) }
  else w

/-- The next bucket becomes the current one and is cleared. -/
def drain (w : CongestionWindow) : CongestionWindow :=
  let i := w.i + 1
  let total := w.total - w.window i
  { w with i, total := if total < 0 then 0 else total, window := Function.update w.window i 0 }

end CongestionWindow

/-! ## Requests in flight -/

/-- The number of retries of a request whose caller names none. -/
def defaultRetries : ℕ := 3

/-- The longest queue of requests that wait for the congestion window. -/
def maxPending : ℕ := 640

/-- A request object: the number `ptr` identifies it, `message` is what its buffer encodes. -/
structure InflightRequest (κ : Type) where
  ptr : ℕ
  tid : UInt16
  command : UInt32
  onResponse : Option κ
  onTimeout : Option κ
  sent : ℕ := 0
  retries : ℕ := defaultRetries
  timeoutOverrideMs : UInt64 := 0
  toAddr : Ipv4Address
  message : Request
  destroyed : Bool := false

/-- What the engine did: it accepted a request object (and returned its transaction id), sent a
datagram of it, completed it by its response or its timeout, dropped it because it was cancelled,
or closed. -/
inductive Event where
  | issued (ptr : ℕ) (tid : UInt16) (retries : ℕ)
  | sent (ptr : ℕ)
  | response (ptr : ℕ)
  | timeout (ptr : ℕ)
  | cancelled (ptr : ℕ)
  | closed
  deriving DecidableEq

/-- The engine. The requests in flight were sent at least once, the pending ones wait for the
congestion window. -/
structure RpcSocket (κ : Type) where
  closing : Bool := false
  congestion : CongestionWindow := {}
  nextTid : UInt16
  inflight : List (InflightRequest κ) := []
  pending : List (InflightRequest κ) := []
  nextPtr : ℕ := 0
  log : List Event := []

namespace RpcSocket

variable {κ : Type}

/-- Every request object the engine holds. -/
def outstanding (s : RpcSocket κ) : List (InflightRequest κ) := s.inflight ++ s.pending

/-- The next transaction id is handed out. The counter skips zero when it wraps around. -/
def allocTid (s : RpcSocket κ) : RpcSocket κ × UInt16 :=
  let next := s.nextTid + 1
  ({ s with nextTid := if next = 0 then 1 else next }, s.nextTid)

/-- The first request in flight that carries the transaction id. -/
def findInflight (s : RpcSocket κ) (tid : UInt16) : Option (InflightRequest κ) :=
  s.inflight.find? fun r => r.tid = tid

/-- The request object leaves the list of those in flight and returns its congestion budget. -/
def destroyRequest (s : RpcSocket κ) (req : InflightRequest κ) : RpcSocket κ :=
  if req.destroyed then s
  else
    { s with
      inflight := SwapPop.remove (fun r => r.ptr = req.ptr) s.inflight
      congestion := s.congestion.recv }

/-- The request in flight with this transaction id is dropped without a callback. -/
def cancelRequest (s : RpcSocket κ) (tid : UInt16) : RpcSocket κ × Bool :=
  match s.findInflight tid with
  | none => (s, false)
  | some req => ({ s.destroyRequest req with log := s.log ++ [.cancelled req.ptr] }, true)

/-- One more transmission is counted for the request object. -/
def countSent (ptr : ℕ) (l : List (InflightRequest κ)) : List (InflightRequest κ) :=
  l.map fun r => if r.ptr = ptr then { r with sent := r.sent + 1 } else r

/-- A request in flight is transmitted. -/
def sendNow (s : RpcSocket κ) (req : InflightRequest κ) : RpcSocket κ :=
  if req.destroyed || s.closing then s
  else
    { s with
      inflight := countSent req.ptr s.inflight
      congestion := s.congestion.send
      log := s.log ++ [.sent req.ptr] }

/-- One request object leaves the queue and is sent, unless it was destroyed while it waited. -/
def drainOne (s : RpcSocket κ) (req : InflightRequest κ) (rest : List (InflightRequest κ)) :
    RpcSocket κ :=
  if req.destroyed then { s with pending := rest }
  else ({ s with pending := rest, inflight := s.inflight ++ [req] }).sendNow req

/-- The loop over the queue: requests are sent until the window is full. -/
def drainLoop : List (InflightRequest κ) → RpcSocket κ → RpcSocket κ
  | [], s => s
  | req :: rest, s =>
    if s.congestion.isFull then s else drainLoop rest (s.drainOne req rest)

/-- Queued requests are sent as far as the window admits them. -/
def drainPending (s : RpcSocket κ) : RpcSocket κ := drainLoop s.pending s

/-- The request object for a message. -/
def newRequest (ptr : ℕ) (msg : Request) (timeoutOverrideMs : UInt64) (retries : ℕ)
    (onResponse onTimeout : Option κ) : InflightRequest κ where
  ptr := ptr
  tid := msg.tid
  command := msg.command
  onResponse := onResponse
  onTimeout := onTimeout
  retries := retries
  timeoutOverrideMs := timeoutOverrideMs
  toAddr := msg.toAddr
  message := msg

/-- A request object whose transaction id was just allocated is queued, sent, or deleted because
the window and the queue are full. -/
def submit (s : RpcSocket κ) (req : InflightRequest κ) : RpcSocket κ × UInt16 :=
  let log := s.log ++ [.issued req.ptr req.tid req.retries]
  if s.congestion.isFull then
    if s.pending.length ≥ maxPending then (s, 0)
    else ({ s with pending := s.pending ++ [req], log }, req.tid)
  else (({ s with inflight := s.inflight ++ [req], log }).sendNow req, req.tid)

/-- A request with its own timeout and number of retries. Zero is returned when it is refused. -/
def requestWith (s : RpcSocket κ) (req : Request) (timeoutOverrideMs : UInt64) (retries : ℕ)
    (onResponse onTimeout : Option κ) : RpcSocket κ × UInt16 :=
  if s.closing then (s, 0)
  else
    let (s, tid) := s.allocTid
    let msg := { req with tid }
    let inflight := newRequest s.nextPtr msg timeoutOverrideMs retries onResponse onTimeout
    ({ s with nextPtr := s.nextPtr + 1 }).submit inflight

/-- A request is refused: the socket closes, or the window and the queue are full. -/
def Refuses (s : RpcSocket κ) : Prop :=
  s.closing = true ∨ (s.congestion.isFull = true ∧ maxPending ≤ s.pending.length)

instance (s : RpcSocket κ) : Decidable s.Refuses :=
  inferInstanceAs (Decidable (_ ∨ _))

/-- A request with the default timeout and number of retries. -/
def request (s : RpcSocket κ) (req : Request) (onResponse onTimeout : Option κ) :
    RpcSocket κ × UInt16 :=
  s.requestWith req 0 defaultRetries onResponse onTimeout

/-- The timer of a request object expires: the request is sent again or, with no retries left,
given up and returned. -/
def onRequestTimeout (s : RpcSocket κ) (ptr : ℕ) : RpcSocket κ × Option (InflightRequest κ) :=
  match s.inflight.find? fun r => r.ptr = ptr with
  | none => (s, none)
  | some req =>
    if req.destroyed || s.closing then (s, none)
    else if req.sent > req.retries then
      ({ s.destroyRequest req with log := s.log ++ [.timeout req.ptr] }, some req)
    else (s.sendNow req, none)

/-- A response arrives: the request in flight with its transaction id is completed and
returned. -/
def onResponse (s : RpcSocket κ) (tid : UInt16) : RpcSocket κ × Option (InflightRequest κ) :=
  if s.closing then (s, none)
  else
    match s.findInflight tid with
    | none => (s, none)
    | some req =>
      if req.destroyed then (s, none)
      else ({ s.destroyRequest req with log := s.log ++ [.response req.ptr] }, some req)

/-- The drain timer expires: the window moves on and queued requests are sent. -/
def onDrainTick (s : RpcSocket κ) : RpcSocket κ :=
  if s.closing then s
  else ({ s with congestion := s.congestion.drain }).drainPending

/-- Every request in flight is destroyed, in the order of a copy of the list. -/
def destroyAll (s : RpcSocket κ) : RpcSocket κ :=
  s.inflight.foldl destroyRequest s

/-- The socket closes: every request object is dropped without a callback. -/
def close (s : RpcSocket κ) : RpcSocket κ :=
  if s.closing then s
  else { ({ s with closing := true }).destroyAll with pending := [], log := s.log ++ [.closed] }

/-! ## The engine as a machine -/

/-- What may happen to the engine: its owner (or a callback) issues or cancels a request or closes
the socket, the network delivers a response with any transaction id, a timer expires. -/
inductive Input (κ : Type) where
  | request (req : Request) (timeoutOverrideMs : UInt64) (retries : ℕ)
      (onResponse onTimeout : Option κ)
  | response (tid : UInt16)
  | timeout (ptr : ℕ)
  | drainTick
  | cancel (tid : UInt16)
  | close

/-- The engine after an input. -/
def step (s : RpcSocket κ) : Input κ → RpcSocket κ
  | .request req timeoutOverrideMs retries onResponse onTimeout =>
    (s.requestWith req timeoutOverrideMs retries onResponse onTimeout).1
  | .response tid => (s.onResponse tid).1
  | .timeout ptr => (s.onRequestTimeout ptr).1
  | .drainTick => s.onDrainTick
  | .cancel tid => (s.cancelRequest tid).1
  | .close => s.close

/-- A fresh engine: its first transaction id is random. -/
def init (κ : Type) (firstTid : UInt16) : RpcSocket κ where
  nextTid := firstTid

end RpcSocket

end HyperDHT.Rpc
