import HyperDHT.Holepunch.Basic
import HyperDHT.Lib.Runs
import HyperDHT.Lib.Trace
import HyperDHT.Routing.Table
import HyperDHT.Rpc.Envelope

/-!
# The pool socket

`holepunch::PoolSocket` sends requests from a socket of its own, each up to three times under one transaction id, and
`discover_pool_addresses` pings some nodes from it to learn under which address they see the socket.

## Main definitions

* `Holepunch.PoolSocket`, `Holepunch.poolStep` — the socket with the discoveries that run over it, as a machine over
  the calls of its users, the datagrams and the timers.
* `Holepunch.ResolvesOnce` — each request is resolved at most once, and each discovery done when its pings are.
* `Holepunch.PoolInv` — the invariant, with the finishes that a discovery is owed within a step.

## Main results

* `Holepunch.Requests.resolve`, `Holepunch.Counts.resolve` — a request is resolved, and its owner owed a finish.
* `Holepunch.PoolInv.finish` — a discovery is given a finish that it was owed.

## Design

A callback is the last thing that `handle_message`, the timer and `finish` do, so that the calls of the user within a
callback are those that come after it. An empty callback does nothing. Requests and discoveries are numbered in the
order in which they are issued; the owner of a request is the discovery it is a ping of, if it is one. The round-trip
times, which set how long a timer runs, are left out, as are the probes, which are no requests.
-/

set_option autoImplicit false

namespace HyperDHT.Holepunch

open Compact Routing Rpc Runs Trace

/-! ## The machine -/

/-- What the socket did: it took a request, transmitted it, called one of its callbacks, or closed; a discovery began,
or called `on_done`. -/
inductive PoolEvent where
  | request (n : ℕ) (owner : Option ℕ)
  | transmit (n : ℕ)
  | response (n : ℕ)
  | timeout (n : ℕ)
  | close
  | discover (c : ℕ)
  | done (c : ℕ) (ok : Bool)
  deriving DecidableEq

structure Inflight where
  tid : UInt16
  /-- The number of the request. -/
  number : ℕ
  owner : Option ℕ
  /-- Whether its timer runs. -/
  timer : Bool := false
  buffer : List UInt8
  dest : Ipv4Address
  attemptsLeft : ℤ

structure DiscoverCtx where
  pending : ℤ := 0
  done : Bool := false

structure PoolSocket where
  closing : Bool := false
  natSampler : NatSampler.State := {}
  nextTid : UInt16
  inflight : List Inflight := []
  /-- The discoveries, each at its number. -/
  discoveries : List DiscoverCtx := []
  /-- The number of the next request. -/
  next : ℕ := 0
  trace : List PoolEvent := []

/-- A request is sent, and its timer started. -/
def Inflight.sent (inf : Inflight) : Inflight := { inf with attemptsLeft := inf.attemptsLeft - 1, timer := true }

namespace PoolSocket

/-- An event is recorded. -/
def note (s : PoolSocket) (e : PoolEvent) : PoolSocket := { s with trace := s.trace ++ [e] }

/-- `PoolSocket::send_inflight`, for the request with the number `n`. -/
def sendInflight (s : PoolSocket) (n : ℕ) : PoolSocket :=
  if s.closing then s
  else { s.note (.transmit n) with
    inflight := s.inflight.map fun inf => if inf.number = n then inf.sent else inf }

/-- `PoolSocket::request`. -/
def request (s : PoolSocket) (req : Request) (owner : Option ℕ) : PoolSocket :=
  let inf : Inflight := {
    tid := s.nextTid
    number := s.next
    owner := owner
    buffer := encodeRequest { req with tid := s.nextTid }
    dest := req.toAddr
    attemptsLeft := maxRequestAttempts }
  ({ s.note (.request s.next owner) with
    nextTid := s.nextTid + 1, next := s.next + 1, inflight := s.inflight ++ [inf] }).sendInflight s.next

/-- `finish` of a discovery. -/
def finish (s : PoolSocket) (c : ℕ) : PoolSocket :=
  match s.discoveries[c]? with
  | none => s
  | some ctx =>
    if ctx.done then s
    else if ctx.pending - 1 ≤ 0 then
      { s.note (.done c (decide (minSamples ≤ s.natSampler.sampled))) with
        discoveries := s.discoveries.set c { pending := ctx.pending - 1, done := true } }
    else { s with discoveries := s.discoveries.set c { ctx with pending := ctx.pending - 1 } }

/-- A callback of a request: that of a ping finishes its discovery, that of a user goes on with further inputs. -/
def callback (s : PoolSocket) : Option ℕ → PoolSocket
  | some c => s.finish c
  | none => s

/-- `PoolSocket::on_recv` and `handle_message`, for a datagram from `remote`. -/
def handleMessage (s : PoolSocket) (data : List UInt8) (remote : Ipv4Address) : PoolSocket :=
  if s.closing ∨ data.length < 2 then s
  else
    match decodeMessage data { toAddr := Ipv4Address.zero } {} with
    | some (.response resp) =>
      let s := { s with natSampler := (s.natSampler.add resp.fromAddr remote).1 }
      match s.inflight.find? fun inf => inf.tid = resp.tid with
      | none => s
      | some inf =>
        ({ s.note (.response inf.number) with
          inflight := s.inflight.eraseP fun inf => inf.tid = resp.tid }).callback inf.owner
    | _ => s

/-- The timer of a request expires. -/
def onTimer (s : PoolSocket) (n : ℕ) : PoolSocket :=
  match s.inflight.find? fun inf => inf.number = n with
  | none => s
  | some inf =>
    if inf.timer = false ∨ s.closing = true then s
    else if inf.attemptsLeft > 0 then s.sendInflight n
    else
      ({ s.note (.timeout n) with
        inflight := s.inflight.filter fun inf => inf.number ≠ n }).callback inf.owner

/-- `PoolSocket::close`. -/
def close (s : PoolSocket) : PoolSocket :=
  if s.closing then s else { s.note .close with closing := true, inflight := [] }

/-- The nodes that are pinged: the relay, some of the table, and the public ones if the table is sparse. -/
def targets (table : Table) (relayAddr : Ipv4Address) : List Ipv4Address :=
  let closest := table.closest NodeId.zero 20
  let skip := if 8 ≤ closest.length then 5 else 0
  let known := relayAddr ::
    ((closest.drop skip).take (maxTargets - 1)).map fun node => Ipv4Address.fromString node.host node.port
  known ++ (bootstrapHosts.take (maxTargets - known.length)).map fun host => Ipv4Address.fromString host 49737

/-- A ping. -/
def ping (target : Ipv4Address) : Request := { toAddr := target, command := cmdPing, internal := true }

/-- The pings of the discovery `c`. -/
def sendPings (s : PoolSocket) (c : ℕ) (targets : List Ipv4Address) : PoolSocket :=
  targets.foldl (fun s target => s.request (ping target) (some c)) s

/-- `discover_pool_addresses`. -/
def discoverPoolAddresses (s : PoolSocket) (table : Table) (relayAddr : Ipv4Address) : PoolSocket :=
  let c := s.discoveries.length
  let targets := targets table relayAddr
  let ctx : DiscoverCtx := { pending := (targets.length : ℤ) + 1 }
  (({ s.note (.discover c) with discoveries := s.discoveries ++ [ctx] }).sendPings c targets).finish c

end PoolSocket

/-- The calls of the users, the datagrams, and the expiries of the timers. -/
inductive PoolInput where
  | request (req : Request)
  | message (data : List UInt8) (remote : Ipv4Address)
  | timer (n : ℕ)
  | close
  | discover (table : Table) (relayAddr : Ipv4Address)

/-- The socket takes a step. -/
def poolStep (s : PoolSocket) : PoolInput → PoolSocket
  | .request req => s.request req none
  | .message data remote => s.handleMessage data remote
  | .timer n => s.onTimer n
  | .close => s.close
  | .discover table relayAddr => s.discoverPoolAddresses table relayAddr

/-! ## The claim -/

/-- The request was answered or timed out. -/
def Resolved (n : ℕ) (trace : List PoolEvent) : Prop := .response n ∈ trace ∨ .timeout n ∈ trace

/-- A request is transmitted and resolved before the socket closes, and resolved once; a discovery is done before that,
once, and after all its pings were resolved. -/
def PoolAllowed (before : List PoolEvent) : PoolEvent → Prop
  | .transmit n => ¬ Resolved n before ∧ .close ∉ before
  | .response n => ¬ Resolved n before ∧ .close ∉ before
  | .timeout n => ¬ Resolved n before ∧ .close ∉ before
  | .done c _ => (∀ ok, .done c ok ∉ before) ∧ .close ∉ before ∧
      ∀ n, .request n (some c) ∈ before → Resolved n before
  | _ => True

/-- **Each request is resolved at most once**, not after the socket closed, and after three transmissions at most; an
open socket resolves it when its timer has expired three more times. And a discovery is done, once, exactly when all
its pings are resolved. -/
structure ResolvesOnce (s : PoolSocket) : Prop where
  transmitted : ∀ n, s.trace.count (.transmit n) ≤ 3
  lawful : Always PoolAllowed s.trace
  resolves : s.closing = false → ∀ n owner, .request n owner ∈ s.trace →
    Resolved n (run poolStep s (List.replicate 3 (.timer n))).trace
  done : ∀ c, .discover c ∈ s.trace →
    ((∃ ok, .done c ok ∈ s.trace) ↔ ∀ n, .request n (some c) ∈ s.trace → Resolved n s.trace)

/-! ## The invariant -/

/-- How many finishes the owner of a request is owed. -/
def owes (owner : Option ℕ) (k c : ℕ) : ℕ := if owner = some c then k else 0

namespace PoolSocket

/-- The pings in flight of the discovery `c`. -/
def pings (s : PoolSocket) (c : ℕ) : ℕ := s.inflight.countP fun inf => inf.owner = some c

end PoolSocket

/-- The requests in flight are those that were not resolved, each with the attempts it has left. -/
structure Requests (s : PoolSocket) : Prop where
  numbers : (s.inflight.map Inflight.number).Nodup
  issued : ∀ inf ∈ s.inflight, .request inf.number inf.owner ∈ s.trace
  numbered : ∀ n owner, .request n owner ∈ s.trace → n < s.next
  owner : ∀ n o o', .request n o ∈ s.trace → .request n o' ∈ s.trace → o = o'
  known : ∀ n, Resolved n s.trace ∨ .transmit n ∈ s.trace → n < s.next
  unresolved : ∀ inf ∈ s.inflight, ¬ Resolved inf.number s.trace
  kept : s.closing = false → ∀ n owner, .request n owner ∈ s.trace →
    Resolved n s.trace ∨ ∃ inf ∈ s.inflight, inf.number = n
  armed : s.closing = false → ∀ inf ∈ s.inflight, inf.timer = true ∧ 0 ≤ inf.attemptsLeft ∧ inf.attemptsLeft < 3 ∧
    (s.trace.count (.transmit inf.number) : ℤ) + inf.attemptsLeft = 3
  transmitted : ∀ n, s.trace.count (.transmit n) ≤ 3
  closed : s.closing = true ↔ .close ∈ s.trace
  lawful : Always PoolAllowed s.trace

/-- **The count of a discovery** that is not done is the number of its pings in flight and of the finishes it is owed;
after the socket closed, at least this number. -/
structure Counts (owner : Option ℕ) (k : ℕ) (s : PoolSocket) : Prop where
  discovered : ∀ c, .discover c ∈ s.trace ↔ c < s.discoveries.length
  owners : ∀ n c, .request n (some c) ∈ s.trace → c < s.discoveries.length
  done : ∀ c ctx, s.discoveries[c]? = some ctx → (ctx.done = true ↔ ∃ ok, .done c ok ∈ s.trace)
  doneKnown : ∀ c ok, .done c ok ∈ s.trace → c < s.discoveries.length
  doneAll : ∀ c ctx, s.discoveries[c]? = some ctx → ctx.done = true →
    ∀ n, .request n (some c) ∈ s.trace → Resolved n s.trace
  pendingGe : ∀ c ctx, s.discoveries[c]? = some ctx → ctx.done = false →
    (s.pings c : ℤ) + owes owner k c ≤ ctx.pending
  pendingLe : s.closing = false → ∀ c ctx, s.discoveries[c]? = some ctx → ctx.done = false →
    ctx.pending ≤ (s.pings c : ℤ) + owes owner k c
  waits : ∀ c ctx, s.discoveries[c]? = some ctx → ctx.done = false → owes owner k c = 0 →
    ∃ n, .request n (some c) ∈ s.trace ∧ ¬ Resolved n s.trace
  owing : ∀ c, owner = some c → 0 < k → ∃ ctx, s.discoveries[c]? = some ctx ∧ ctx.done = false

/-- What holds of the socket within a step, and, when nothing is owed, after it. -/
structure PoolInv (owner : Option ℕ) (k : ℕ) (s : PoolSocket) : Prop where
  requests : Requests s
  counts : Counts owner k s

variable {s : PoolSocket} {owner : Option ℕ} {k n : ℕ} {trace : List PoolEvent} {e : PoolEvent}

lemma owes_none (k c : ℕ) : owes none k c = 0 := if_neg (by simp)

lemma owes_self (k c : ℕ) : owes (some c) k c = k := if_pos rfl

lemma owes_ne {k c : ℕ} (h : owner ≠ some c) : owes owner k c = 0 := if_neg h

/-- The request that an event resolves. -/
def PoolEvent.resolves : PoolEvent → Option ℕ
  | .response n => some n
  | .timeout n => some n
  | _ => none

lemma resolved_concat : Resolved n (trace ++ [e]) ↔ Resolved n trace ∨ e.resolves = some n := by
  rw [Resolved, Resolved, List.mem_append, List.mem_append, List.mem_singleton, List.mem_singleton]
  cases e with
  | response m => simp [PoolEvent.resolves, eq_comm, or_right_comm]
  | timeout m => simp [PoolEvent.resolves, eq_comm, or_assoc]
  | request m o => simp [PoolEvent.resolves]
  | transmit m => simp [PoolEvent.resolves]
  | close => simp [PoolEvent.resolves]
  | discover c => simp [PoolEvent.resolves]
  | done c ok => simp [PoolEvent.resolves]

lemma resolved_concat_of_none (h : e.resolves = none) : Resolved n (trace ++ [e]) ↔ Resolved n trace := by
  rw [resolved_concat, h]
  simp

lemma mem_concat_of_ne {e' : PoolEvent} (h : e' ≠ e) : e' ∈ trace ++ [e] ↔ e' ∈ trace := by
  rw [List.mem_append, List.mem_singleton]
  exact or_iff_left h

lemma count_concat_of_ne {e' : PoolEvent} (h : e' ≠ e) : (trace ++ [e]).count e' = trace.count e' := by
  have hzero : [e].count e' = 0 := List.count_eq_zero.2 fun hin => h (List.mem_singleton.1 hin)
  rw [List.count_append, hzero, Nat.add_zero]

/-- An event of a discovery, which concerns no request. -/
def PoolEvent.ofDiscovery : PoolEvent → Bool
  | .discover _ => true
  | .done _ _ => true
  | _ => false

lemma Requests.note {discoveries : List DiscoverCtx} (h : Requests s) (he : e.ofDiscovery = true)
    (hallowed : PoolAllowed s.trace e) : Requests { s.note e with discoveries := discoveries } := by
  have hne {e' : PoolEvent} (he' : e'.ofDiscovery = false) : e' ≠ e := by
    rintro rfl
    rw [he] at he'
    cases he'
  have hmem {e' : PoolEvent} (he' : e'.ofDiscovery = false) : e' ∈ s.trace ++ [e] ↔ e' ∈ s.trace :=
    mem_concat_of_ne (hne he')
  have hresolved (n : ℕ) : Resolved n (s.trace ++ [e]) ↔ Resolved n s.trace := or_congr (hmem rfl) (hmem rfl)
  have hcount (n : ℕ) : (s.trace ++ [e]).count (.transmit n) = s.trace.count (.transmit n) :=
    count_concat_of_ne (hne rfl)
  refine ⟨h.numbers, fun inf hinf => ?_, fun n o ho => ?_, fun n o o' ho ho' => ?_, fun n hn => ?_,
    fun inf hinf => ?_, fun hopen n o ho => ?_, fun hopen inf hinf => ?_, fun n => ?_, ?_, ?_⟩
  · exact (hmem rfl).2 (h.issued inf hinf)
  · exact h.numbered n o ((hmem rfl).1 ho)
  · exact h.owner n o o' ((hmem rfl).1 ho) ((hmem rfl).1 ho')
  · exact h.known n (hn.imp (hresolved n).1 (hmem rfl).1)
  · exact fun hr => h.unresolved inf hinf ((hresolved _).1 hr)
  · exact (h.kept hopen n o ((hmem rfl).1 ho)).imp_left (hresolved n).2
  · have harmed := h.armed hopen inf hinf
    rwa [← hcount inf.number] at harmed
  · exact (hcount n).symm ▸ h.transmitted n
  · exact h.closed.trans (hmem rfl).symm
  · exact always_concat.2 ⟨h.lawful, hallowed⟩

/-- **The counts stay** where the discoveries do, while no ping leaves without the socket closing, and the requests,
their resolutions and the ends of the discoveries are those before. -/
lemma Counts.frame {s' : PoolSocket} (h : Counts owner k s) (hdiscoveries : s'.discoveries = s.discoveries)
    (hopen : s'.closing = false → s.closing = false ∧ ∀ c, s'.pings c = s.pings c)
    (hpings : ∀ c, s'.pings c ≤ s.pings c)
    (hmem : ∀ e, e ≠ .close → (∀ n, e ≠ .transmit n) → (e ∈ s'.trace ↔ e ∈ s.trace)) : Counts owner k s' := by
  have hrequest (n : ℕ) (c : ℕ) : .request n (some c) ∈ s'.trace ↔ .request n (some c) ∈ s.trace :=
    hmem _ (by simp) (by simp)
  have hdone (c : ℕ) (ok : Bool) : .done c ok ∈ s'.trace ↔ .done c ok ∈ s.trace := hmem _ (by simp) (by simp)
  have hresolved (n : ℕ) : Resolved n s'.trace ↔ Resolved n s.trace :=
    or_congr (hmem _ (by simp) (by simp)) (hmem _ (by simp) (by simp))
  refine ⟨fun c => ?_, fun n c hn => ?_, fun c ctx hctx => ?_, fun c ok hn => ?_, fun c ctx hctx hd n hn => ?_,
    fun c ctx hctx hd => ?_, fun ho c ctx hctx hd => ?_, fun c ctx hctx hd howes => ?_, fun c howner hk => ?_⟩
  · rw [hmem _ (by simp) (by simp), hdiscoveries]
    exact h.discovered c
  · rw [hdiscoveries]
    exact h.owners n c ((hrequest n c).1 hn)
  · rw [hdiscoveries] at hctx
    rw [h.done c ctx hctx]
    exact exists_congr fun ok => (hdone c ok).symm
  · rw [hdiscoveries]
    exact h.doneKnown c ok ((hdone c ok).1 hn)
  · rw [hdiscoveries] at hctx
    exact (hresolved n).2 (h.doneAll c ctx hctx hd n ((hrequest n c).1 hn))
  · rw [hdiscoveries] at hctx
    have hge := h.pendingGe c ctx hctx hd
    have hle := hpings c
    omega
  · rw [hdiscoveries] at hctx
    rw [(hopen ho).2]
    exact h.pendingLe (hopen ho).1 c ctx hctx hd
  · rw [hdiscoveries] at hctx
    obtain ⟨n, hn, hwaits⟩ := h.waits c ctx hctx hd howes
    exact ⟨n, (hrequest n c).2 hn, fun hr => hwaits ((hresolved n).1 hr)⟩
  · rw [hdiscoveries]
    exact h.owing c howner hk

lemma Requests.fresh (h : Requests s) :
    (∀ inf ∈ s.inflight, inf.number ≠ s.next) ∧ ¬ Resolved s.next s.trace ∧ s.trace.count (.transmit s.next) = 0 := by
  refine ⟨fun inf hinf heq => ?_, fun hr => ?_, List.count_eq_zero.2 fun hmem => ?_⟩
  · exact absurd (h.numbered _ _ (h.issued inf hinf)) (by rw [heq]; exact Nat.lt_irrefl _)
  · exact absurd (h.known _ (.inl hr)) (Nat.lt_irrefl _)
  · exact absurd (h.known _ (.inr hmem)) (Nat.lt_irrefl _)

lemma Requests.not_close (h : Requests s) (hopen : s.closing = false) : .close ∉ s.trace := by
  rw [← h.closed, hopen]
  decide

/-! ## A request is resolved -/

/-- The socket after an event took a request out of those in flight. -/
structure Resolves (s s' : PoolSocket) (inf : Inflight) (e : PoolEvent) : Prop where
  event : e = .response inf.number ∨ e = .timeout inf.number
  perm : s.inflight.Perm (inf :: s'.inflight)
  trace : s'.trace = s.trace ++ [e]
  closing : s'.closing = s.closing
  next : s'.next = s.next
  discoveries : s'.discoveries = s.discoveries

lemma Resolves.resolved {s' : PoolSocket} {inf : Inflight} (h : Resolves s s' inf e) :
    Resolved n s'.trace ↔ Resolved n s.trace ∨ inf.number = n := by
  rw [h.trace, resolved_concat]
  rcases h.event with rfl | rfl
  · exact or_congr_right Option.some_inj
  · exact or_congr_right Option.some_inj

lemma Resolves.mem {s' : PoolSocket} {inf : Inflight} (h : Resolves s s' inf e) {e' : PoolEvent}
    (he' : e'.resolves = none) : e' ∈ s'.trace ↔ e' ∈ s.trace := by
  rw [h.trace]
  refine mem_concat_of_ne ?_
  rintro rfl
  rcases h.event with rfl | rfl
  · cases he'
  · cases he'

/-- **A resolved request is no longer in flight**, and no other one is resolved. -/
lemma Requests.resolve {s' : PoolSocket} {inf : Inflight} (h : Requests s) (hr : Resolves s s' inf e)
    (hopen : s.closing = false) : Requests s' := by
  have hinf : inf ∈ s.inflight := hr.perm.mem_iff.2 List.mem_cons_self
  have hrest {other : Inflight} (hother : other ∈ s'.inflight) : other ∈ s.inflight :=
    hr.perm.mem_iff.2 (List.mem_cons_of_mem _ hother)
  have hnumbers := (hr.perm.map Inflight.number).nodup_iff.1 h.numbers
  rw [List.map_cons, List.nodup_cons] at hnumbers
  have hcount (n : ℕ) : s'.trace.count (.transmit n) = s.trace.count (.transmit n) := by
    rw [hr.trace, List.count_append]
    rcases hr.event with rfl | rfl
    · simp
    · simp
  refine ⟨hnumbers.2, fun other hother => ?_, fun n o hmem => ?_, fun n o o' ho ho' => ?_, fun n hn => ?_,
    fun other hother => ?_, fun _ n o hmem => ?_, fun _ other hother => ?_, fun n => ?_, ?_, ?_⟩
  · exact (hr.mem rfl).2 (h.issued other (hrest hother))
  · rw [hr.next]
    exact h.numbered n o ((hr.mem rfl).1 hmem)
  · exact h.owner n o o' ((hr.mem rfl).1 ho) ((hr.mem rfl).1 ho')
  · rw [hr.next]
    rw [hr.resolved, hr.mem rfl] at hn
    rcases hn with (hold | rfl) | htransmit
    · exact h.known n (.inl hold)
    · exact h.numbered _ _ (h.issued inf hinf)
    · exact h.known n (.inr htransmit)
  · rw [hr.resolved]
    rintro (hold | heq)
    · exact h.unresolved other (hrest hother) hold
    · exact hnumbers.1 (heq ▸ List.mem_map_of_mem hother)
  · rw [hr.resolved]
    rcases h.kept hopen n o ((hr.mem rfl).1 hmem) with hold | ⟨other, hother, rfl⟩
    · exact .inl (.inl hold)
    · rcases List.mem_cons.1 (hr.perm.mem_iff.1 hother) with rfl | hin
      · exact .inl (.inr rfl)
      · exact .inr ⟨other, hin, rfl⟩
  · rw [hcount]
    exact h.armed hopen other (hrest hother)
  · rw [hcount]
    exact h.transmitted n
  · rw [hr.closing, h.closed]
    exact (hr.mem rfl).symm
  · have hclose := h.not_close hopen
    have hallowed : ¬ Resolved inf.number s.trace ∧ .close ∉ s.trace := ⟨h.unresolved inf hinf, hclose⟩
    rw [hr.trace]
    refine always_concat.2 ⟨h.lawful, ?_⟩
    rcases hr.event with rfl | rfl
    · exact hallowed
    · exact hallowed

/-- **The owner of a resolved request is owed a finish.** -/
lemma Counts.resolve {s' : PoolSocket} {inf : Inflight} (h : Counts none 0 s) (hs : Requests s)
    (hr : Resolves s s' inf e) : Counts inf.owner 1 s' := by
  have hinf : inf ∈ s.inflight := hr.perm.mem_iff.2 List.mem_cons_self
  have hissued := hs.issued inf hinf
  have hpings (c : ℕ) : s.pings c = s'.pings c + owes inf.owner 1 c := by
    rw [PoolSocket.pings, hr.perm.countP_eq, List.countP_cons, PoolSocket.pings, owes]
    simp only [decide_eq_true_eq]
  refine ⟨fun c => ?_, fun n c hmem => ?_, fun c ctx hctx => ?_, fun c ok hmem => ?_,
    fun c ctx hctx hdone n hmem => ?_, fun c ctx hctx hdone => ?_, fun hopen c ctx hctx hdone => ?_,
    fun c ctx hctx hdone howes => ?_, fun c howner _ => ?_⟩
  · rw [hr.mem rfl, hr.discoveries]
    exact h.discovered c
  · rw [hr.discoveries]
    exact h.owners n c ((hr.mem rfl).1 hmem)
  · rw [hr.discoveries] at hctx
    rw [h.done c ctx hctx]
    exact exists_congr fun ok => (hr.mem rfl).symm
  · rw [hr.discoveries]
    exact h.doneKnown c ok ((hr.mem rfl).1 hmem)
  · rw [hr.discoveries] at hctx
    exact hr.resolved.2 (.inl (h.doneAll c ctx hctx hdone n ((hr.mem rfl).1 hmem)))
  · rw [hr.discoveries] at hctx
    have hge := h.pendingGe c ctx hctx hdone
    rw [hpings, owes_none] at hge
    omega
  · rw [hr.discoveries] at hctx
    rw [hr.closing] at hopen
    have hle := h.pendingLe hopen c ctx hctx hdone
    rw [hpings, owes_none] at hle
    omega
  · rw [hr.discoveries] at hctx
    obtain ⟨n, hn, hunresolved⟩ := h.waits c ctx hctx hdone (owes_none 0 c)
    refine ⟨n, (hr.mem rfl).2 hn, fun hresolved => ?_⟩
    rcases hr.resolved.1 hresolved with hold | rfl
    · exact hunresolved hold
    · have howner := hs.owner _ _ _ hissued hn
      rw [howner, owes_self] at howes
      cases howes
  · have hlt := h.owners inf.number c (howner ▸ hissued)
    obtain ⟨ctx, hctx⟩ : ∃ ctx, s.discoveries[c]? = some ctx := ⟨_, List.getElem?_eq_getElem hlt⟩
    refine ⟨ctx, by rw [hr.discoveries, hctx], ?_⟩
    by_contra hdone
    exact hs.unresolved inf hinf (h.doneAll c ctx hctx (by simpa using hdone) _ (howner ▸ hissued))

/-! ## A discovery finishes -/

lemma finish_cases {c : ℕ} {ctx : DiscoverCtx} (hctx : s.discoveries[c]? = some ctx) (hdone : ctx.done = false) :
    (ctx.pending ≤ 1 ∧ ∃ ok, s.finish c = { s.note (.done c ok) with
        discoveries := s.discoveries.set c { pending := ctx.pending - 1, done := true } }) ∨
      1 < ctx.pending ∧ s.finish c = { s with
        discoveries := s.discoveries.set c { pending := ctx.pending - 1, done := false } } := by
  have hnot : ¬ ctx.done = true := by rw [hdone]; decide
  rw [PoolSocket.finish, hctx]
  by_cases hlast : ctx.pending - 1 ≤ 0
  · exact .inl ⟨by omega, _, (if_neg hnot).trans (if_pos hlast)⟩
  · refine .inr ⟨by omega, (if_neg hnot).trans ((if_neg hlast).trans ?_)⟩
    rw [hdone]

lemma Counts.finish {s' : PoolSocket} {c : ℕ} {ctx : DiscoverCtx} (hc : Counts (some c) 1 s)
    (hlt : c < s.discoveries.length) (hdiscoveries : s'.discoveries = s.discoveries.set c ctx)
    (hclosing : s'.closing = s.closing) (hinflight : s'.inflight = s.inflight)
    (hmem : ∀ e, (∀ ok, e ≠ .done c ok) → (e ∈ s'.trace ↔ e ∈ s.trace))
    (hresolved : ∀ n, Resolved n s'.trace ↔ Resolved n s.trace)
    (hdone : ctx.done = true ↔ ∃ ok, .done c ok ∈ s'.trace)
    (hall : ctx.done = true → ∀ n, .request n (some c) ∈ s.trace → Resolved n s.trace)
    (hge : ctx.done = false → (s.pings c : ℤ) ≤ ctx.pending)
    (hle : ctx.done = false → s.closing = false → ctx.pending ≤ s.pings c)
    (hwaits : ctx.done = false → ∃ n, .request n (some c) ∈ s.trace ∧ ¬ Resolved n s.trace) : Counts none 0 s' := by
  have hpings (c' : ℕ) : s'.pings c' = s.pings c' := by rw [PoolSocket.pings, hinflight, PoolSocket.pings]
  have hother {c' : ℕ} (hne : c ≠ c') : owes (some c) 1 c' = 0 := owes_ne fun heq => hne (Option.some.inj heq)
  have hget {c' : ℕ} {ctx' : DiscoverCtx} (hctx' : s'.discoveries[c']? = some ctx') :
      c' = c ∧ ctx' = ctx ∨ c ≠ c' ∧ s.discoveries[c']? = some ctx' := by
    rw [hdiscoveries] at hctx'
    by_cases hcc : c = c'
    · subst hcc
      rw [List.getElem?_set_self hlt] at hctx'
      exact .inl ⟨rfl, (Option.some.inj hctx').symm⟩
    · rw [List.getElem?_set_ne hcc] at hctx'
      exact .inr ⟨hcc, hctx'⟩
  have hlength : s'.discoveries.length = s.discoveries.length := by rw [hdiscoveries, List.length_set]
  refine ⟨fun c' => ?_, fun n c' hn => ?_, fun c' ctx' hctx' => ?_, fun c' ok' hn => ?_,
    fun c' ctx' hctx' hdone' n hn => ?_, fun c' ctx' hctx' hdone' => ?_, fun hopen c' ctx' hctx' hdone' => ?_,
    fun c' ctx' hctx' hdone' _ => ?_, fun c' howner => by cases howner⟩
  · rw [hmem _ (by simp), hlength]
    exact hc.discovered c'
  · rw [hlength]
    exact hc.owners n c' ((hmem _ (by simp)).1 hn)
  · rcases hget hctx' with ⟨rfl, rfl⟩ | ⟨hne, hold⟩
    · exact hdone
    · rw [hc.done c' ctx' hold]
      exact exists_congr fun ok' => (hmem _ fun ok'' heq => hne (PoolEvent.done.inj heq).1.symm).symm
  · rw [hlength]
    by_cases hcc : c' = c
    · rwa [hcc]
    · exact hc.doneKnown c' ok' ((hmem _ fun ok'' heq => hcc (PoolEvent.done.inj heq).1).1 hn)
  · rw [hresolved]
    have hn' := (hmem _ (by simp)).1 hn
    rcases hget hctx' with ⟨rfl, rfl⟩ | ⟨-, hold⟩
    · exact hall hdone' n hn'
    · exact hc.doneAll c' ctx' hold hdone' n hn'
  · rw [hpings, owes_none]
    rcases hget hctx' with ⟨rfl, rfl⟩ | ⟨hne, hold⟩
    · exact (Int.add_zero _).trans_le (hge hdone')
    · have hold' := hc.pendingGe c' ctx' hold hdone'
      rwa [hother hne] at hold'
  · rw [hpings, owes_none]
    rw [hclosing] at hopen
    rcases hget hctx' with ⟨rfl, rfl⟩ | ⟨hne, hold⟩
    · exact (hle hdone' hopen).trans_eq (Int.add_zero _).symm
    · have hold' := hc.pendingLe hopen c' ctx' hold hdone'
      rwa [hother hne] at hold'
  · obtain ⟨n, hn, hunresolved⟩ : ∃ n, .request n (some c') ∈ s.trace ∧ ¬ Resolved n s.trace := by
      rcases hget hctx' with ⟨rfl, rfl⟩ | ⟨hne, hold⟩
      · exact hwaits hdone'
      · exact hc.waits c' ctx' hold hdone' (hother hne)
    exact ⟨n, (hmem _ (by simp)).2 hn, fun hr => hunresolved ((hresolved n).1 hr)⟩

/-- **A finish that was owed**, while the socket is open or a ping of the discovery is in flight. -/
lemma PoolInv.finish {c : ℕ} (h : PoolInv (some c) 1 s) (hwaits : s.closing = false ∨ 0 < s.pings c) :
    PoolInv none 0 (s.finish c) := by
  obtain ⟨hs, hc⟩ := h
  obtain ⟨ctx, hctx, hdone⟩ := hc.owing c rfl Nat.one_pos
  have hlt : c < s.discoveries.length := (List.getElem?_eq_some_iff.1 hctx).1
  have hge := hc.pendingGe c ctx hctx hdone
  rw [owes_self] at hge
  have hfirst : ∀ ok, .done c ok ∉ s.trace := by
    intro ok hmem
    rw [(hc.done c ctx hctx).2 ⟨ok, hmem⟩] at hdone
    cases hdone
  rcases finish_cases hctx hdone with ⟨hlast, ok, heq⟩ | ⟨hmore, heq⟩
  · -- no ping is in flight any more
    have hnone : s.pings c = 0 := by omega
    have hopen : s.closing = false := hwaits.resolve_right (by omega)
    have hclose := hs.not_close hopen
    have hall : ∀ n, .request n (some c) ∈ s.trace → Resolved n s.trace := by
      intro n hn
      rcases hs.kept hopen n _ hn with hresolved | ⟨inf, hinf, rfl⟩
      · exact hresolved
      · have howner := hs.owner _ _ _ (hs.issued inf hinf) hn
        rw [PoolSocket.pings, List.countP_eq_zero] at hnone
        exact absurd (decide_eq_true howner) (hnone inf hinf)
    rw [heq]
    refine ⟨hs.note rfl ⟨hfirst, hclose, hall⟩, hc.finish hlt rfl rfl rfl (fun e he => mem_concat_of_ne (he ok))
      (fun n => resolved_concat_of_none rfl) (iff_of_true rfl ⟨ok, by simp [PoolSocket.note]⟩) (fun _ => hall) ?_ ?_ ?_⟩
    · intro hnot
      cases hnot
    · intro hnot
      cases hnot
    · intro hnot
      cases hnot
  · -- a ping is in flight
    have hpings : 0 < s.pings c := by
      rcases hwaits with hopen | hpos
      · have hle := hc.pendingLe hopen c ctx hctx hdone
        rw [owes_self] at hle
        omega
      · exact hpos
    have hwait : ∃ n, .request n (some c) ∈ s.trace ∧ ¬ Resolved n s.trace := by
      obtain ⟨inf, hinf, howner⟩ := List.countP_pos_iff.1 hpings
      have hissued := hs.issued inf hinf
      rw [of_decide_eq_true howner] at hissued
      exact ⟨inf.number, hissued, hs.unresolved inf hinf⟩
    rw [heq]
    refine ⟨⟨hs.numbers, hs.issued, hs.numbered, hs.owner, hs.known, hs.unresolved, hs.kept, hs.armed, hs.transmitted,
      hs.closed, hs.lawful⟩, hc.finish hlt rfl rfl rfl (fun e _ => Iff.rfl) (fun n => Iff.rfl)
      (iff_of_false Bool.false_ne_true fun hex => hfirst _ hex.choose_spec) (fun hnot => by cases hnot) (fun _ => ?_)
      (fun _ hopen => ?_) fun _ => hwait⟩
    · show (s.pings c : ℤ) ≤ ctx.pending - 1
      omega
    · show ctx.pending - 1 ≤ (s.pings c : ℤ)
      have hle := hc.pendingLe hopen c ctx hctx hdone
      rw [owes_self] at hle
      omega

end HyperDHT.Holepunch
