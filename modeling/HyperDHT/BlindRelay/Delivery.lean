import HyperDHT.BlindRelay.Client
import HyperDHT.Protomux.Routing

/-!
# A Pair request on its way to the relay

A client of a relay on one of two muxes over FIFO links. `pair` registers its request and then gives the
Pair message to `Channel::send`, which drops it unless the channel is open; the result is not looked at.

## Main definitions

* `BlindRelay.RelayNet`, `BlindRelay.relayStep` — the network with a client at its first end.
* `BlindRelay.PairsArrive` — once all frames of the client's side have arrived, the session has been given
  one Pair message for each accepted request.
* `BlindRelay.PairsWhenOpen` — the condition on the steps: `pair` finds the channel open, with one id at
  both ends, and no channel is created after the local ids have wrapped around.

## Main results

* `BlindRelay.pairsArrive_of_pairsWhenOpen` — runs of such steps lose no request.
* `BlindRelay.not_pairsArrive_pairAtOnceRun` — `pair` right after `open`.

## Design

The client owns its channel: no other input opens it or sends on it. The two handlers of the client are the
first two message types of its channel. What a callback of the user calls is an input that follows. Neither
end closes a channel.
-/

set_option autoImplicit false

namespace HyperDHT.BlindRelay

open Protomux

/-! ## The network -/

def protocolName : Bytes :=
  ⟨[98, 108, 105, 110, 100, 45, 114, 101, 108, 97, 121], by decide⟩

/-- The network, and the client on its channel. -/
structure RelayNet where
  net : Net := {}
  /-- The channel of the client, once there is one. -/
  channel : Option Ptr := none
  client : RelayClient := {}

/-- What happens on the muxes, and the calls of the client. -/
inductive RelayInput where
  | mux (i : Input)
  | attach (channelId : Bytes)
  | open (handshake : Bytes)
  | pair (isInitiator : Bool) (token : Token) (localStreamId : UInt32) (place : ℕ)
  | unpair (token : Token)

/-- The input uses the channel of the client. -/
def Touches (p : Ptr) : Input → Prop
  | .open .a q _ => q = p
  | .send .a q _ _ => q = p
  | _ => False

instance (p : Ptr) : (i : Input) → Decidable (Touches p i)
  | .open .a q _ => inferInstanceAs (Decidable (q = p))
  | .send .a q _ _ => inferInstanceAs (Decidable (q = p))
  | .open .b _ _ => .isFalse id
  | .send .b _ _ _ => .isFalse id
  | .create _ _ _ _ _ => .isFalse id
  | .deliver _ => .isFalse id

namespace RelayClient

/-- The handlers of the two messages, for a dispatch on the channel of the client. -/
def handle (c : RelayClient) (p : Ptr) (dispatch : Dispatch) : RelayClient :=
  if dispatch.channel ≠ p then c
  else if dispatch.type = pairType.toUInt32 then
    match c.onPairResponse dispatch.data with
    | none => c
    | some request => c.unregister request.token
  else if dispatch.type = unpairType.toUInt32 then
    match c.onUnpairResponse dispatch.data with
    | none => c
    | some request => c.unregister request.token
  else c

end RelayClient

namespace RelayNet

/-- The dispatches at the end of the client that a step has brought. -/
def newDispatches (before after : Net) : List Dispatch :=
  ((after.delivered .b).drop (before.delivered .b).length).flatMap (·.dispatches)

/-- Something happens on the muxes. -/
def onMux (s : RelayNet) (i : Input) : RelayNet :=
  match s.channel with
  | none => { s with net := netStep s.net i }
  | some p =>
    if Touches p i then s
    else
      { s with
        net := netStep s.net i
        client := (newDispatches s.net (netStep s.net i)).foldl (fun c d => c.handle p d) s.client }

/-- The client takes a new channel. -/
def attach (s : RelayNet) (channelId : Bytes) : RelayNet :=
  if s.channel.isSome then s
  else
    { s with
      net := netStep s.net (.create .a protocolName [] channelId false)
      channel := ((s.net.mux .a).createChannel protocolName [] channelId false).2 }

/-- `BlindRelayClient::open`. -/
def openClient (s : RelayNet) (handshake : Bytes) : RelayNet :=
  match s.channel with
  | none => s
  | some p =>
    if s.client.closed || s.client.destroyed then s
    else { s with net := netStep s.net (.open .a p handshake) }

/-- `BlindRelayClient::pair`: the request is registered before the message is sent. -/
def pair (s : RelayNet) (isInitiator : Bool) (token : Token) (localStreamId : UInt32) (place : ℕ) :
    RelayNet :=
  match s.channel with
  | none => s
  | some p =>
    if s.client.accepts token then
      { s with
        client := s.client.register isInitiator token localStreamId place
        net := netStep s.net (.send .a p pairType
          (encodePair (s.client.newRequest isInitiator token localStreamId).message)) }
    else s

/-- `BlindRelayClient::unpair`. -/
def unpair (s : RelayNet) (token : Token) : RelayNet :=
  match s.channel with
  | none => s
  | some p =>
    { s with
      client := s.client.unregister token
      net := if s.client.destroyed then s.net
        else netStep s.net (.send .a p unpairType (encodeUnpair { token := token })) }

end RelayNet

/-- The network with a client takes a step. -/
def relayStep (s : RelayNet) : RelayInput → RelayNet
  | .mux i => s.onMux i
  | .attach channelId => s.attach channelId
  | .open handshake => s.openClient handshake
  | .pair isInitiator token localStreamId place => s.pair isInitiator token localStreamId place
  | .unpair token => s.unpair token

/-! ## What arrives -/

/-- The Pair messages that the delivery of one, sent on `p`, has dispatched on `q`. -/
def pairsFrom (p q : Ptr) (delivery : Delivery) : List PairMessage :=
  match delivery.origin with
  | .open _ => []
  | .message p' type _ =>
    if p' = p ∧ type = pairType.toUInt32 then
      (delivery.dispatches.filter fun d => d.channel = q ∧ d.type = pairType.toUInt32).map
        fun d => decodePair d.data
    else []

/-- **No request is lost**: when all frames of the client's side have arrived, the relay session on the
channel that the client's is paired with has been given the Pair messages of the accepted requests, one
each and in their order. -/
def PairsArrive (s : RelayNet) : Prop :=
  ∀ c d, s.channel = some c.ptr → Paired s.net.mux .a c d → s.net.link .a = [] →
    (s.net.delivered .a).flatMap (pairsFrom c.ptr d.ptr) = s.client.accepted.map (·.message)

/-- The channel of the client is open, under the same id at both ends. -/
def RelayNet.OpenedAlike (s : RelayNet) : Prop :=
  ∃ c ∈ (s.net.mux .a).channels, s.channel = some c.ptr ∧ c.opened = true ∧ c.localId = c.remoteId

instance (s : RelayNet) : Decidable s.OpenedAlike :=
  inferInstanceAs (Decidable (∃ c ∈ (s.net.mux .a).channels, s.channel = some c.ptr ∧
    c.opened = true ∧ c.localId = c.remoteId))

/-- A call of `pair` that is accepted finds the channel open, under the same id at both ends, and no channel
is created after the local ids have wrapped around. -/
def PairsWhenOpen (s : RelayNet) : RelayInput → Prop
  | .mux i => NoWrap s.net i
  | .attach _ => (s.net.mux .a).nextLocalId ≠ 0
  | .pair _ token _ _ => s.client.accepts token = true → s.OpenedAlike
  | .open _ => True
  | .unpair _ => True

instance (s : RelayNet) : (i : RelayInput) → Decidable (PairsWhenOpen s i)
  | .mux i => inferInstanceAs (Decidable (NoWrap s.net i))
  | .attach _ => inferInstanceAs (Decidable ((s.net.mux .a).nextLocalId ≠ 0))
  | .pair _ token _ _ => inferInstanceAs (Decidable (s.client.accepts token = true → s.OpenedAlike))
  | .open _ => .isTrue trivial
  | .unpair _ => .isTrue trivial

/-! ## The invariant -/

/-- The Pair messages sent on a channel among some origins, in order. -/
def pairsOn (p : Ptr) (origins : List Origin) : List PairMessage :=
  origins.filterMap fun
    | .message q type data =>
      if q = p ∧ type = pairType.toUInt32 then some (decodePair data) else none
    | .open _ => none

lemma pairsOn_append (p : Ptr) (l l' : List Origin) :
    pairsOn p (l ++ l') = pairsOn p l ++ pairsOn p l' := List.filterMap_append

@[simp] lemma pairsOn_open (p : Ptr) (r : UInt32) : pairsOn p [.open r] = [] := rfl

lemma pairsOn_message (p q : Ptr) (type : UInt32) (data : List UInt8) :
    pairsOn p [.message q type data] =
      if q = p ∧ type = pairType.toUInt32 then [decodePair data] else [] := by
  simp only [pairsOn, List.filterMap_cons, List.filterMap_nil]
  split_ifs <;> rfl

lemma pairsFrom_message (p q p' : Ptr) (type : UInt32) (data : List UInt8)
    (dispatches : List Dispatch) :
    pairsFrom p q ⟨.message p' type data, dispatches⟩ =
      if p' = p ∧ type = pairType.toUInt32 then
        (dispatches.filter fun d => d.channel = q ∧ d.type = pairType.toUInt32).map
          fun d => decodePair d.data
      else [] := rfl

lemma pairsFrom_of_routedTo {p q : Ptr} {delivery : Delivery} (h : RoutedTo p q delivery) :
    pairsFrom p q delivery = pairsOn p [delivery.origin] := by
  obtain ⟨origin, dispatches⟩ := delivery
  cases origin with
  | «open» => rfl
  | message p' type data =>
    rw [pairsOn_message, pairsFrom_message]
    split_ifs with hpair
    · obtain ⟨rfl, rfl⟩ := hpair
      obtain rfl : dispatches = [⟨q, _, data⟩] := h rfl
      simp
    · rfl

lemma flatMap_pairsFrom {p q : Ptr} {deliveries : List Delivery}
    (h : ∀ delivery ∈ deliveries, RoutedTo p q delivery) :
    deliveries.flatMap (pairsFrom p q) = pairsOn p (deliveries.map (·.origin)) := by
  induction deliveries with
  | nil => rfl
  | cons delivery rest ih =>
    rw [List.flatMap_cons, List.map_cons, ← List.singleton_append, pairsOn_append,
      pairsFrom_of_routedTo (h delivery (List.mem_cons_self ..)),
      ih fun d hd => h d (List.mem_cons_of_mem _ hd)]

lemma flatMap_pairsFrom_eq_nil {p q : Ptr} {deliveries : List Delivery}
    (h : pairsOn p (deliveries.map (·.origin)) = []) :
    deliveries.flatMap (pairsFrom p q) = [] := by
  induction deliveries with
  | nil => rfl
  | cons delivery rest ih =>
    rw [List.map_cons, ← List.singleton_append, pairsOn_append, List.append_eq_nil_iff] at h
    rw [List.flatMap_cons, ih h.2, List.append_nil]
    obtain ⟨origin, dispatches⟩ := delivery
    cases origin with
    | «open» => rfl
    | message p' type data =>
      rw [pairsOn_message] at h
      rw [pairsFrom_message]
      split_ifs at h ⊢ with hpair
      · cases h.1
      · rfl

/-- What the client has registered it has sent, on a channel with the same id at both ends. -/
structure Sent (s : RelayNet) : Prop where
  tracked : Tracked s.net
  /-- Before there is a channel, nothing is accepted. -/
  unattached : s.channel = none → s.client.accepted = []
  pairs : ∀ p, s.channel = some p → pairsOn p (s.net.history .a) = s.client.accepted.map (·.message)
  alike : s.client.accepted ≠ [] → s.OpenedAlike

/-- **The invariant is enough**: what was sent has been dispatched when nothing is on its way. -/
lemma Sent.pairsArrive {s : RelayNet} (h : Sent s) : PairsArrive s := by
  intro c d hchannel hp hlink
  have hhistory : s.net.history .a = (s.net.delivered .a).map (·.origin) := by
    simpa [hlink] using h.tracked.wf.fifo .a
  have hpairs := h.pairs c.ptr hchannel
  rw [hhistory] at hpairs
  by_cases hnone : s.client.accepted = []
  · rw [hnone, List.map_nil] at hpairs ⊢
    exact flatMap_pairsFrom_eq_nil hpairs
  · obtain ⟨e, he, hptr, -, hid⟩ := h.alike hnone
    obtain rfl := (h.tracked.wf.ready .a).wf.eq_of_ptr he hp.left
      (Option.some.inj (hptr.symm.trans hchannel))
    rw [flatMap_pairsFrom (h.tracked.routed .a e d hp hid), hpairs]

lemma sent_init : Sent {} where
  tracked := tracked_init
  unattached _ := rfl
  pairs := by simp
  alike h := absurd rfl h

lemma RelayNet.OpenedAlike.step {s : RelayNet} (h : s.net.Wf) (hopened : s.OpenedAlike) (i : Input)
    (client : RelayClient) :
    RelayNet.OpenedAlike ⟨netStep s.net i, s.channel, client⟩ := by
  obtain ⟨c, hc, hchannel, ho, hid⟩ := hopened
  obtain ⟨c', hc', hptr, hid', -, -, hkept⟩ := kept_step h i .a c hc
  obtain ⟨ho', hremote⟩ := hkept ho
  exact ⟨c', hc', by rw [hptr]; exact hchannel, ho', by rw [hid', hid, hremote]⟩

lemma pairsOn_step {n : Net} (h : n.Wf) {p : Ptr} {i : Input}
    (hsend : ∀ messageType data, i = .send .a p messageType data →
      messageType.toUInt32 ≠ pairType.toUInt32) :
    pairsOn p ((netStep n i).history .a) = pairsOn p (n.history .a) := by
  rcases history_step h i .a with heq | ⟨r, heq⟩ | ⟨c, -, -, messageType, data, rfl, heq⟩ <;> rw [heq]
  · rw [pairsOn_append, pairsOn_open, List.append_nil]
  · rw [pairsOn_append, pairsOn_message, if_neg, List.append_nil]
    rintro ⟨rfl, htype⟩
    exact hsend messageType data rfl htype

lemma Sent.net_step {s : RelayNet} (h : Sent s) {i : Input} (hwrap : NoWrap s.net i)
    (hsend : ∀ p messageType data, s.channel = some p → i = .send .a p messageType data →
      messageType.toUInt32 ≠ pairType.toUInt32) {client : RelayClient}
    (haccepted : client.accepted = s.client.accepted) :
    Sent ⟨netStep s.net i, s.channel, client⟩ where
  tracked := tracked_step s.net i h.tracked hwrap
  unattached hnone := haccepted.trans (h.unattached hnone)
  pairs p hp := by
    show pairsOn p ((netStep s.net i).history .a) = client.accepted.map (·.message)
    rw [haccepted, ← h.pairs p hp]
    exact pairsOn_step h.tracked.wf fun messageType data => hsend p messageType data hp
  alike hne := (h.alike (haccepted ▸ hne)).step h.tracked.wf i client

lemma RelayClient.handle_accepted (c : RelayClient) (p : Ptr) (dispatch : Dispatch) :
    (c.handle p dispatch).accepted = c.accepted := by
  simp only [handle]
  split_ifs
  · rfl
  · cases c.onPairResponse dispatch.data <;> rfl
  · cases c.onUnpairResponse dispatch.data <;> rfl
  · rfl

lemma RelayClient.foldl_handle_accepted (p : Ptr) (dispatches : List Dispatch) (c : RelayClient) :
    (dispatches.foldl (fun c d => c.handle p d) c).accepted = c.accepted := by
  induction dispatches generalizing c with
  | nil => rfl
  | cons d rest ih => exact (ih _).trans (c.handle_accepted p d)

lemma Sent.onMux {s : RelayNet} (h : Sent s) {i : Input} (hwrap : NoWrap s.net i) :
    Sent (s.onMux i) := by
  cases hchannel : s.channel with
  | none =>
    have hkept : Sent ⟨netStep s.net i, s.channel, s.client⟩ :=
      h.net_step hwrap (by simp [hchannel]) rfl
    simpa only [RelayNet.onMux, hchannel] using hkept
  | some p =>
    simp only [RelayNet.onMux, hchannel]
    split_ifs with htouches
    · exact h
    · rw [← hchannel]
      refine h.net_step hwrap (fun q messageType data hq hi => ?_)
        (RelayClient.foldl_handle_accepted p _ s.client)
      -- the other inputs do not send on the channel of the client
      obtain rfl := Option.some.inj (hchannel.symm.trans hq)
      exact absurd (hi ▸ rfl) htouches

lemma Sent.attach {s : RelayNet} (h : Sent s) (hwrap : (s.net.mux .a).nextLocalId ≠ 0)
    (channelId : Bytes) : Sent (s.attach channelId) := by
  cases hchannel : s.channel with
  | some p => simpa [RelayNet.attach, hchannel] using h
  | none =>
    have haccepted := h.unattached hchannel
    have htracked : Tracked (netStep s.net (.create .a protocolName [] channelId false)) :=
      tracked_step s.net _ h.tracked hwrap
    have hnew : ((s.net.mux .a).createChannel protocolName [] channelId false).2 =
        some (s.net.mux .a).nextPtr := by
      simp [Mux.createChannel, (h.tracked.wf.ready .a).live]
    simp only [RelayNet.attach, hchannel, Option.isSome_none, Bool.false_eq_true, if_false, hnew]
    refine ⟨htracked, fun _ => haccepted, fun p hp => ?_, fun hne => absurd haccepted hne⟩
    obtain rfl : (s.net.mux .a).nextPtr = p := Option.some.inj hp
    show pairsOn _ (s.net.history .a) = s.client.accepted.map (·.message)
    rw [haccepted, List.map_nil, pairsOn, List.filterMap_eq_nil_iff]
    rintro (r | ⟨q, type, data⟩) hin
    · rfl
    · -- what was sent was sent on an older channel
      obtain ⟨c, hc, rfl, -⟩ := h.tracked.opened .a q type data hin
      have hlt := (h.tracked.wf.ready .a).wf.ptr_lt c hc
      exact if_neg fun heq => Nat.ne_of_lt hlt heq.1

lemma Sent.pair {s : RelayNet} (h : Sent s) {token : Token}
    (hopened : s.client.accepts token = true → s.OpenedAlike) (isInitiator : Bool)
    (localStreamId : UInt32) (place : ℕ) : Sent (s.pair isInitiator token localStreamId place) := by
  cases hchannel : s.channel with
  | none => simpa [RelayNet.pair, hchannel] using h
  | some p =>
    simp only [RelayNet.pair, hchannel]
    split_ifs with haccepts
    · have halike := hopened haccepts
      obtain ⟨c, hc, hptr, ho, -⟩ := halike
      obtain rfl : c.ptr = p := Option.some.inj (hptr.symm.trans hchannel)
      -- the channel is open, so the message is written
      have hhistory := Net.history_send_of_opened (h.tracked.wf.ready .a) hc ho pairType
        (encodePair (s.client.newRequest isInitiator token localStreamId).message)
      have htracked := tracked_step s.net (.send .a c.ptr pairType
        (encodePair (s.client.newRequest isInitiator token localStreamId).message)) h.tracked trivial
      rw [← hchannel]
      refine ⟨htracked, fun hnone => ?_, fun p hp => ?_,
        fun _ => (hopened haccepts).step h.tracked.wf _ _⟩
      · rw [hnone] at hchannel
        cases hchannel
      · obtain rfl : c.ptr = p := Option.some.inj (hptr.symm.trans hp)
        refine (congrArg (pairsOn c.ptr) hhistory).trans ?_
        rw [pairsOn_append, h.pairs c.ptr hptr, pairsOn_message, if_pos ⟨rfl, rfl⟩,
          decodePair_encodePair, RelayClient.register, List.map_append]
        rfl
    · exact h

lemma sent_step (s : RelayNet) (i : RelayInput) (h : Sent s) (hi : PairsWhenOpen s i) :
    Sent (relayStep s i) := by
  cases i with
  | mux i => exact h.onMux hi
  | attach channelId => exact h.attach hi channelId
  | «open» handshake =>
    cases hchannel : s.channel with
    | none => simpa [relayStep, RelayNet.openClient, hchannel] using h
    | some p =>
      simp only [relayStep, RelayNet.openClient, hchannel]
      split_ifs
      · exact h
      · have hwrap : NoWrap s.net (.open .a p handshake) := trivial
        rw [← hchannel]
        exact h.net_step hwrap (by simp) rfl
  | pair isInitiator token localStreamId place => exact h.pair hi isInitiator localStreamId place
  | unpair token =>
    cases hchannel : s.channel with
    | none => simpa [relayStep, RelayNet.unpair, hchannel] using h
    | some p =>
      simp only [relayStep, RelayNet.unpair, hchannel]
      rw [← hchannel]
      split_ifs
      · exact ⟨h.tracked, h.unattached, h.pairs, h.alike⟩
      · have hwrap : NoWrap s.net (.send .a p unpairType (encodeUnpair { token := token })) := trivial
        refine h.net_step hwrap (fun q messageType data _ hi => ?_) rfl
        obtain ⟨-, -, rfl, -⟩ := Input.send.inj hi
        decide

/-- **A Pair request that finds the channel open is never dropped**: in every run of two muxes over FIFO links
with a client on one of them in which every accepted `pair` finds the channel of the client open, under the same
id at both ends, and no channel is created after the local ids have wrapped around, every accepted request has
been dispatched to the relay session, once and as it was made, in every state in which the frames of the client's
side have all arrived. -/
theorem pairsArrive_of_pairsWhenOpen (is : List RelayInput)
    (h : Runs.EveryStep relayStep PairsWhenOpen {} is) :
    Runs.EveryState relayStep PairsArrive {} is :=
  (Runs.everyState_of_everyStep sent_step sent_init h).mono fun _ hs => hs.pairsArrive

/-! ## Two runs -/

def openRun : List RelayInput := [.attach noBytes, .open noBytes]

def acceptRun : List RelayInput :=
  [.mux (.create .b protocolName [] noBytes false), .mux (.open .b 0 noBytes), .mux (.deliver .a),
    .mux (.deliver .b)]

/-- A call of `pair` once the channels are open. -/
def pairWhenOpenRun : List RelayInput :=
  openRun ++ acceptRun ++ [.pair true zeroToken 7 0, .mux (.deliver .a)]

/-- A call of `pair` right after `open`. -/
def pairAtOnceRun : List RelayInput := openRun ++ [.pair true zeroToken 7 0] ++ acceptRun

/-- A request that is made once the channels are open arrives. -/
theorem pairsArrive_pairWhenOpenRun : Runs.EveryState relayStep PairsArrive {} pairWhenOpenRun :=
  pairsArrive_of_pairsWhenOpen pairWhenOpenRun (by decide +kernel)

/-- A request that is made right after `open` never arrives, though both channels are open in the end. -/
theorem not_pairsArrive_pairAtOnceRun :
    ¬ Runs.EveryState relayStep PairsArrive {} pairAtOnceRun := by
  intro hall
  have hmiss : ∃ c ∈ ((Runs.run relayStep {} pairAtOnceRun).net.mux .a).channels,
      ∃ d ∈ ((Runs.run relayStep {} pairAtOnceRun).net.mux .b).channels,
        (Runs.run relayStep {} pairAtOnceRun).channel = some c.ptr ∧
        c.remoteId = d.localId ∧ d.remoteId = c.localId ∧
        ((Runs.run relayStep {} pairAtOnceRun).net.link .a).length = 0 ∧
        ((Runs.run relayStep {} pairAtOnceRun).net.delivered .a).flatMap (pairsFrom c.ptr d.ptr) ≠
          (Runs.run relayStep {} pairAtOnceRun).client.accepted.map (·.message) := by
    decide +kernel
  obtain ⟨c, hc, d, hd, hchannel, hcd, hdc, hlink, hne⟩ := hmiss
  exact hne (hall.run c d hchannel ⟨hc, hd, hcd, hdc⟩ (List.eq_nil_of_length_eq_zero hlink))

end HyperDHT.BlindRelay
