import Mathlib.Data.List.GetD
import HyperDHT.Lib.WrapCounter
import HyperDHT.SecretStream.Delivery

/-!
# Unordered messages

Besides the stream of frames, the two ends of a connection send single datagrams (`send_udp`,
`secret_stream.cpp`). Each one is boxed under a key of its direction, which is derived from the hash of the
handshake, with a nonce that holds a counter of 8 bytes. The counter starts at a random value; when it is
there again, the stream is destroyed.

## Main definitions

* `SecretStream.SendSodium` — the functions of libsodium, with those for boxes.
* `SecretStream.SendDuplex` — the class `SecretStreamDuplex` with the state for unordered messages, and its
  methods `setupSecretSend`, `boxMessage`, `unboxMessage`, `sendUdp`, `trySendUdp`.
* `SecretStream.SendDuplex.step`, `SecretStream.sendPairStep` — an end, and two ends, as machines.
* `SecretStream.NoncesFresh` — no nonce is used twice under a key, and what the keys are.
* `SecretStream.Counted` — the nonces used so far are the values of the counter.
* `SecretStream.Exchanged` — what a step of two ends does with datagrams.

## Main results

* `SecretStream.SendDuplex.unboxMessage_boxMessage` — the other end opens what one end has boxed.
* `SecretStream.Counted.step` — every input keeps the count.
* `SecretStream.noncesFresh_run` — nonces are fresh after every run of the two ends.
* `SecretStream.exchanged_run` — what is sent arrives as it was sent, or not at all.

## Design

The calls of `crypto_secretbox_easy` are collected in `boxed`, the envelopes given to `udx_stream_send` in
`envelopes`, and the calls of `on_udp_message` in `udpMessages`.
-/

set_option autoImplicit false

namespace HyperDHT.SecretStream

open LittleEndian
open Protomux (Side)

/-! ## Boxes -/

/-- The counter of the nonces. -/
abbrev Counter := List.Vector UInt8 8
/-- A nonce of a box. -/
abbrev Nonce := List.Vector UInt8 24

/-- `crypto_secretbox_MACBYTES`. -/
def macBytes : ℕ := 16

/-- The functions of libsodium, with those for unordered messages. -/
structure SendSodium extends Sodium where
  /-- `sodium_increment` of 8 bytes. -/
  increment : Counter → Counter
  ofLe_increment : ∀ n, ofLe (increment n).toList = (ofLe n.toList + 1) % 2 ^ 64
  /-- `crypto_secretbox_easy`; nothing where it fails. -/
  secretboxEasy : Key → Nonce → List UInt8 → Option (List UInt8)
  /-- `crypto_secretbox_open_easy`; nothing where the box is not authentic. -/
  secretboxOpenEasy : Key → Nonce → List UInt8 → Option (List UInt8)
  length_easy : ∀ {key nonce data box}, secretboxEasy key nonce data = some box →
    box.length = data.length + macBytes
  open_easy : ∀ {key nonce data box}, secretboxEasy key nonce data = some box →
    secretboxOpenEasy key nonce box = some data

/-- `NS_SEND`. -/
def nsSend : List UInt8 :=
  [0xaa, 0xb9, 0x7d, 0x09, 0x74, 0x71, 0xf5, 0x66, 0x51, 0xb0, 0x46, 0x0f, 0xfc, 0x8a, 0xaa, 0x7d,
    0x33, 0x42, 0xf7, 0x37, 0x75, 0x97, 0xd6, 0x0b, 0x92, 0x5a, 0x1d, 0xac, 0x68, 0x9a, 0xdc, 0xbf]

/-- The nonce of a counter: its bytes, and zeros. -/
def nonceOf (counter : Counter) : Nonce :=
  ⟨counter.toList ++ List.replicate 16 0, by simp⟩

/-- A call of `crypto_secretbox_easy`. -/
structure Boxed where
  key : Key
  nonce : Nonce
  data : List UInt8

/-! ## The class `SecretStreamDuplex` -/

/-- The class `SecretStreamDuplex` with its state for unordered messages. -/
structure SendDuplex extends Duplex where
  sendStateReady : Bool := false
  secretboxTxKey : Key := List.Vector.replicate 32 0
  secretboxRxKey : Key := List.Vector.replicate 32 0
  nonceCounter : Counter := List.Vector.replicate 8 0
  nonceInitial : Counter := List.Vector.replicate 8 0
  boxed : List Boxed := []
  envelopes : List (List UInt8) := []
  udpMessages : List (List UInt8) := []

/-- What can happen to a duplex: the inputs of its stream, the calls for unordered messages, where `rc` is
what `udx_stream_send` returns, and a datagram from the raw stream. -/
inductive SendInput where
  | stream (i : Input)
  | sendUdp (data : List UInt8) (rc : Int)
  | trySendUdp (data : List UInt8) (rc : Int)
  | recvMessage (buf : List UInt8)

namespace SendDuplex

section Methods

variable (L : SendSodium)

/-- `setup_secret_send`, where `randombytes_buf` draws `random`. -/
def setupSecretSend (d : SendDuplex) (hs : DuplexHandshake) (random : Counter) : SendDuplex :=
  let first := if hs.isInitiator then nsInitiator else nsResponder
  let second := if hs.isInitiator then nsResponder else nsInitiator
  { d with
    secretboxTxKey := L.generichash (first ++ nsSend) hs.handshakeHash.toList
    secretboxRxKey := L.generichash (second ++ nsSend) hs.handshakeHash.toList
    nonceInitial := random
    nonceCounter := random
    sendStateReady := true }

/-- The constructor. -/
def new (hs : DuplexHandshake) (header : Header) (keepAliveMs : UInt64) (enableSend : Bool)
    (random : Counter) : SendDuplex :=
  let d : SendDuplex := { toDuplex := Duplex.new L.toSodium hs header keepAliveMs }
  if enableSend then d.setupSecretSend L hs random else d

def destroy (d : SendDuplex) (error : Int) : SendDuplex :=
  { d with toDuplex := d.toDuplex.destroy error }

/-- `box_message`, with the envelope, which is empty where there is none. -/
def boxMessage (d : SendDuplex) (data : List UInt8) : SendDuplex × List UInt8 :=
  let d := { d with nonceCounter := L.increment d.nonceCounter }
  if d.nonceCounter = d.nonceInitial then (d.destroy (-7), [])
  else
    let nonce := nonceOf d.nonceCounter
    let box := L.secretboxEasy d.secretboxTxKey nonce data
    let d := { d with boxed := d.boxed ++ [⟨d.secretboxTxKey, nonce, data⟩] }
    match box with
    | none => (d, [])
    | some box => (d, d.nonceCounter.toList ++ box)

/-- `unbox_message`. -/
def unboxMessage (d : SendDuplex) (data : List UInt8) : Option (List UInt8) :=
  if data.length < 8 + macBytes then none
  else
    L.secretboxOpenEasy d.secretboxRxKey (nonceOf (List.Vector.ofFn fun i => data.getD i 0)) (data.drop 8)

/-- `send_udp`, with the value it returns. -/
def sendUdp (d : SendDuplex) (data : List UInt8) (rc : Int) : SendDuplex × Int :=
  if d.destroyed ∨ d.sendStateReady = false then (d, -1)
  else
    let (d, env) := d.boxMessage L data
    if env = [] then (d, -2)
    else
      let d := { d with envelopes := d.envelopes ++ [env] }
      if rc < 0 then (d, rc) else (d, 0)

/-- `try_send_udp`. -/
def trySendUdp (d : SendDuplex) (data : List UInt8) (rc : Int) : SendDuplex × Int :=
  d.sendUdp L data rc

/-- `on_udx_recv_message`. -/
def onUdxRecvMessage (d : SendDuplex) (buf : List UInt8) : SendDuplex :=
  if d.sendStateReady = false then d
  else if buf = [] then d
  else
    match d.unboxMessage L buf with
    | none => d
    | some plain => { d with udpMessages := d.udpMessages ++ [plain] }

/-- A duplex takes an input, where `peer` is the push state of the other end. -/
def step (peer : PushState) (d : SendDuplex) : SendInput → SendDuplex
  | .stream i => { d with toDuplex := d.toDuplex.step L.toSodium peer i }
  | .sendUdp data rc => (d.sendUdp L data rc).1
  | .trySendUdp data rc => (d.trySendUdp L data rc).1
  | .recvMessage buf => if d.started then d.onUdxRecvMessage L buf else d

end Methods

end SendDuplex

/-! ## Two ends -/

/-- What the constructors of the two ends are given, with what they draw for their counters. -/
structure SendEnds extends Ends where
  enableSend : Side → Bool
  random : Side → Counter

/-- The two ends before anything happens. -/
def sendPairInit (L : SendSodium) (ends : SendEnds) (s : Side) : SendDuplex :=
  .new L (ends.handshake s) (ends.header s) (ends.keepAliveMs s) (ends.enableSend s) (ends.random s)

/-- An input of one side. -/
def sendPairStep (L : SendSodium) (p : Side → SendDuplex) (e : Side × SendInput) : Side → SendDuplex :=
  Function.update p e.1 ((p e.1).step L (p e.1.other).crypto.push e.2)

/-! ## The specification -/

/-- No nonce is used twice under a key, and what the keys of the two ends are. -/
structure NoncesFresh (L : SendSodium) (ends : SendEnds) (p : Side → SendDuplex) : Prop where
  /-- An end boxes under its own key. -/
  key : ∀ s, ∀ b ∈ (p s).boxed, b.key = (p s).secretboxTxKey
  /-- No two boxes of an end have the same nonce. -/
  fresh : ∀ s, ((p s).boxed.map Boxed.nonce).Nodup
  /-- As long as there are counters, a message is boxed. -/
  available : ∀ s, (p s).boxed.length + 1 < 2 ^ 64 → (p s).sendStateReady = true →
    (p s).destroyed = false → ∀ data rc, ∃ nonce,
      ((p s).sendUdp L data rc).1.boxed = (p s).boxed ++ [⟨(p s).secretboxTxKey, nonce, data⟩]
  /-- When they are used up, the next call destroys the stream and boxes nothing. -/
  exhausted : ∀ s, (p s).boxed.length + 1 = 2 ^ 64 → ∀ data rc,
    ((p s).sendUdp L data rc).1.destroyed = true ∧ ((p s).sendUdp L data rc).1.boxed = (p s).boxed
  /-- A destroyed stream boxes nothing more, whatever happens. -/
  stopped : ∀ s, (p s).destroyed = true → ∀ more,
    (Runs.run (sendPairStep L) p more s).boxed = (p s).boxed
  /-- The ends of one handshake derive the keys of each other. -/
  crosswise : ends.Agree → ∀ s, (p s).sendStateReady = true → (p s.other).sendStateReady = true →
    (p s).secretboxTxKey = (p s.other).secretboxRxKey
  /-- If BLAKE2b does not collide on its two inputs, the two directions have different keys. -/
  directions : ∀ s,
    Set.InjOn (fun input => L.generichash input (ends.handshake s).handshakeHash.toList)
      {nsInitiator ++ nsSend, nsResponder ++ nsSend} →
    (p s).sendStateReady = true → (p s).secretboxTxKey ≠ (p s).secretboxRxKey
  /-- Then no two boxes at all have the same key and the same nonce. -/
  apart : ends.Agree →
    (∀ s, Set.InjOn (fun input => L.generichash input (ends.handshake s).handshakeHash.toList)
      {nsInitiator ++ nsSend, nsResponder ++ nsSend}) →
    (((p .a).boxed ++ (p .b).boxed).map fun b => (b.key, b.nonce)).Nodup

/-! ## What the methods do -/

variable {L : SendSodium} {peer : PushState}

/-- The value of a counter. -/
def Counter.value (n : Counter) : ℕ := ofLe n.toList

lemma Counter.value_lt (n : Counter) : n.value < 2 ^ 64 := by
  have h := ofLe_lt n.toList
  rwa [List.Vector.toList_length] at h

lemma Counter.value_injective : Function.Injective Counter.value := by
  intro m n h
  refine List.Vector.eq _ _ ?_
  have hm := toLe_ofLe m.toList
  have hn := toLe_ofLe n.toList
  rw [List.Vector.toList_length] at hm hn
  rw [← hm, ← hn]
  exact congrArg (toLe 8) h

/-- The value of the counter in a nonce. -/
def Nonce.value (n : Nonce) : ℕ := ofLe (n.toList.take 8)

lemma value_nonceOf (n : Counter) : (nonceOf n).value = n.value := by
  have htake : (n.toList ++ List.replicate 16 0).take 8 = n.toList := by
    rw [List.take_append_of_le_length (by simp), List.take_of_length_le (by simp)]
  exact congrArg ofLe htake

namespace SendDuplex

lemma boxMessage_cases (d : SendDuplex) (data : List UInt8) :
    (L.increment d.nonceCounter = d.nonceInitial ∧
        d.boxMessage L data =
          ({ d with nonceCounter := L.increment d.nonceCounter }.destroy (-7), [])) ∨
      (L.increment d.nonceCounter ≠ d.nonceInitial ∧
        (d.boxMessage L data).1 =
          { d with
            nonceCounter := L.increment d.nonceCounter
            boxed := d.boxed ++ [⟨d.secretboxTxKey, nonceOf (L.increment d.nonceCounter), data⟩] }) := by
  by_cases hwrap : L.increment d.nonceCounter = d.nonceInitial
  case pos => exact .inl ⟨hwrap, if_pos hwrap⟩
  case neg =>
    refine .inr ⟨hwrap, ?_⟩
    rw [boxMessage]
    simp only [if_neg hwrap]
    split <;> rfl

lemma sendUdp_cases (d : SendDuplex) (data : List UInt8) (rc : Int) :
    ((d.destroyed = true ∨ d.sendStateReady = false) ∧ (d.sendUdp L data rc).1 = d) ∨
      (d.destroyed = false ∧ d.sendStateReady = true ∧
        L.increment d.nonceCounter = d.nonceInitial ∧
        (d.sendUdp L data rc).1 = { d with nonceCounter := L.increment d.nonceCounter }.destroy (-7)) ∨
      (d.destroyed = false ∧ d.sendStateReady = true ∧
        L.increment d.nonceCounter ≠ d.nonceInitial ∧ ∃ envelopes, (d.sendUdp L data rc).1 =
          { d with
            nonceCounter := L.increment d.nonceCounter
            boxed := d.boxed ++ [⟨d.secretboxTxKey, nonceOf (L.increment d.nonceCounter), data⟩]
            envelopes := envelopes }) := by
  by_cases hidle : d.destroyed = true ∨ d.sendStateReady = false
  case pos => exact .inl ⟨hidle, by rw [sendUdp, if_pos hidle]⟩
  case neg =>
    obtain ⟨hlive, hready⟩ : d.destroyed = false ∧ d.sendStateReady = true := by simpa using hidle
    rw [sendUdp, if_neg hidle]
    refine .inr ?_
    rcases boxMessage_cases (L := L) d data with ⟨hwrap, hbox⟩ | ⟨hwrap, hbox⟩
    · exact .inl ⟨hlive, hready, hwrap, by rw [hbox]; rfl⟩
    · refine .inr ⟨hlive, hready, hwrap, ?_⟩
      rcases hresult : d.boxMessage L data with ⟨d', env⟩
      rw [hresult] at hbox
      obtain rfl := hbox
      by_cases henv : env = []
      case pos => exact ⟨d.envelopes, by simp [henv]⟩
      case neg =>
        refine ⟨d.envelopes ++ [env], ?_⟩
        by_cases hrc : rc < 0 <;> simp [henv, hrc]

lemma onUdxRecvMessage_cases (d : SendDuplex) (buf : List UInt8) :
    ∃ received, d.onUdxRecvMessage L buf = { d with udpMessages := received } := by
  unfold onUdxRecvMessage
  split_ifs
  · exact ⟨d.udpMessages, rfl⟩
  · exact ⟨d.udpMessages, rfl⟩
  · split
    · exact ⟨d.udpMessages, rfl⟩
    · exact ⟨_, rfl⟩

/-- **The other end opens what one end has boxed.** -/
theorem unboxMessage_boxMessage {d e : SendDuplex} (hkey : e.secretboxRxKey = d.secretboxTxKey)
    {data : List UInt8} {d' : SendDuplex} {env : List UInt8} (h : d.boxMessage L data = (d', env))
    (hne : env ≠ []) : e.unboxMessage L env = some data := by
  rw [boxMessage] at h
  simp only at h
  split at h
  case isTrue => exact absurd (Prod.mk.inj h).2.symm hne
  case isFalse =>
    split at h
    · exact absurd (Prod.mk.inj h).2.symm hne
    · rename_i box hbox
      generalize L.increment d.nonceCounter = counter at h hbox
      obtain rfl := (Prod.mk.inj h).2
      have hlength := L.length_easy hbox
      have hcounter : counter.toList.length = 8 := counter.toList_length
      have hnonce : List.Vector.ofFn (fun i : Fin 8 => (counter.toList ++ box).getD i 0) = counter := by
        refine List.Vector.ext fun i => ?_
        rw [List.Vector.get_ofFn, List.getD_append _ _ _ _ (by omega), List.Vector.get_eq_get_toList]
        exact List.getD_eq_getElem _ _ _
      rw [unboxMessage, if_neg (by rw [List.length_append]; omega), hnonce, hkey,
        List.drop_left' hcounter]
      exact L.open_easy hbox

end SendDuplex

lemma Duplex.destroyed_step {L : Sodium} {d : Duplex} (h : d.destroyed = true) (i : Input) :
    (d.step L peer i).destroyed = true := by
  cases i with
  | start => simp [Duplex.step, Duplex.start, h]
  | headerAck status =>
    simp only [Duplex.step, Duplex.headerAck]
    split_ifs
    · rw [Duplex.maybeFireConnect_destroyed]
      exact h
    · exact Duplex.destroy_destroyed d status
    · exact h
  | read data =>
    simp only [Duplex.step, Duplex.processIncomingBytes]
    split_ifs
    · exact h
    · rw [Duplex.drain_destroyed (show (d.buffer _).destroyed = true from h)]
      exact h
  | write data => simp [Duplex.step, Duplex.write, h]
  | keepAlive => simp [Duplex.step, Duplex.writes, h]
  | «end» => simp [Duplex.step, h]
  | destroy error => exact Duplex.destroy_destroyed d error

/-! ## What an end keeps -/

/-- What stays the same over the life of an end. -/
structure SameSend (d d' : SendDuplex) : Prop where
  ready : d'.sendStateReady = d.sendStateReady
  txKey : d'.secretboxTxKey = d.secretboxTxKey
  rxKey : d'.secretboxRxKey = d.secretboxRxKey
  initial : d'.nonceInitial = d.nonceInitial

lemma SameSend.trans {d d' d'' : SendDuplex} (h : SameSend d d') (h' : SameSend d' d'') :
    SameSend d d'' where
  ready := h'.ready.trans h.ready
  txKey := h'.txKey.trans h.txKey
  rxKey := h'.rxKey.trans h.rxKey
  initial := h'.initial.trans h.initial

/-- **The nonces used so far** are the values of the counter, in order. -/
structure Counted (d : SendDuplex) : Prop where
  key : ∀ b ∈ d.boxed, b.key = d.secretboxTxKey
  nonces : d.boxed.map (fun b => b.nonce.value) =
    WrapCounter.values (2 ^ 64) d.nonceInitial.value d.boxed.length
  bound : d.boxed.length < 2 ^ 64
  unready : d.sendStateReady = false → d.boxed = []
  counter : d.destroyed = false →
    d.nonceCounter.value = (d.nonceInitial.value + d.boxed.length) % 2 ^ 64

namespace SendDuplex

/-- What a step does to the state for unordered messages: nothing, unless it uses up the counter or boxes a
message. -/
lemma step_cases (L : SendSodium) (peer : PushState) (d : SendDuplex) (i : SendInput) :
    (∃ stream envelopes received, (d.destroyed = true → stream.destroyed = true) ∧
        d.step L peer i =
          { d with toDuplex := stream, envelopes := envelopes, udpMessages := received }) ∨
      (d.destroyed = false ∧ d.sendStateReady = true ∧
        L.increment d.nonceCounter = d.nonceInitial ∧
        d.step L peer i = { d with nonceCounter := L.increment d.nonceCounter }.destroy (-7)) ∨
      (d.destroyed = false ∧ d.sendStateReady = true ∧
        L.increment d.nonceCounter ≠ d.nonceInitial ∧ ∃ data envelopes, d.step L peer i =
          { d with
            nonceCounter := L.increment d.nonceCounter
            boxed := d.boxed ++ [⟨d.secretboxTxKey, nonceOf (L.increment d.nonceCounter), data⟩]
            envelopes := envelopes }) := by
  have hsend : ∀ data rc, i = .sendUdp data rc ∨ i = .trySendUdp data rc →
      d.step L peer i = (d.sendUdp L data rc).1 := by
    rintro data rc (rfl | rfl) <;> rfl
  cases i with
  | stream i =>
    exact .inl ⟨_, d.envelopes, d.udpMessages, fun h => Duplex.destroyed_step h i, rfl⟩
  | recvMessage buf =>
    rw [step]
    split_ifs
    · obtain ⟨received, heq⟩ := onUdxRecvMessage_cases (L := L) d buf
      exact .inl ⟨d.toDuplex, d.envelopes, received, id, heq⟩
    · exact .inl ⟨d.toDuplex, d.envelopes, d.udpMessages, id, rfl⟩
  | sendUdp data rc | trySendUdp data rc =>
    rw [hsend data rc (by simp)]
    rcases sendUdp_cases (L := L) d data rc with ⟨-, heq⟩ | hwrap | ⟨hlive, hready, hne, envelopes, heq⟩
    · exact .inl ⟨d.toDuplex, d.envelopes, d.udpMessages, id, heq⟩
    · exact .inr (.inl hwrap)
    · exact .inr (.inr ⟨hlive, hready, hne, data, envelopes, heq⟩)

lemma sameSend_step (L : SendSodium) (peer : PushState) (d : SendDuplex) (i : SendInput) :
    SameSend d (d.step L peer i) := by
  rcases step_cases L peer d i with
    ⟨stream, envelopes, received, -, heq⟩ | ⟨-, -, -, heq⟩ | ⟨-, -, -, data, envelopes, heq⟩
  all_goals
    rw [heq]
    constructor <;> rfl

lemma step_of_destroyed (L : SendSodium) (peer : PushState) {d : SendDuplex}
    (h : d.destroyed = true) (i : SendInput) :
    (d.step L peer i).destroyed = true ∧ (d.step L peer i).boxed = d.boxed := by
  rcases step_cases L peer d i with
    ⟨stream, envelopes, received, hdestroyed, heq⟩ | ⟨hlive, -⟩ | ⟨hlive, -⟩
  · rw [heq]
    exact ⟨hdestroyed h, rfl⟩
  · simp [h] at hlive
  · simp [h] at hlive

end SendDuplex

namespace Counted

variable {d : SendDuplex}

lemma value_increment (h : Counted d) (hlive : d.destroyed = false) :
    (L.increment d.nonceCounter).value =
      (d.nonceInitial.value + (d.boxed.length + 1)) % 2 ^ 64 := by
  have hnext : (L.increment d.nonceCounter).value = (d.nonceCounter.value + 1) % 2 ^ 64 :=
    L.ofLe_increment d.nonceCounter
  rw [hnext, h.counter hlive, Nat.mod_add_mod, Nat.add_assoc]

/-- **The wrap test** succeeds exactly when every other counter was used. -/
lemma increment_eq_initial_iff (h : Counted d) (hlive : d.destroyed = false) :
    L.increment d.nonceCounter = d.nonceInitial ↔ d.boxed.length + 1 = 2 ^ 64 := by
  rw [← Counter.value_injective.eq_iff, h.value_increment hlive, ← WrapCounter.wraps_iff h.bound,
    Nat.mod_eq_of_lt d.nonceInitial.value_lt]

/-- **Every input keeps the count.** -/
theorem step (h : Counted d) (i : SendInput) : Counted (d.step L peer i) := by
  rcases SendDuplex.step_cases L peer d i with
    ⟨stream, envelopes, received, hdestroyed, heq⟩ | ⟨-, -, -, heq⟩ |
      ⟨hlive, hready, hne, data, envelopes, heq⟩
  · rw [heq]
    refine ⟨h.key, h.nonces, h.bound, h.unready, fun hlive => h.counter ?_⟩
    exact Bool.eq_false_iff.2 fun hd => by simp [hdestroyed hd] at hlive
  · rw [heq]
    refine ⟨h.key, h.nonces, h.bound, h.unready, fun hlive => ?_⟩
    simp [SendDuplex.destroy] at hlive
  · have hcount := h.value_increment (L := L) hlive
    have hroom : d.boxed.length + 1 ≠ 2 ^ 64 :=
      fun hfull => hne ((h.increment_eq_initial_iff hlive).2 hfull)
    have hbound := h.bound
    rw [heq]
    refine ⟨?_, ?_, ?_, ?_, ?_⟩
    · intro b hb
      rcases List.mem_append.1 hb with hb | hb
      · exact h.key b hb
      · rw [List.mem_singleton.1 hb]
    · simp only [List.map_append, List.map_cons, List.map_nil, List.length_append,
        List.length_singleton]
      rw [h.nonces, WrapCounter.values_succ, value_nonceOf, hcount]
    · simp only [List.length_append, List.length_singleton]
      omega
    · intro hunready
      simp [hready] at hunready
    · intro _
      simp only [List.length_append, List.length_singleton]
      exact hcount

lemma nodup_nonces (h : Counted d) : (d.boxed.map Boxed.nonce).Nodup := by
  have hvalues : ((d.boxed.map Boxed.nonce).map Nonce.value).Nodup := by
    rw [List.map_map]
    exact h.nonces ▸ WrapCounter.nodup_values _ h.bound.le
  exact hvalues.of_map

lemma boxed_sendUdp (h : Counted d) (hroom : d.boxed.length + 1 < 2 ^ 64)
    (hready : d.sendStateReady = true) (hlive : d.destroyed = false) (data : List UInt8) (rc : Int) :
    ∃ nonce, (d.sendUdp L data rc).1.boxed = d.boxed ++ [⟨d.secretboxTxKey, nonce, data⟩] := by
  rcases SendDuplex.sendUdp_cases (L := L) d data rc with
    ⟨hidle, -⟩ | ⟨-, -, hwrap, -⟩ | ⟨-, -, -, envelopes, heq⟩
  · simp [hready, hlive] at hidle
  · exact absurd ((h.increment_eq_initial_iff hlive).1 hwrap) hroom.ne
  · exact ⟨_, by rw [heq]⟩

lemma destroyed_sendUdp (h : Counted d) (hfull : d.boxed.length + 1 = 2 ^ 64) (data : List UInt8)
    (rc : Int) :
    (d.sendUdp L data rc).1.destroyed = true ∧ (d.sendUdp L data rc).1.boxed = d.boxed := by
  rcases SendDuplex.sendUdp_cases (L := L) d data rc with
    ⟨hidle, heq⟩ | ⟨-, -, -, heq⟩ | ⟨hlive, -, hne, -⟩
  · rw [heq]
    refine ⟨hidle.resolve_right fun hunready => ?_, rfl⟩
    -- an end that is not set up has used no counter
    rw [h.unready hunready] at hfull
    simp at hfull
  · rw [heq]
    exact ⟨Duplex.destroy_destroyed _ _, rfl⟩
  · exact absurd ((h.increment_eq_initial_iff hlive).2 hfull) hne

lemma ready (h : Counted d) {b : Boxed} (hb : b ∈ d.boxed) : d.sendStateReady = true := by
  by_contra hunready
  rw [h.unready (Bool.eq_false_iff.2 hunready)] at hb
  exact List.not_mem_nil hb

end Counted

/-! ## Runs of two ends -/

variable {ends : SendEnds}

/-- Each end counts, and has the keys it was set up with. -/
def PairCounted (L : SendSodium) (ends : SendEnds) (p : Side → SendDuplex) : Prop :=
  ∀ s, Counted (p s) ∧ SameSend (sendPairInit L ends s) (p s)

lemma pairCounted_init : PairCounted L ends (sendPairInit L ends) := by
  intro s
  refine ⟨?_, ⟨rfl, rfl, rfl, rfl⟩⟩
  rw [sendPairInit, SendDuplex.new]
  split
  · refine ⟨by simp [SendDuplex.setupSecretSend], rfl, Nat.two_pow_pos 64, fun _ => rfl, fun _ => ?_⟩
    exact (Nat.mod_eq_of_lt (Counter.value_lt _)).symm
  · exact ⟨by simp, rfl, Nat.two_pow_pos 64, fun _ => rfl, fun _ => (Nat.mod_eq_of_lt (Counter.value_lt _)).symm⟩

lemma pairCounted_step (p : Side → SendDuplex) (e : Side × SendInput) (h : PairCounted L ends p) :
    PairCounted L ends (sendPairStep L p e) := by
  intro s
  by_cases hs : s = e.1
  case pos =>
    subst hs
    rw [sendPairStep, Function.update_self]
    have hsame := SendDuplex.sameSend_step L (p e.1.other).crypto.push (p e.1) e.2
    exact ⟨(h e.1).1.step e.2, (h e.1).2.trans hsame⟩
  case neg =>
    rw [sendPairStep, Function.update_of_ne hs]
    exact h s

lemma boxed_run_of_destroyed {p : Side → SendDuplex} {s : Side} (h : (p s).destroyed = true)
    (more : List (Side × SendInput)) : (Runs.run (sendPairStep L) p more s).boxed = (p s).boxed := by
  refine (Runs.run_invariant
    (P := fun q : Side → SendDuplex => (q s).destroyed = true ∧ (q s).boxed = (p s).boxed)
    (fun q e hq => ?_) ⟨h, rfl⟩ more).2
  by_cases hs : s = e.1
  case pos =>
    subst hs
    rw [sendPairStep, Function.update_self]
    obtain ⟨hdestroyed, hboxed⟩ :=
      SendDuplex.step_of_destroyed L (q e.1.other).crypto.push hq.1 e.2
    exact ⟨hdestroyed, hboxed.trans hq.2⟩
  case neg =>
    rw [sendPairStep, Function.update_of_ne hs]
    exact hq

/-- What `setup_secret_send` derives a key from: the namespace of a role, and the one of unordered messages. -/
def sendInput (isInitiator : Bool) : List UInt8 :=
  (if isInitiator then nsInitiator else nsResponder) ++ nsSend

lemma sendInput_mem (isInitiator : Bool) :
    sendInput isInitiator ∈ ({nsInitiator ++ nsSend, nsResponder ++ nsSend} : Set (List UInt8)) := by
  cases isInitiator
  · exact Or.inr rfl
  · exact Or.inl rfl

lemma sendInput_ne (isInitiator : Bool) : sendInput isInitiator ≠ sendInput (!isInitiator) := by
  cases isInitiator <;> decide

lemma PairCounted.keys {p : Side → SendDuplex} (h : PairCounted L ends p) {s : Side}
    (hready : (p s).sendStateReady = true) :
    (p s).secretboxTxKey = L.generichash (sendInput (ends.handshake s).isInitiator)
        (ends.handshake s).handshakeHash.toList ∧
      (p s).secretboxRxKey = L.generichash (sendInput (!(ends.handshake s).isInitiator))
        (ends.handshake s).handshakeHash.toList := by
  have hsame := (h s).2
  rw [hsame.ready, sendPairInit, SendDuplex.new] at hready
  rw [hsame.txKey, hsame.rxKey, sendPairInit, SendDuplex.new]
  split at hready
  case isTrue henable =>
    rw [if_pos henable]
    cases hrole : (ends.handshake s).isInitiator <;> simp [SendDuplex.setupSecretSend, sendInput, hrole]
  case isFalse => exact absurd hready Bool.false_ne_true

lemma PairCounted.crosswise {p : Side → SendDuplex} (h : PairCounted L ends p) (hagree : ends.Agree)
    {s : Side} (hready : (p s).sendStateReady = true) (hother : (p s.other).sendStateReady = true) :
    (p s).secretboxTxKey = (p s.other).secretboxRxKey := by
  rw [(h.keys hready).1, (h.keys hother).2, hagree.hash s, hagree.role s]

lemma PairCounted.directions {p : Side → SendDuplex} (h : PairCounted L ends p) {s : Side}
    (hinj : Set.InjOn (fun input => L.generichash input (ends.handshake s).handshakeHash.toList)
      {nsInitiator ++ nsSend, nsResponder ++ nsSend})
    (hready : (p s).sendStateReady = true) : (p s).secretboxTxKey ≠ (p s).secretboxRxKey := by
  rw [(h.keys hready).1, (h.keys hready).2]
  exact fun heq => sendInput_ne _ (hinj (sendInput_mem _) (sendInput_mem _) heq)

/-- **Nonces are fresh** after every run of the two ends, whatever their counters begin with.

**Proof sketch.** The nonces of an end are the values of its counter, which differ from each other until
the counter is where it started; the wrap test finds that out before the nonce is used. The two ends box
under different keys. -/
theorem noncesFresh_run (L : SendSodium) (ends : SendEnds) (events : List (Side × SendInput)) :
    NoncesFresh L ends (Runs.run (sendPairStep L) (sendPairInit L ends) events) := by
  have h : PairCounted L ends (Runs.run (sendPairStep L) (sendPairInit L ends) events) :=
    Runs.run_invariant pairCounted_step pairCounted_init events
  generalize Runs.run (sendPairStep L) (sendPairInit L ends) events = p at h
  have hpairs : ∀ s, ((p s).boxed.map fun b => (b.key, b.nonce)).Nodup := by
    intro s
    have hnonces := (h s).1.nodup_nonces
    rw [show Boxed.nonce = Prod.snd ∘ fun b : Boxed => (b.key, b.nonce) from rfl,
      ← List.map_map] at hnonces
    exact hnonces.of_map
  refine ⟨fun s => (h s).1.key, fun s => (h s).1.nodup_nonces, ?_, ?_, ?_, ?_, ?_, ?_⟩
  · exact fun s hroom hready hlive data rc => (h s).1.boxed_sendUdp hroom hready hlive data rc
  · exact fun s hfull data rc => (h s).1.destroyed_sendUdp hfull data rc
  · exact fun s hdestroyed more => boxed_run_of_destroyed hdestroyed more
  · exact fun hagree s hready hother => h.crosswise hagree hready hother
  · exact fun s hinj hready => h.directions hinj hready
  · intro hagree hinj
    rw [List.map_append]
    refine List.Nodup.append (hpairs .a) (hpairs .b) fun pair hpa hpb => ?_
    obtain ⟨b, hb, rfl⟩ := List.mem_map.1 hpa
    obtain ⟨b', hb', heq⟩ := List.mem_map.1 hpb
    -- both ends are set up, and `b'` was boxed under the key of the other direction
    have hkey : b'.key = b.key := (Prod.mk.inj heq).1
    rw [(h .a).1.key b hb, (h .b).1.key b' hb'] at hkey
    have hcross : (p .a).secretboxTxKey = (p .b).secretboxRxKey :=
      h.crosswise hagree ((h .a).1.ready hb) ((h .b).1.ready hb')
    exact h.directions (hinj .b) ((h .b).1.ready hb') (hkey.trans hcross)

def plainSendSodium : SendSodium where
  toSodium := plainSodium
  increment n := ⟨toLe 8 ((ofLe n.toList + 1) % 2 ^ 64), length_toLe 8 _⟩
  ofLe_increment _ := ofLe_toLe (Nat.mod_lt _ (by decide))
  secretboxEasy _ _ data := some (List.replicate macBytes 0 ++ data)
  secretboxOpenEasy _ _ box := some (box.drop macBytes)
  length_easy := by
    rintro _ _ data _ ⟨⟩
    simp [Nat.add_comm]
  open_easy := by
    rintro _ _ data _ ⟨⟩
    simp

/-- BLAKE2b can be injective on what it is given. -/
example : Set.InjOn (fun input => plainSendSodium.generichash input [])
    {nsInitiator ++ nsSend, nsResponder ++ nsSend} := by
  rintro _ (rfl | rfl) _ (rfl | rfl) heq
  · rfl
  · exact absurd heq (by decide)
  · exact absurd heq (by decide)
  · rfl

/-! ## What arrives -/

/-- What an end reads was sent by the other one. Datagrams may be lost, overtaken and repeated. -/
def FromPeer (p : Side → SendDuplex) (e : Side × SendInput) : Prop :=
  ∀ buf, e.2 = .recvMessage buf → buf ∈ (p e.1.other).envelopes

/-- A datagram begins with the nonce of what an end has boxed, and is opened with the key for that end. -/
def Holds (L : SendSodium) (d : SendDuplex) (env : List UInt8) (b : Boxed) : Prop :=
  env ≠ [] ∧ b.nonce.toList.take 8 = env.take 8 ∧
    ∀ e : SendDuplex, e.secretboxRxKey = d.secretboxTxKey → e.unboxMessage L env = some b.data

/-- What a step of two ends does with datagrams. -/
structure Exchanged (L : SendSodium) (p : Side → SendDuplex) (e : Side × SendInput) : Prop where
  /-- A message that is accepted is sent, and the other end can open what is sent. -/
  sent : ∀ data rc, e.2 = .sendUdp data rc ∨ e.2 = .trySendUdp data rc →
    ((p e.1).sendUdp L data rc).2 = 0 → ∃ env,
      (sendPairStep L p e e.1).envelopes = (p e.1).envelopes ++ [env] ∧
        (p e.1.other).unboxMessage L env = some data
  /-- For a datagram that is read the message is passed on that was boxed with its nonce. -/
  received : ∀ buf, e.2 = .recvMessage buf → (p e.1).started = true → ∃ b ∈ (p e.1.other).boxed,
    b.nonce.toList.take 8 = buf.take 8 ∧
      (sendPairStep L p e e.1).udpMessages = (p e.1).udpMessages ++ [b.data]
  /-- Nothing else is passed on. -/
  others : ∀ s, (s = e.1 → (p s).started = true → ∀ buf, e.2 ≠ .recvMessage buf) →
    (sendPairStep L p e s).udpMessages = (p s).udpMessages

lemma boxMessage_holds {d d' : SendDuplex} {data env : List UInt8}
    (h : d.boxMessage L data = (d', env)) (hne : env ≠ []) :
    ∃ b, b.data = data ∧ d'.boxed = d.boxed ++ [b] ∧ Holds L d env b := by
  have hopens : ∀ e : SendDuplex, e.secretboxRxKey = d.secretboxTxKey →
      e.unboxMessage L env = some data := fun e hkey => SendDuplex.unboxMessage_boxMessage hkey h hne
  simp only [SendDuplex.boxMessage] at h
  split at h
  · exact absurd (Prod.mk.inj h).2.symm hne
  · split at h
    · exact absurd (Prod.mk.inj h).2.symm hne
    · obtain ⟨rfl, rfl⟩ := Prod.mk.inj h
      refine ⟨_, rfl, rfl, hne, ?_, hopens⟩
      rw [nonceOf, List.take_left' (List.Vector.toList_length _)]
      exact List.take_left' (List.Vector.toList_length _)

/-- **A call of `send_udp`** makes at most one datagram, of what it was given. -/
lemma sendUdp_sends (d : SendDuplex) (data : List UInt8) (rc : Int) :
    ∃ made sent, (d.sendUdp L data rc).1.boxed = d.boxed ++ made ∧
      (d.sendUdp L data rc).1.envelopes = d.envelopes ++ sent ∧
      (∀ env ∈ sent, ∃ b ∈ made, b.data = data ∧ Holds L d env b) ∧
      ((d.sendUdp L data rc).2 = 0 → ∃ env, sent = [env]) := by
  by_cases hidle : d.destroyed = true ∨ d.sendStateReady = false
  case pos =>
    rw [SendDuplex.sendUdp, if_pos hidle]
    exact ⟨[], [], by simp⟩
  rw [SendDuplex.sendUdp, if_neg hidle]
  rcases hbox : d.boxMessage L data with ⟨d', env⟩
  have hsame : d'.envelopes = d.envelopes ∧ ∃ made, d'.boxed = d.boxed ++ made := by
    rcases SendDuplex.boxMessage_cases (L := L) d data with ⟨-, heq⟩ | ⟨-, heq⟩
    · obtain ⟨rfl, -⟩ := Prod.mk.inj (hbox.symm.trans heq)
      exact ⟨rfl, [], (List.append_nil _).symm⟩
    · rw [hbox] at heq
      obtain rfl : d' = _ := heq
      exact ⟨rfl, _, rfl⟩
  dsimp only
  by_cases henv : env = []
  case pos =>
    obtain ⟨henvelopes, made, hmade⟩ := hsame
    rw [if_pos henv]
    exact ⟨made, [], hmade, by simp [henvelopes], by simp, by simp⟩
  case neg =>
    obtain ⟨b, hdata, hmade, hholds⟩ := boxMessage_holds hbox henv
    rw [if_neg henv]
    refine ⟨[b], [env], ?_, ?_, ?_, fun _ => ⟨env, rfl⟩⟩
    · split_ifs <;> exact hmade
    · split_ifs <;> simp [hsame.1]
    · simpa using ⟨hdata, hholds⟩

/-- Every datagram that an end has sent holds something that the end has boxed. -/
def PairSent (L : SendSodium) (p : Side → SendDuplex) : Prop :=
  ∀ s, ∀ env ∈ (p s).envelopes, ∃ b ∈ (p s).boxed, Holds L (p s) env b

lemma pairSent_step (p : Side → SendDuplex) (e : Side × SendInput) (h : PairSent L p) :
    PairSent L (sendPairStep L p e) := by
  intro s
  by_cases hs : s = e.1
  case neg =>
    rw [sendPairStep, Function.update_of_ne hs]
    exact h s
  subst hs
  rw [sendPairStep, Function.update_self]
  have hgrown : ∃ made sent, ((p e.1).step L (p e.1.other).crypto.push e.2).boxed =
        (p e.1).boxed ++ made ∧
      ((p e.1).step L (p e.1.other).crypto.push e.2).envelopes = (p e.1).envelopes ++ sent ∧
      ∀ env ∈ sent, ∃ b ∈ made, Holds L (p e.1) env b := by
    rcases e with ⟨s, i⟩
    cases i with
    | stream i => exact ⟨[], [], by simp [SendDuplex.step]⟩
    | recvMessage buf =>
      rw [SendDuplex.step]
      obtain ⟨received, heq⟩ := SendDuplex.onUdxRecvMessage_cases (L := L) (p s) buf
      split_ifs
      · exact ⟨[], [], by simp [heq]⟩
      · exact ⟨[], [], by simp⟩
    | sendUdp data rc | trySendUdp data rc =>
      obtain ⟨made, sent, hmade, hsent, hholds, -⟩ := sendUdp_sends (L := L) (p s) data rc
      exact ⟨made, sent, hmade, hsent, fun env henv =>
        (hholds env henv).imp fun b hb => ⟨hb.1, hb.2.2⟩⟩
  obtain ⟨made, sent, hmade, hsent, hholds⟩ := hgrown
  have hkey := (SendDuplex.sameSend_step L (p e.1.other).crypto.push (p e.1) e.2).txKey
  intro env henv
  simp only [Holds, hkey]
  rw [hmade]
  rcases List.mem_append.1 (hsent ▸ henv) with hold | hnew
  · obtain ⟨b, hb, hb'⟩ := h e.1 env hold
    exact ⟨b, List.mem_append_left _ hb, hb'⟩
  · obtain ⟨b, hb, hb'⟩ := hholds env hnew
    exact ⟨b, List.mem_append_right _ hb, hb'⟩

lemma exchanged_of (hagree : ends.Agree) (hsend : ∀ s, ends.enableSend s = true)
    {p : Side → SendDuplex} (hcounted : PairCounted L ends p) (hsent : PairSent L p)
    {e : Side × SendInput} (hfrom : FromPeer p e) : Exchanged L p e := by
  rcases e with ⟨t, i⟩
  have hready : ∀ s, (p s).sendStateReady = true := by
    intro s
    rw [(hcounted s).2.ready, sendPairInit, SendDuplex.new, if_pos (hsend s)]
    rfl
  have hcross : ∀ s, (p s).secretboxTxKey = (p s.other).secretboxRxKey := fun s =>
    hcounted.crosswise hagree (hready s) (hready s.other)
  refine ⟨fun data rc hi hzero => ?_, fun buf hi hstarted => ?_, fun s hquiet => ?_⟩
  · obtain ⟨made, sent, -, henvelopes, hholds, hone⟩ := sendUdp_sends (L := L) (p t) data rc
    obtain ⟨env, rfl⟩ := hone hzero
    obtain ⟨b, -, rfl, -, -, hopens⟩ := hholds env (List.mem_singleton_self env)
    refine ⟨env, ?_, hopens _ (hcross t).symm⟩
    rw [sendPairStep, Function.update_self]
    rcases hi with rfl | rfl <;> exact henvelopes
  · obtain rfl : i = .recvMessage buf := hi
    obtain ⟨b, hb, hne, hnonce, hopens⟩ := hsent t.other buf (hfrom buf rfl)
    have hopened : (p t).unboxMessage L buf = some b.data := by
      refine hopens _ ?_
      rw [hcross t.other, Side.other_other]
    refine ⟨b, hb, hnonce, ?_⟩
    rw [sendPairStep, Function.update_self, SendDuplex.step, if_pos hstarted,
      SendDuplex.onUdxRecvMessage, if_neg (by simp [hready t]), if_neg hne, hopened]
  · by_cases hs : s = t
    case neg => rw [sendPairStep, Function.update_of_ne hs]
    subst hs
    rw [sendPairStep, Function.update_self]
    cases i with
    | stream i => rfl
    | recvMessage buf =>
      rw [SendDuplex.step, if_neg fun hstarted => hquiet rfl hstarted buf rfl]
    | sendUdp data rc | trySendUdp data rc =>
      change ((p s).sendUdp L data rc).1.udpMessages = _
      rcases SendDuplex.sendUdp_cases (L := L) (p s) data rc with
        ⟨-, heq⟩ | ⟨-, -, -, heq⟩ | ⟨-, -, -, envelopes, heq⟩
      · rw [heq]
      · rw [heq, SendDuplex.destroy]
      · rw [heq]

/-- **Unordered messages arrive as they were sent**, over a network that may lose, reorder and repeat
datagrams: in every run each call that succeeds sends a datagram that the other end opens, and each
datagram that an end reads makes it pass on the message that was boxed with its nonce, and nothing else
does. -/
theorem exchanged_run (L : SendSodium) {ends : SendEnds} (hagree : ends.Agree)
    (hsend : ∀ s, ends.enableSend s = true) {events : List (Side × SendInput)}
    (hfrom : Runs.EveryStep (sendPairStep L) FromPeer (sendPairInit L ends) events) :
    Runs.EveryStep (sendPairStep L) (Exchanged L) (sendPairInit L ends) events := by
  refine Runs.everyStep_iff_forall.2 fun before e after hsplit => ?_
  refine exchanged_of hagree hsend (Runs.run_invariant pairCounted_step pairCounted_init before)
    (Runs.run_invariant pairSent_step (fun s env henv => ?_) before)
    (Runs.everyStep_iff_forall.1 hfrom before e after hsplit)
  rw [sendPairInit, SendDuplex.new, if_pos (hsend s)] at henv
  exact absurd henv List.not_mem_nil

/-- The last of two datagrams comes first, and twice. -/
theorem exchanged_run_swapped :
    let ends : SendEnds := ⟨plainEnds, fun _ => true, fun _ => .replicate 8 0⟩
    let env := fun i data : UInt8 => i :: (List.replicate 23 0 ++ [data])
    Runs.EveryStep (sendPairStep plainSendSodium) (Exchanged plainSendSodium)
      (sendPairInit plainSendSodium ends) [(.a, .sendUdp [7] 0), (.a, .sendUdp [8] 0),
        (.b, .stream .start), (.b, .recvMessage (env 2 8)), (.b, .recvMessage (env 1 7)),
        (.b, .recvMessage (env 2 8))] := by
  intro ends env
  refine @exchanged_run plainSendSodium ends ⟨?_, ?_, ?_⟩ (fun _ => rfl) _ ?_
  iterate 3
    intro s
    cases s <;> rfl
  refine ⟨?_, ?_, ?_, ?_, ?_, ?_, trivial⟩
  iterate 3
    intro _ h
    cases h
  iterate 3
    intro _ h
    rw [← SendInput.recvMessage.inj h]
    decide +kernel

end HyperDHT.SecretStream
