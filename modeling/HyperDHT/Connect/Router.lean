import HyperDHT.Connect.Wire
import HyperDHT.Holepunch.Node

/-!
# What the router hands to a server

The router (`router.cpp`) hands handshakes and holepunches to the server that listens at their target. Of a
handshake it looks at the mode and at the bytes of the handshake, of a holepunch at nothing: the decoders return
what they have read, and an address that is cut off is the zeroed one.

## Main definitions

* `Router.handlePeerHandshake`, `Router.handlePeerHolepunch` — the router, with what it sends when the server
  replies.
* `PeerCommand.Fields` — what is on the wire of either message.
* `PeerCommand.WellFormed` — a message with nothing cut off and a mode in which a server may get it.
* `Router.Passes` — only such messages are handed on, with the address that they name or come from.

## Main results

* `Router.handlePeerHolepunch_handedTo` — the router of a node is this one.
* `Router.passes_iff` — when only well-formed messages are handed on.
* `Router.not_passes_cutAddress` — a handshake with an address that is cut off.
-/

set_option autoImplicit false

namespace HyperDHT

open Compact Routing Rpc Handlers

/-- The two kinds of requests that the router hands on. -/
inductive PeerCommand where
  | handshake
  | holepunch
  deriving DecidableEq

/-- What a server has registered at the router: which handlers it has. -/
structure ForwardEntry where
  onPeerHandshake : Bool
  onPeerHolepunch : Bool

def ForwardEntry.handles (entry : ForwardEntry) : PeerCommand → Bool
  | .handshake => entry.onPeerHandshake
  | .holepunch => entry.onPeerHolepunch

structure Router where
  forwards : AList fun _ : NodeId => ForwardEntry := ∅

/-- A call of a handler: the bytes and the address that it is given, and what is sent when it replies. -/
structure HandlerCall where
  message : List UInt8
  peerAddress : Ipv4Address
  replyFn : List UInt8 → PunchAnswer

/-- The modes in which a message may come to a server. -/
def AcceptedMode (mode : UInt32) : Prop :=
  mode = modeFromClient ∨ mode = modeFromRelay ∨ mode = modeFromSecondRelay

instance : DecidablePred AcceptedMode := fun _ => inferInstanceAs (Decidable (_ ∨ _ ∨ _))

namespace Router

variable {router : Router} {command : PeerCommand} {req : Incoming} {value : List UInt8} {call : HandlerCall}

/-! ## The router -/

/-- The server has replied to a handshake: a response to a client, or a request to the relay. -/
def handshakeAnswer (req : Incoming) (mode : UInt32) (clientAddr : Ipv4Address) (replyNoise : List UInt8) :
    PunchAnswer :=
  if mode = modeFromClient then
    .reply {
      tid := req.tid
      fromAddr := req.fromAddr
      value := some (encodeHandshakeMsg { mode := modeReply, noise := replyNoise }) }
  else
    .relay {
      tid := req.tid
      toAddr := req.fromAddr
      command := req.command
      target := req.target
      value := some (encodeHandshakeMsg {
        mode := modeFromServer, noise := replyNoise, peerAddress := some clientAddr }) }

/-- The server has replied to a holepunch. Its reply is decoded, given another mode and address, and
encoded. -/
def holepunchAnswer (req : Incoming) (mode : UInt32) (clientAddr : Ipv4Address) (replyValue : List UInt8) :
    PunchAnswer :=
  if mode = modeFromClient then
    .reply {
      tid := req.tid
      fromAddr := req.fromAddr
      value := some (encodeHolepunchMsg { decodeHolepunchMsg replyValue with
        mode := modeReply, peerAddress := none }) }
  else
    .relay {
      tid := req.tid
      toAddr := req.fromAddr
      command := req.command
      target := req.target
      value := some (encodeHolepunchMsg { decodeHolepunchMsg replyValue with
        mode := modeFromServer, peerAddress := some clientAddr }) }

/-- The value of a request, if there is a handler for it. -/
def forwarded (router : Router) (command : PeerCommand) (req : Incoming) : Option (List UInt8) :=
  match req.target, req.value with
  | some target, some value =>
    match router.forwards.lookup target with
    | none => none
    | some entry => if entry.handles command then some value else none
  | _, _ => none

/-- A handshake comes. -/
def handlePeerHandshake (router : Router) (req : Incoming) : Option HandlerCall :=
  match router.forwarded .handshake req with
  | none => none
  | some value =>
    let msg := decodeHandshakeMsg value
    if msg.noise.isEmpty then none
    else if ¬ AcceptedMode msg.mode then none
    else
      let clientAddr := msg.peerAddress.getD req.fromAddr
      some ⟨msg.noise, clientAddr, handshakeAnswer req msg.mode clientAddr⟩

/-- A holepunch comes. -/
def handlePeerHolepunch (router : Router) (req : Incoming) : Option HandlerCall :=
  match router.forwarded .holepunch req with
  | none => none
  | some value =>
    let msg := decodeHolepunchMsg value
    let clientAddr := msg.peerAddress.getD req.fromAddr
    some ⟨value, clientAddr, holepunchAnswer req msg.mode clientAddr⟩

/-- The handler that is called for a request. -/
def handle (router : Router) : PeerCommand → Incoming → Option HandlerCall
  | .handshake => router.handlePeerHandshake
  | .holepunch => router.handlePeerHolepunch

/-- **The router of a node** with holepunches is this one, if the same servers listen. -/
theorem handlePeerHolepunch_handedTo {s : PunchNode}
    (h : ∀ target, (∃ entry, router.forwards.lookup target = some entry ∧ entry.onPeerHolepunch = true) ↔
      ∃ j server, s.forwards.lookup target = some j ∧ s.servers[j]? = some server) :
    router.handlePeerHolepunch req = (s.handedTo req).map fun handed =>
      ⟨handed.value, handed.clientAddr, PunchNode.routerAnswer req handed⟩ := by
  unfold handlePeerHolepunch forwarded PunchNode.handedTo
  cases req.target with
  | none => rfl
  | some target =>
    cases req.value with
    | none => rfl
    | some value =>
      dsimp only
      by_cases hlistens : ∃ j server, s.forwards.lookup target = some j ∧ s.servers[j]? = some server
      · obtain ⟨entry, hentry, hhandles⟩ := (h target).2 hlistens
        obtain ⟨j, server, hj, hserver⟩ := hlistens
        simp only [hentry, hj, hserver, ForwardEntry.handles, hhandles, if_true, Option.map_some]
        rfl
      · have hhandles : ∀ entry, router.forwards.lookup target = some entry →
            entry.onPeerHolepunch = false := by
          intro entry hentry
          rw [Bool.eq_false_iff]
          exact fun hhandles => hlistens ((h target).1 ⟨entry, hentry, hhandles⟩)
        have hservers : ∀ j, s.forwards.lookup target = some j → s.servers[j]? = none := by
          intro j hj
          rw [Option.eq_none_iff_forall_ne_some]
          exact fun server hserver => hlistens ⟨j, server, hj, hserver⟩
        cases hentry : router.forwards.lookup target with
        | none =>
          cases hj : s.forwards.lookup target with
          | none => rfl
          | some j => simp [hservers j hj]
        | some entry =>
          cases hj : s.forwards.lookup target with
          | none => simp [ForwardEntry.handles, hhandles entry hentry]
          | some j => simp [ForwardEntry.handles, hhandles entry hentry, hservers j hj]

end Router

/-! ## Well-formed messages -/

namespace PeerCommand

/-- A message as it is on the wire: its numbers, its bytes, and the cursor at its addresses. -/
structure Fields where
  flags : UInt64
  mode : UInt64
  id : UInt64 := 0
  body : List UInt8
  addresses : State

def fields : PeerCommand → List UInt8 → Fields
  | .handshake, value =>
    let flags := uintDecode (.forDecode value)
    let mode := uintDecode flags.2
    let noise := bufferDecode mode.2
    { flags := flags.1, mode := mode.1, body := noise.1, addresses := noise.2 }
  | .holepunch, value =>
    let flags := uintDecode (.forDecode value)
    let mode := uintDecode flags.2
    let id := uintDecode mode.2
    let payload := bufferDecode id.2
    { flags := flags.1, mode := mode.1, id := id.1, body := payload.1, addresses := payload.2 }

/-- The flags that announce an address. -/
def addressFlags : PeerCommand → List UInt64
  | .handshake => [1, 2]
  | .holepunch => [1]

/-- How many addresses the flags announce. -/
def announced (flags : UInt64) (bits : List UInt64) : ℕ := bits.countP fun bit => flags &&& bit ≠ 0

/-- The cursor after the addresses that the flags announce. -/
def readAddresses (flags : UInt64) (bits : List UInt64) (s : State) : State :=
  bits.foldl (fun s bit => if flags &&& bit = 0 then s else (ipv4Decode s).2) s

/-- **A well-formed message for a server**: its mode is one in which it may come, its numbers are in
range, and every field that its flags announce is there as a whole. -/
structure WellFormed (command : PeerCommand) (value : List UInt8) : Prop where
  flags : (command.fields value).flags ≤ 0xFF
  mode : ∃ mode, AcceptedMode mode ∧ (command.fields value).mode = mode.toUInt64
  id : (command.fields value).id ≤ 0xFFFFFFFF
  whole : (readAddresses (command.fields value).flags command.addressFlags
    (command.fields value).addresses).error = false

/-- The message names the address of the client. -/
def Names (command : PeerCommand) (value : List UInt8) (addr : Ipv4Address) : Prop :=
  (command.fields value).flags &&& 1 ≠ 0 ∧
    ∃ rest, (command.fields value).addresses.rest = ipv4Encode addr ++ rest

/-- The router takes the message: of a handshake it looks at the bytes, and at the low bits of the mode. -/
def Taken : PeerCommand → List UInt8 → Prop
  | .handshake, value =>
    (handshake.fields value).body ≠ [] ∧ AcceptedMode (handshake.fields value).mode.toUInt32
  | .holepunch, _ => True

/-- A message may be handed on: the numbers of a handshake are in range, and so are those of a holepunch,
of which nothing is cut off before the addresses either; and there are six bytes for each address. -/
def Safe : PeerCommand → List UInt8 → Prop
  | .handshake, value =>
    (handshake.fields value).flags ≤ 0xFF ∧ (handshake.fields value).mode ≤ 0xFFFFFFFF ∧
      6 * announced (handshake.fields value).flags [1, 2] ≤ (handshake.fields value).addresses.rest.length
  | .holepunch, value =>
    (holepunch.fields value).flags ≤ 0xFF ∧ (holepunch.fields value).mode ∈ [0, 2, 3] ∧
      (holepunch.fields value).id ≤ 0xFFFFFFFF ∧ (holepunch.fields value).addresses.error = false ∧
      6 * announced (holepunch.fields value).flags [1] ≤ (holepunch.fields value).addresses.rest.length

variable {command : PeerCommand} {value : List UInt8} {flags mode : UInt64} {bits : List UInt64} {s : State}

lemma error_readAddresses_iff :
    (readAddresses flags bits s).error = false ↔
      s.error = false ∧ 6 * announced flags bits ≤ s.rest.length := by
  induction bits generalizing s with
  | nil => simp [readAddresses, announced]
  | cons bit bits ih =>
    have hcons : readAddresses flags (bit :: bits) s =
        readAddresses flags bits (if flags &&& bit = 0 then s else (ipv4Decode s).2) := rfl
    rw [hcons, ih]
    by_cases hclear : flags &&& bit = 0
    · simp [announced, hclear]
    · rw [if_neg hclear, error_ipv4Decode_iff]
      have hcount : announced flags (bit :: bits) = announced flags bits + 1 := by
        simp [announced, hclear]
      rw [hcount]
      constructor
      · rintro ⟨⟨herror, hsix⟩, hrest⟩
        rw [ipv4Decode, dif_pos ⟨herror, hsix⟩] at hrest
        simp only [State.skip, List.length_drop] at hrest
        exact ⟨herror, by omega⟩
      · rintro ⟨herror, hrest⟩
        refine ⟨⟨herror, by omega⟩, ?_⟩
        rw [ipv4Decode, dif_pos ⟨herror, by omega⟩]
        simp only [State.skip, List.length_drop]
        omega

lemma acceptedMode_iff : (∃ m, AcceptedMode m ∧ mode = m.toUInt64) ↔ mode ∈ [(0 : UInt64), 2, 3] := by
  simp only [AcceptedMode, List.mem_cons, List.not_mem_nil, or_false, or_and_right, exists_or, exists_eq_left]
  rfl

lemma acceptedMode_toUInt32 (h : mode ≤ 0xFFFFFFFF) (haccepted : AcceptedMode mode.toUInt32) :
    ∃ m, AcceptedMode m ∧ mode = m.toUInt64 := by
  refine ⟨_, haccepted, UInt64.toNat_inj.1 ?_⟩
  have hle := UInt64.le_iff_toNat_le.1 h
  have hmax : (0xFFFFFFFF : UInt64).toNat = 4294967295 := rfl
  rw [UInt32.toNat_toUInt64, UInt64.toNat_toUInt32]
  omega

/-- **A message that the router takes is well-formed** exactly if it may be handed on. -/
lemma wellFormed_iff (h : command.Taken value) : command.WellFormed value ↔ command.Safe value := by
  cases command with
  | handshake =>
    obtain ⟨hbody, haccepted⟩ := h
    have hread : (handshake.fields value).addresses.error = false := by
      rw [Bool.eq_false_iff]
      exact fun herror => hbody (bufferDecode_of_error herror)
    constructor
    · rintro ⟨hflags, ⟨m, -, hmode⟩, -, hwhole⟩
      refine ⟨hflags, ?_, (error_readAddresses_iff.1 hwhole).2⟩
      rw [hmode, UInt64.le_iff_toNat_le, UInt32.toNat_toUInt64]
      have hlt := m.toNat_lt
      have hmax : (0xFFFFFFFF : UInt64).toNat = 4294967295 := rfl
      omega
    · rintro ⟨hflags, hmode, hwhole⟩
      exact ⟨hflags, acceptedMode_toUInt32 hmode haccepted, UInt64.le_iff_toNat_le.2 (Nat.zero_le _),
        error_readAddresses_iff.2 ⟨hread, hwhole⟩⟩
  | holepunch =>
    constructor
    · rintro ⟨hflags, hmode, hid, hwhole⟩
      obtain ⟨hread, hcount⟩ := error_readAddresses_iff.1 hwhole
      exact ⟨hflags, acceptedMode_iff.1 hmode, hid, hread, hcount⟩
    · rintro ⟨hflags, hmode, hid, hread, hcount⟩
      exact ⟨hflags, acceptedMode_iff.2 hmode, hid, error_readAddresses_iff.2 ⟨hread, hcount⟩⟩

end PeerCommand

namespace Router

variable {router : Router} {command : PeerCommand} {req : Incoming} {value : List UInt8} {call : HandlerCall}

/-- **Only well-formed messages reach a server**, with the address that they name, or the one they come
from. -/
def Passes (router : Router) (command : PeerCommand) (req : Incoming) : Prop :=
  ∀ call, router.handle command req = some call →
    ∃ value, req.value = some value ∧ command.WellFormed value ∧
      (call.peerAddress = req.fromAddr ∨ command.Names value call.peerAddress)

/-- The address that the decoder of a message returns. -/
def decodedAddress : PeerCommand → List UInt8 → Option Ipv4Address
  | .handshake, value => (decodeHandshakeMsg value).peerAddress
  | .holepunch, value => (decodeHolepunchMsg value).peerAddress

lemma value_of_forwarded (h : router.forwarded command req = some value) : req.value = some value := by
  unfold forwarded at h
  split at h
  next target v _ hvalue =>
    split at h
    · cases h
    · split at h
      · rw [hvalue, h]
      · cases h
  · cases h

lemma decodeHandshakeMsg_fields (value : List UInt8) :
    (decodeHandshakeMsg value).noise = (PeerCommand.handshake.fields value).body ∧
      (decodeHandshakeMsg value).mode = (PeerCommand.handshake.fields value).mode.toUInt32 := by
  unfold decodeHandshakeMsg PeerCommand.fields uint32Decode
  dsimp only
  split
  next hflags => simp [uintDecode_failed hflags, bufferDecode_failed hflags]; rfl
  · split
    next hmode => exact ⟨by rw [bufferDecode_failed hmode], rfl⟩
    · split
      next hnoise => exact ⟨(bufferDecode_of_error hnoise).symm, rfl⟩
      · split_ifs <;> exact ⟨rfl, rfl⟩

/-- **The handler is called** for the messages that are taken, with the address that was decoded. -/
lemma handle_spec (router : Router) (command : PeerCommand) (req : Incoming) :
    (∀ call, router.handle command req = some call → ∃ value,
      router.forwarded command req = some value ∧ command.Taken value ∧
        call.peerAddress = (decodedAddress command value).getD req.fromAddr) ∧
      ∀ value, router.forwarded command req = some value → command.Taken value →
        (router.handle command req).isSome = true := by
  cases command with
  | handshake =>
    simp only [handle, handlePeerHandshake]
    cases hvalue : router.forwarded .handshake req with
    | none => simp
    | some value =>
      obtain ⟨hnoise, hmode⟩ := decodeHandshakeMsg_fields value
      have htaken : PeerCommand.handshake.Taken value ↔
          (decodeHandshakeMsg value).noise.isEmpty = false ∧
            AcceptedMode (decodeHandshakeMsg value).mode := by
        rw [hnoise, hmode, List.isEmpty_eq_false_iff]
        rfl
      dsimp only
      split
      next hempty => simp [htaken, hempty]
      next hfull =>
        split
        next hrefused => simp [htaken, hrefused]
        next haccepted =>
          refine ⟨fun call hcall => ⟨value, rfl, htaken.2 ⟨by simpa using hfull, not_not.1 haccepted⟩, ?_⟩,
            fun _ _ _ => rfl⟩
          obtain rfl := Option.some.inj hcall
          rfl
  | holepunch =>
    simp only [handle, handlePeerHolepunch]
    cases hvalue : router.forwarded .holepunch req with
    | none => simp
    | some value =>
      refine ⟨fun call hcall => ⟨value, rfl, trivial, ?_⟩, fun _ _ _ => rfl⟩
      obtain rfl := Option.some.inj hcall
      rfl

lemma toUInt8_and_one (flags : UInt64) : flags.toUInt8 &&& 1 = 0 ↔ flags &&& 1 = 0 := by
  rw [← UInt8.toNat_inj, ← UInt64.toNat_inj, UInt8.toNat_and, UInt64.toNat_and, UInt64.toNat_toUInt8]
  have hbyte : (1 : UInt8).toNat = 1 := rfl
  have hword : (1 : UInt64).toNat = 1 := rfl
  rw [hbyte, hword, Nat.and_one_is_mod, Nat.and_one_is_mod]
  simp only [UInt8.toNat_zero, UInt64.toNat_zero]
  omega

lemma decodedAddress_spec {addr : Ipv4Address} (h : decodedAddress command value = some addr) :
    (command.fields value).flags &&& 1 ≠ 0 ∧ addr = (ipv4Decode (command.fields value).addresses).1 := by
  cases command with
  | handshake =>
    unfold decodedAddress decodeHandshakeMsg uint32Decode at h
    unfold PeerCommand.fields
    dsimp only at h ⊢
    rw [Ne, ← toUInt8_and_one]
    split_ifs at h with hflags hmode hnoise hclear hpeer hrelay hpeer <;> simp_all
  | holepunch =>
    unfold decodedAddress decodeHolepunchMsg at h
    unfold PeerCommand.fields
    dsimp only at h ⊢
    split_ifs at h with hflags hmode hid hpayload hclear
    simp_all

lemma names_of_wellFormed {addr : Ipv4Address} (h : command.WellFormed value)
    (haddr : decodedAddress command value = some addr) : command.Names value addr := by
  obtain ⟨hset, rfl⟩ := decodedAddress_spec haddr
  obtain ⟨herror, hcount⟩ := PeerCommand.error_readAddresses_iff.1 h.whole
  have hone : 1 ≤ PeerCommand.announced (command.fields value).flags command.addressFlags := by
    refine List.countP_pos_iff.2 ⟨1, ?_, by simpa using hset⟩
    cases command <;> decide
  exact ⟨hset, _, rest_eq_ipv4Encode herror (by omega)⟩

/-- **Only well-formed messages reach a server** exactly if those that the router takes may be handed on. -/
theorem passes_iff (router : Router) (command : PeerCommand) (req : Incoming) :
    router.Passes command req ↔ ∀ value, router.forwarded command req = some value →
      command.Taken value → command.Safe value := by
  obtain ⟨hcalled, hcalls⟩ := handle_spec router command req
  constructor
  · intro hpasses value hforwarded htaken
    obtain ⟨call, hcall⟩ := Option.isSome_iff_exists.1 (hcalls value hforwarded htaken)
    obtain ⟨value', hvalue', hwell, -⟩ := hpasses call hcall
    obtain rfl : value' = value := Option.some.inj (hvalue'.symm.trans (value_of_forwarded hforwarded))
    exact (PeerCommand.wellFormed_iff htaken).1 hwell
  · intro hsafe call hcall
    obtain ⟨value, hforwarded, htaken, haddr⟩ := hcalled call hcall
    have hwell := (PeerCommand.wellFormed_iff htaken).2 (hsafe value hforwarded htaken)
    refine ⟨value, value_of_forwarded hforwarded, hwell, ?_⟩
    cases hdecoded : decodedAddress command value with
    | none => exact .inl (by rw [haddr, hdecoded, Option.getD_none])
    | some addr =>
      rw [haddr, hdecoded, Option.getD_some]
      exact .inr (names_of_wellFormed hwell hdecoded)

/-- A handshake that a relay has handed on. Its flags announce an address, and it ends in the middle of it. -/
def cutHandshake : List UInt8 := [1, 2, 1, 7, 10, 0]

def listeningRouter : Router where
  forwards := AList.singleton ⟨List.Vector.replicate 32 0⟩ ⟨true, true⟩

def cutRequest : Incoming where
  fromAddr := .ofOctets 10 0 0 9 49737
  command := cmdPeerHandshake
  target := some ⟨List.Vector.replicate 32 0⟩
  value := some cutHandshake
  valueFits := by rintro v ⟨⟩; decide

/-- The server is called, and with the zeroed address. -/
theorem not_passes_cutAddress :
    (∃ call, listeningRouter.handle .handshake cutRequest = some call ∧ call.peerAddress = Ipv4Address.zero) ∧
      ¬ listeningRouter.Passes .handshake cutRequest := by
  have hcalled : ∃ call, listeningRouter.handle .handshake cutRequest = some call ∧
      call.peerAddress = Ipv4Address.zero := ⟨_, rfl, by decide⟩
  refine ⟨hcalled, fun hpasses => ?_⟩
  obtain ⟨call, hcall, -⟩ := hcalled
  obtain ⟨value, hvalue, hwell, -⟩ := hpasses call hcall
  obtain rfl := Option.some.inj hvalue
  have hwhole := hwell.whole
  revert hwhole
  decide

end Router

end HyperDHT
