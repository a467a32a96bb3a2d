import HyperDHT.Connect.Basic
import HyperDHT.Connect.Router
import HyperDHT.Holepunch.Replies
import HyperDHT.Noise.Agreement
import HyperDHT.SecretStream.Delivery

/-!
# A handshake from one end to the other

A client writes its payload into the first Noise message, wraps it in a handshake message and sends it
towards the server (`peer_handshake` of `peer_connect.cpp`), possibly through relays. The router of the
server unwraps it, the server reads the payload (`decode_handshake`), decides, and writes its own into the
second Noise message (`finalize_handshake` of `server_connection.cpp`), which goes back the same way.

## Main definitions

* `PeerConnect.peerHandshake`, `PeerConnect.onResponse` — the client.
* `PeerConnect.noiseEnv` — a server whose handshakes are those of Noise.
* `PeerConnect.Carries` — a relay hands on the bytes of the handshake.
* `PeerConnect.securePayload` — what encrypts a holepunch (`holepunch.cpp`), with the secret of one end.

## Main results

* `PeerConnect.peerHandshake_agrees` — the sides read each other's payload, the handshake succeeds unless
  the server rejects the client, and both sides have the same keys.
* `PeerConnect.streams_deliver` — after it their secret streams deliver what is written.
* `PeerConnect.holepunch_agrees` — after it the sides read each other's messages of a holepunch.
-/

set_option autoImplicit false

namespace HyperDHT.PeerConnect

open Compact Routing Rpc Handlers
open Noise (Sodium NoiseIK PubKey Seed generateKeypair)

/-! ## The client -/

/-- The prologue of a client (`compute_prologue`). -/
def computePrologue (blake2b : List UInt8 → NodeId) : List UInt8 :=
  (blake2b ((blake2b protocolName).bytes.toList ++ [0])).bytes.toList

/-- The prologue of a server. -/
def nsPeerHandshake (blake2b : List UInt8 → NodeId) : NodeId := computeNs blake2b 0

variable (L : Sodium) (blake2b : List UInt8 → NodeId)

/-- The client sends its payload in a first message. -/
def peerHandshake (relayAddr : Ipv4Address) (ourKeypair : Noise.Keypair) (remotePubkey : PubKey)
    (payload : NoisePayload) (fresh : Noise.Keypair) : NoiseIK × Request :=
  let noiseIK := NoiseIK.newInitiator L ourKeypair (computePrologue blake2b) remotePubkey
  let sent := noiseIK.send L (encodeNoisePayload payload) fresh
  (sent.1, {
    toAddr := relayAddr
    command := cmdPeerHandshake
    target := some (blake2b remotePubkey.toList)
    value := some (encodeHandshakeMsg { noise := sent.2 }) })

/-- The response to the client: its callback is given what became of the handshake. -/
def onResponse (noiseIK : NoiseIK) (remotePubkey : PubKey) (value : Option (List UInt8)) :
    HandshakeResult :=
  match value with
  | none => {}
  | some bytes =>
    if bytes.isEmpty then {}
    else
      let hs := decodeHandshakeMsg bytes
      if hs.noise.isEmpty then {}
      else
        match noiseIK.recv L hs.noise with
        | (_, none) => {}
        | (n, some decrypted) =>
          if n.complete then .ofReply remotePubkey ⟨n.tx, n.rx, n.hash⟩ decrypted hs.peerAddress
          else {}

/-! ## The server -/

/-- The end of a server after a first message. -/
def received (keypair : Noise.Keypair) (msg : List UInt8) : NoiseIK × Option (List UInt8) :=
  (NoiseIK.newResponder L keypair (nsPeerHandshake blake2b).bytes.toList).recv L msg

/-- What a server makes of Noise messages. The secret key that is drawn with an ephemeral public key is
told by `secretOf`. -/
def noiseEnv (keypair : Noise.Keypair) (secretOf : PubKey → List.Vector UInt8 64)
    (options : Server.Env) : Server.Env :=
  { options with
    recv := fun msg =>
      match received L blake2b keypair msg with
      | (_, none) => none
      | (n, some decrypted) => some (n.rs, decodeNoisePayload decrypted)
    send := fun msg ephemeral payload =>
      let sent := (received L blake2b keypair msg).1.send L (encodeNoisePayload payload)
        ⟨ephemeral, secretOf ephemeral⟩
      if sent.1.complete then some (sent.2.drop 32, ⟨sent.1.tx, sent.1.rx, sent.1.hash⟩) else none }

/-! ## The way between them -/

/-- The bytes of the handshake that a message carries. -/
def noiseOf (value : List UInt8) : List UInt8 := (decodeHandshakeMsg value).noise

/-- A message carries what another one did. Relays change the mode and the addresses. -/
def Carries (value value' : List UInt8) : Prop := noiseOf value' = noiseOf value

/-- The value of what the router sends. -/
def answerValue : PunchAnswer → Option (List UInt8)
  | .reply resp => resp.value
  | .relay req => req.value

variable {L blake2b}

/-- The answer of the router carries the reply of the server, in either mode. -/
lemma noiseOf_handshakeAnswer (req : Incoming) (mode : UInt32) (clientAddr : Ipv4Address)
    {replyNoise : List UInt8} (h : replyNoise.length ≤ maxBufferDecode) :
    ∃ value, answerValue (Router.handshakeAnswer req mode clientAddr replyNoise) = some value ∧
      noiseOf value = replyNoise := by
  unfold Router.handshakeAnswer noiseOf
  split
  · exact ⟨_, rfl, by rw [decodeHandshakeMsg_encodeHandshakeMsg h]⟩
  · exact ⟨_, rfl, by rw [decodeHandshakeMsg_encodeHandshakeMsg h]⟩

/-! ## The lengths of the messages -/

lemma length_encryptAndHash_le (h : L.Correct) (s : Noise.SymmetricState) (plaintext : List UInt8) :
    (s.encryptAndHash L plaintext).2.length ≤ plaintext.length + 16 := by
  unfold Noise.SymmetricState.encryptAndHash Noise.CipherState.encryptWithAd
  dsimp only
  split
  · simp
  · split
    · simp
    · exact (h.length_encrypt _ _ _ _).le

/-- **What is sent**: nothing, or the ephemeral key and not much more than the payload behind it. -/
lemma send_cases (h : L.Correct) (n : NoiseIK) (fresh : Noise.Keypair) (payload : List UInt8) :
    (n.send L payload fresh).2 = [] ∨
      ∃ rest, (n.send L payload fresh).2 = (n.e.getD fresh).publicKey.toList ++ rest ∧
        rest.length ≤ payload.length + 64 := by
  have hlength := fun s plaintext => length_encryptAndHash_le h s plaintext
  unfold NoiseIK.send
  split
  · cases n.initiator with
    | true =>
      simp only [if_true, NoiseIK.sendKeys1]
      split_ifs
      · exact .inl rfl
      · exact .inl rfl
      · refine .inr ⟨_, List.append_assoc _ _ _, ?_⟩
        rw [List.length_append]
        have hkey := hlength ((n.symmetric.mixHash L (n.e.getD fresh).publicKey.toList).mixKey L n.rs
          (n.e.getD fresh)) n.s.publicKey.toList
        have hstatic : n.s.publicKey.toList.length = 32 := n.s.publicKey.toList_length
        have hpayload := fun s => hlength s payload
        exact (Nat.add_le_add hkey (hpayload _)).trans (by omega)
    | false =>
      simp only [Bool.false_eq_true, if_false, NoiseIK.sendKeys2]
      split_ifs
      · exact .inl rfl
      · exact .inl rfl
      · exact .inr ⟨_, rfl, (hlength _ payload).trans (by omega)⟩
  · exact .inl rfl

/-- Twelve bytes a relay, six an address, and less than three hundred for all else. -/
lemma length_encodeNoisePayload_le {p : NoisePayload} (h : p.Fits) (h6 : p.addresses6 = []) :
    (encodeNoisePayload p).length ≤ 60000 := by
  have hnumber := length_uintEncode_le
  have harray : ∀ {α : Type} (encode : α → List UInt8) (k : ℕ) (items : List α),
      (∀ a, (encode a).length = k) → (arrayEncode encode items).length ≤ 9 + k * items.length := by
    intro α encode k items hk
    have hitems : (items.flatMap encode).length = k * items.length := by
      rw [List.length_flatMap, List.map_congr_left fun a _ => hk a, List.map_const', List.sum_replicate,
        smul_eq_mul, Nat.mul_comm]
    simp only [arrayEncode, List.length_append, hitems]
    exact Nat.add_le_add_right (hnumber _) _
  have hsix : ∀ a, (ipv4Encode a).length = 6 := fun a => by simp [ipv4Encode]
  have hoptional : ∀ items : List Ipv4Address, items.length ≤ arrayMaxLength →
      (optionalArrayEncode ipv4Encode items).length ≤ 9 + 6 * 4096 := by
    intro items hitems
    unfold optionalArrayEncode
    split
    · simp
    · exact (harray ipv4Encode 6 items hsix).trans
        (Nat.add_le_add_left (Nat.mul_le_mul_left 6 hitems) 9)
  have hholepunch : ((p.holepunch.map holepunchEncode).getD []).length ≤ 18 + 12 * 128 := by
    cases hhp : p.holepunch with
    | none => simp
    | some hp =>
      have hrelays := harray relayInfoEncode 12 hp.relays fun r => by simp [relayInfoEncode, hsix]
      have hfew := h.relays hp hhp
      have hid := hnumber hp.id.toUInt64
      simp only [Option.map_some, Option.getD_some, holepunchEncode, List.length_append]
      omega
  have hudx : ((p.udx.map udxEncode).getD []).length ≤ 36 := by
    cases p.udx with
    | none => simp
    | some udx =>
      have h1 := hnumber udx.version.toUInt64
      have h2 := hnumber (if udx.reusableSocket then 1 else 0)
      have h3 := hnumber udx.id.toUInt64
      have h4 := hnumber udx.seq.toUInt64
      simp only [Option.map_some, Option.getD_some, udxEncode, List.length_append]
      omega
  have hthrough : ((p.relayThrough.map relayThroughEncode).getD []).length ≤ 82 := by
    cases p.relayThrough with
    | none => simp
    | some rt =>
      have h1 := hnumber rt.version.toUInt64
      have h2 := hnumber 0
      simp only [Option.map_some, Option.getD_some, relayThroughEncode, List.length_append,
        List.Vector.toList_length]
      omega
  have hstream : (if p.hasSecretStream then uintEncode 1 else []).length ≤ 9 := by
    split
    · exact hnumber 1
    · simp
  have hnone : optionalArrayEncode ipv6Encode p.addresses6 = [] := by simp [optionalArrayEncode, h6]
  have h4 := hoptional _ h.addresses4
  have hrelay := hoptional _ h.relayAddresses
  have hversion := hnumber p.version.toUInt64
  have hflags := hnumber (payloadFlags p).toUInt64
  have herror := hnumber p.error.toUInt64
  have hfirewall := hnumber p.firewall.toUInt64
  simp only [encodeNoisePayload, List.length_append, hnone, List.length_nil]
  omega

/-! ## What the methods of Noise keep -/

lemma recv_nil (n : NoiseIK) : (n.recv L []).2 = none := by
  unfold NoiseIK.recv
  split
  · cases hrole : n.initiator <;> simp [NoiseIK.recvKeys1, NoiseIK.recvKeys2, Noise.pkLen]
  · rfl

lemma e_finish (n : NoiseIK) : (n.finish L).e = n.e ∧ (n.finish L).rs = n.rs := by
  unfold NoiseIK.finish
  split <;> exact ⟨rfl, rfl⟩

lemma e_recvPayload (n : NoiseIK) (rest : List UInt8) : (n.recvPayload L rest).1.e = n.e := by
  unfold NoiseIK.recvPayload
  split
  · rfl
  · exact (e_finish _).1

/-- A responder draws its ephemeral key when it sends. -/
lemma e_recv_responder {n : NoiseIK} (hrole : n.initiator = false) (msg : List UInt8) :
    (n.recv L msg).1.e = n.e := by
  have hkeys : (n.recvKeys1 L msg).1.e = n.e := by
    unfold NoiseIK.recvKeys1
    dsimp only
    split_ifs
    · rfl
    · rfl
    · rfl
    · split
      · rfl
      · split_ifs <;> rfl
  simp only [NoiseIK.recv, hrole, Bool.false_eq_true, if_false]
  split
  · split
    · next heq => rw [← hkeys, heq]
    · next heq => rw [e_recvPayload, ← hkeys, heq]
  · rfl

lemma rs_send (n : NoiseIK) (payload : List UInt8) (fresh : Noise.Keypair) :
    (n.send L payload fresh).1.rs = n.rs := by
  unfold NoiseIK.send
  split
  · cases n.initiator with
    | true =>
      simp only [if_true, NoiseIK.sendKeys1]
      split_ifs
      · rfl
      · rfl
      · exact (e_finish _).2
    | false =>
      simp only [Bool.false_eq_true, if_false, NoiseIK.sendKeys2]
      split_ifs
      · rfl
      · rfl
      · exact (e_finish _).2
  · rfl

/-- **The messages of Noise**, with the ends that they leave: each is what the other end reads, the second
one begins with the ephemeral key of the responder, and both ends have the same keys. -/
lemma noise_exchange (h : L.Correct) (sI sR eI eR : Seed) (prologue p1 : List UInt8) :
    ∃ i msg r, (NoiseIK.newInitiator L (generateKeypair L sI) prologue (generateKeypair L sR).publicKey
        ).send L p1 (generateKeypair L eI) = (i, msg) ∧ msg.length ≤ p1.length + 96 ∧ msg ≠ [] ∧
      (NoiseIK.newResponder L (generateKeypair L sR) prologue).recv L msg = (r, some p1) ∧
      r.rs = (generateKeypair L sI).publicKey ∧
      ∀ p2, ∃ r' rest i', r.send L p2 (generateKeypair L eR) =
          (r', (generateKeypair L eR).publicKey.toList ++ rest) ∧ rest.length ≤ p2.length + 64 ∧
        i.recv L ((generateKeypair L eR).publicKey.toList ++ rest) = (i', some p2) ∧
        r'.complete = true ∧ i'.complete = true ∧ i'.tx = r'.rx ∧ i'.rx = r'.tx ∧ i'.hash = r'.hash := by
  have hagree := fun p2 => Noise.agrees_handshake h sI sR eI eR prologue p1 p2
  unfold Noise.handshake at hagree
  rcases hsend : (NoiseIK.newInitiator L (generateKeypair L sI) prologue (generateKeypair L sR).publicKey
    ).send L p1 (generateKeypair L eI) with ⟨i, msg⟩
  rcases hrecv : (NoiseIK.newResponder L (generateKeypair L sR) prologue).recv L msg with ⟨r, read⟩
  simp only [hsend, hrecv] at hagree
  obtain rfl : read = some p1 := (hagree []).payloads.1
  have hne : msg ≠ [] := by
    rintro rfl
    have hnone := recv_nil (L := L) (NoiseIK.newResponder L (generateKeypair L sR) prologue)
    rw [hrecv] at hnone
    simp at hnone
  have hephemeral : r.e = none := by
    have hsame := e_recv_responder (L := L)
      (n := NoiseIK.newResponder L (generateKeypair L sR) prologue) rfl msg
    rw [hrecv] at hsame
    exact hsame
  refine ⟨i, msg, r, rfl, ?_, hne, hrecv, ?_, fun p2 => ?_⟩
  · rcases send_cases h (NoiseIK.newInitiator L (generateKeypair L sI) prologue
      (generateKeypair L sR).publicKey) (generateKeypair L eI) p1 with
      hnil | ⟨rest, hmsg, hrest⟩
    · rw [hsend] at hnil
      exact absurd hnil hne
    · rw [hsend] at hmsg
      obtain rfl : msg = _ := hmsg
      rw [List.length_append, List.Vector.toList_length]
      omega
  · rw [← rs_send r [] (generateKeypair L eR)]
    exact (hagree []).rs
  · rcases hreply : r.send L p2 (generateKeypair L eR) with ⟨r', reply⟩
    rcases hback : i.recv L reply with ⟨i', read⟩
    have hagree := hagree p2
    simp only [hreply, hback] at hagree
    obtain ⟨⟨hi, hr⟩, -, ⟨-, hread⟩, htx, hrx, hhash⟩ := hagree
    obtain rfl : read = some p2 := hread
    rcases send_cases h r (generateKeypair L eR) p2 with
      hnil | ⟨rest, hrest, hlength⟩
    · rw [hreply] at hnil
      obtain rfl : reply = [] := hnil
      have hnone := recv_nil (L := L) i
      rw [hback] at hnone
      simp at hnone
    · rw [hreply, hephemeral] at hrest
      obtain rfl : reply = _ := hrest
      exact ⟨r', rest, i', rfl, hlength, hback, hr, hi, htx, hrx, hhash⟩

/-! ## What is sent and received -/

/-- A handshake message with few enough bytes can be decoded by its receiver. -/
lemma length_encodeHandshakeMsg_le {msg : List UInt8} (h : msg.length ≤ 60096) :
    (encodeHandshakeMsg { noise := msg }).length ≤ maxBufferDecode := by
  have h1 := length_uintEncode_le ({ noise := msg } : HandshakeMessage).flags.toUInt64
  have h2 := length_uintEncode_le modeFromClient.toUInt64
  have h3 := length_uintEncode_le (UInt64.ofNat msg.length)
  have hmax : maxBufferDecode = 65536 := rfl
  have hbuffer : (bufferEncode msg).length ≤ 10 + msg.length := by
    unfold bufferEncode
    split
    · exact Nat.le_add_right_of_le (by decide)
    · rw [List.length_append]
      omega
  simp only [encodeHandshakeMsg, List.length_append, Option.map_none, Option.getD_none, List.length_nil]
  omega

/-- The payload of a reply can be read, whatever the server knows. -/
lemma responsePayload_spec (env : Server.Env) {d : Deciding} (draw : Server.Draw) (error : UInt32)
    (haddresses : d.ourAddresses.length ≤ arrayMaxLength) (hrelays : d.relayInfos.length ≤ 128) :
    (Server.responsePayload env d draw error).Fits ∧
      (Server.responsePayload env d draw error).addresses6 = [] ∧
      (Server.responsePayload env d draw error).error = error := by
  have hrelayAddresses : (d.relayInfos.map (·.relayAddress)).length ≤ arrayMaxLength := by
    rw [List.length_map]
    exact hrelays.trans (by decide)
  have hnone : ([] : List Ipv6Address).length ≤ arrayMaxLength := Nat.zero_le _
  unfold Server.responsePayload
  dsimp only
  generalize (if d.hasRemoteAddr = true then firewallOpen
    else if d.ourAddresses.isEmpty = true then firewallUnknown else firewallConsistent) = firewall
  split
  · exact ⟨⟨rfl, by simp, haddresses, hnone, Nat.zero_le _⟩, rfl, rfl⟩
  · refine ⟨⟨rfl, ?_, haddresses, hnone, hrelayAddresses⟩, rfl, rfl⟩
    intro hp hhp
    dsimp only at hhp
    split at hhp
    · simp at hhp
    · obtain rfl := Option.some.inj hhp
      exact hrelays

/-- A message that carries the handshake in a mode for servers is handed to the server, and the answer
carries its reply. -/
lemma handle_of_carries {router : Router} {req : Incoming} {value msg : List UInt8}
    (hforwarded : router.forwarded .handshake req = some value) (hmsg : noiseOf value = msg)
    (hne : msg ≠ []) (hmode : AcceptedMode (decodeHandshakeMsg value).mode) :
    ∃ call, router.handle .handshake req = some call ∧ call.message = msg ∧
      ∀ replyNoise : List UInt8, replyNoise.length ≤ maxBufferDecode →
        ∃ answered, answerValue (call.replyFn replyNoise) = some answered ∧
          noiseOf answered = replyNoise := by
  subst hmsg
  have hfull : (decodeHandshakeMsg value).noise.isEmpty = false := List.isEmpty_eq_false_iff.2 hne
  refine ⟨⟨noiseOf value, (decodeHandshakeMsg value).peerAddress.getD req.fromAddr,
    Router.handshakeAnswer req (decodeHandshakeMsg value).mode
      ((decodeHandshakeMsg value).peerAddress.getD req.fromAddr)⟩, ?_, rfl, fun replyNoise hlength =>
    noiseOf_handshakeAnswer _ _ _ hlength⟩
  simp [Router.handle, Router.handlePeerHandshake, hforwarded, hfull, hmode, noiseOf]

/-- The client makes of a message that carries the reply what Noise makes of it. -/
lemma onResponse_of_carries {noiseIK n : NoiseIK} (remotePubkey : PubKey)
    {back replyNoise decrypted : List UInt8} (hback : noiseOf back = replyNoise)
    (hrecv : noiseIK.recv L replyNoise = (n, some decrypted)) (hcomplete : n.complete = true) :
    onResponse L noiseIK remotePubkey (some back) = .ofReply remotePubkey ⟨n.tx, n.rx, n.hash⟩ decrypted
      (decodeHandshakeMsg back).peerAddress := by
  subst hback
  have hnoise : noiseOf back ≠ [] := fun hnil => by
    have hnone := recv_nil (L := L) noiseIK
    rw [← hnil, hrecv] at hnone
    simp at hnone
  have hfull : (decodeHandshakeMsg back).noise.isEmpty = false := List.isEmpty_eq_false_iff.2 hnoise
  have hbytes : back.isEmpty = false := List.isEmpty_eq_false_iff.2 fun hnil => by
    subst hnil
    exact hnoise rfl
  have hrecv' : noiseIK.recv L (decodeHandshakeMsg back).noise = (n, some decrypted) := hrecv
  simp [onResponse, hbytes, hfull, hrecv', hcomplete]

/-! ## Both ends -/

/-- What the ends have after a handshake: the client the payload of the server, success unless it was
refused, and each the keys of the other. -/
structure Established (result : HandshakeResult) (conn : ServerConnection) (reply : NoisePayload)
    (rejected : Bool) : Prop where
  payload : result.remotePayload = reply
  success : result.success = !rejected
  hasError : conn.hasError = rejected
  tx : result.keys.txKey = conn.keys.rxKey
  rx : result.keys.rxKey = conn.keys.txKey
  hash : result.keys.handshakeHash = conn.keys.handshakeHash

/-- The end of a server whose Noise has read the first message and written the second. -/
lemma finalizeHandshake_of_send {keypair : Noise.Keypair} {secretOf : PubKey → List.Vector UInt8 64}
    {options : Server.Env} {d : Deciding} {draw : Server.Draw} {rejected : Bool} {fresh : Noise.Keypair}
    {r' : NoiseIK} {rest : List UInt8} (hkey : draw.ephemeral = fresh.publicKey)
    (hdrawn : secretOf fresh.publicKey = fresh.secretKey)
    (hsend : (received L blake2b keypair d.pending.noise).1.send L
      (encodeNoisePayload (Server.responsePayload (noiseEnv L blake2b keypair secretOf options) d draw
        (Server.handshakeError d.pending.remotePayload rejected))) fresh =
      (r', fresh.publicKey.toList ++ rest)) (hcomplete : r'.complete = true) :
    ∃ conn, Server.finalizeHandshake (noiseEnv L blake2b keypair secretOf options) d draw rejected =
        some conn ∧ conn.replyNoise = fresh.publicKey.toList ++ rest ∧
      conn.keys = ⟨r'.tx, r'.rx, r'.hash⟩ ∧
      conn.errorCode = Server.handshakeError d.pending.remotePayload rejected ∧
      conn.hasError = (conn.errorCode != errorNone) := by
  have hfresh : (⟨fresh.publicKey, secretOf fresh.publicKey⟩ : Noise.Keypair) = fresh := by rw [hdrawn]
  have hdrop : (fresh.publicKey.toList ++ rest).drop 32 = rest :=
    List.drop_left' fresh.publicKey.toList_length
  have henv : (noiseEnv L blake2b keypair secretOf options).send d.pending.noise draw.ephemeral
      (Server.responsePayload (noiseEnv L blake2b keypair secretOf options) d draw
        (Server.handshakeError d.pending.remotePayload rejected)) =
      some (rest, ⟨r'.tx, r'.rx, r'.hash⟩) := by
    rw [hkey]
    simp only [noiseEnv] at hsend ⊢
    rw [hfresh, hsend]
    simp only [hcomplete, if_true, hdrop]
  refine ⟨_, by rw [Server.finalizeHandshake, henv]; rfl, ?_, rfl, rfl, rfl⟩
  rw [hkey]

/-- **A handshake from one end to the other.** If what comes to the server carries what the client has
sent, in a mode for servers, the server reads the key and the payload of the client; and if what comes
back carries the answer, the handshake is established. -/
theorem peerHandshake_agrees (h : L.Correct) (sI sR eI eR : Seed) {secretOf : PubKey → List.Vector UInt8 64}
    (hdrawn : secretOf (generateKeypair L eR).publicKey = (generateKeypair L eR).secretKey)
    (options : Server.Env) (relayAddr : Ipv4Address) (udxId firewall : UInt32)
    {addresses4 : List Ipv4Address} (haddresses : addresses4.length ≤ arrayMaxLength)
    (relayThrough : Option RelayThroughInfo) :
    let payload := handshakePayload udxId firewall addresses4 relayThrough
    let client := peerHandshake L blake2b relayAddr (generateKeypair L sI) (generateKeypair L sR).publicKey
      payload (generateKeypair L eI)
    let env := noiseEnv L blake2b (generateKeypair L sR) secretOf options
    ∃ sent, client.2.value = some sent ∧ sent.length ≤ maxBufferDecode ∧
      (decodeHandshakeMsg sent).mode = modeFromClient ∧
      ∀ (router : Router) (req : Incoming) (value : List UInt8),
        router.forwarded .handshake req = some value → Carries sent value →
        AcceptedMode (decodeHandshakeMsg value).mode →
        ∃ call pending, router.handle .handshake req = some call ∧
          Server.decodeHandshake env call.message = some pending ∧
          pending.remotePublicKey = (generateKeypair L sI).publicKey ∧ pending.remotePayload = payload ∧
          ∀ (d : Deciding) (draw : Server.Draw) (rejected : Bool), d.pending = pending →
            draw.ephemeral = (generateKeypair L eR).publicKey →
            d.ourAddresses.length ≤ arrayMaxLength → d.relayInfos.length ≤ 128 →
            ∃ conn answered, Server.finalizeHandshake env d draw rejected = some conn ∧
              answerValue (call.replyFn conn.replyNoise) = some answered ∧
              ∀ back, Carries answered back →
                Established (onResponse L client.1 (generateKeypair L sR).publicKey (some back)) conn
                  (Server.responsePayload env d draw conn.errorCode) rejected := by
  intro payload client env
  have hfits : payload.Fits := ⟨rfl, by simp [payload, handshakePayload], haddresses, Nat.zero_le _,
    Nat.zero_le _⟩
  have hread := decodeNoisePayload_encodeNoisePayload hfits
  have hshort := length_encodeNoisePayload_le hfits rfl
  have hmax : maxBufferDecode = 65536 := rfl
  obtain ⟨i, msg, r, hsend, hmsg, hne, hrecv, hrs, hback⟩ := noise_exchange h sI sR eI eR
    (computePrologue blake2b) (encodeNoisePayload payload)
  have hsent : client = (i, client.2) ∧ client.2.value = some (encodeHandshakeMsg { noise := msg }) := by
    simp only [client, peerHandshake, hsend, and_self]
  have hlength : msg.length ≤ 60096 := hmsg.trans (Nat.add_le_add_right hshort 96)
  have hdecoded := decodeHandshakeMsg_encodeHandshakeMsg (m := { noise := msg }) (hlength.trans (by omega))
  refine ⟨_, hsent.2, length_encodeHandshakeMsg_le hlength, by rw [hdecoded], fun router req value
    hforwarded hcarries hmode => ?_⟩
  have hcarried : noiseOf value = msg := by rw [hcarries, noiseOf, hdecoded]
  obtain ⟨call, hcall, hmessage, hanswer⟩ := handle_of_carries hforwarded hcarried hne hmode
  -- the first message, at the server
  have hreceived : received L blake2b (generateKeypair L sR) msg = (r, some (encodeNoisePayload payload)) :=
    hrecv
  refine ⟨call, ⟨msg, r.rs, payload⟩, hcall, ?_, hrs, rfl, ?_⟩
  · rw [hmessage]
    simp only [env, Server.decodeHandshake, noiseEnv, hreceived, Option.map_some, hread]
  intro d draw rejected hpending hephemeral hours hrelays
  have hstate : (received L blake2b (generateKeypair L sR) d.pending.noise).1 = r := by
    rw [hpending, hreceived]
  -- the second message, which the server writes
  have herror : Server.handshakeError d.pending.remotePayload rejected =
      if rejected then errorAborted else errorNone := by
    rw [hpending]
    rfl
  obtain ⟨hreplyFits, hreply6, hreplyError⟩ := responsePayload_spec env draw
    (Server.handshakeError d.pending.remotePayload rejected) hours hrelays
  obtain ⟨r', rest, i', hreply, hrest, hopen, hr', hi', htx, hrx, hhash⟩ := hback
    (encodeNoisePayload (Server.responsePayload env d draw
      (Server.handshakeError d.pending.remotePayload rejected)))
  have hwritten : (received L blake2b (generateKeypair L sR) d.pending.noise).1.send L
      (encodeNoisePayload (Server.responsePayload
        (noiseEnv L blake2b (generateKeypair L sR) secretOf options) d draw
        (Server.handshakeError d.pending.remotePayload rejected))) (generateKeypair L eR) =
      (r', (generateKeypair L eR).publicKey.toList ++ rest) := by
    rw [hstate]
    exact hreply
  obtain ⟨conn, hconn, hnoise, hkeys, hcode, hhasError⟩ := finalizeHandshake_of_send hephemeral hdrawn
    hwritten hr'
  have hreplyLength : conn.replyNoise.length ≤ maxBufferDecode := by
    have hwritten := length_encodeNoisePayload_le hreplyFits hreply6
    rw [hnoise, List.length_append, List.Vector.toList_length]
    omega
  obtain ⟨answered, hanswered, hback⟩ := hanswer conn.replyNoise hreplyLength
  refine ⟨conn, answered, hconn, hanswered, fun back hcarriesBack => ?_⟩
  -- what the client makes of it
  have hresult := onResponse_of_carries (generateKeypair L sR).publicKey
    (hcarriesBack.trans (hback.trans hnoise)) hopen hi'
  have hclient : client.1 = i := congrArg Prod.fst hsent.1
  rw [hclient, hresult, HandshakeResult.ofReply, decodeNoisePayload_encodeNoisePayload hreplyFits]
  refine ⟨by rw [hcode], ?_, ?_, ?_, ?_, ?_⟩
  · rw [hreplyError, herror]
    cases rejected <;> rfl
  · rw [hhasError, hcode, herror]
    cases rejected <;> rfl
  · rw [hkeys]
    exact htx
  · rw [hkeys]
    exact hrx
  · rw [hkeys]
    exact hhash

/-- The first message comes to the server as it was sent, and the reply goes straight back. -/
theorem peerHandshake_agrees_toy :
    let keypair := fun byte => generateKeypair Noise.toySodium (Noise.seedOf byte)
    let env := noiseEnv Noise.toySodium (fun _ => ⟨List.Vector.replicate 32 0⟩) (keypair 2)
      (fun _ => (keypair 4).secretKey) ⟨fun _ => none, fun _ _ _ => none, true, false, none, 10000⟩
    let client := peerHandshake Noise.toySodium (fun _ => ⟨List.Vector.replicate 32 0⟩) .zero (keypair 1)
      (keypair 2).publicKey (handshakePayload 7 firewallOpen [.zero] none) (keypair 3)
    ∃ (req : Incoming) (call : HandlerCall) (pending : PendingHandshake), req.value = client.2.value ∧
      Router.listeningRouter.handle .handshake req = some call ∧
      Server.decodeHandshake env call.message = some pending ∧
      ∀ rejected, ∃ conn answered,
        Server.finalizeHandshake env ⟨pending, 0, true, none, [.zero], []⟩ ⟨(keypair 4).publicKey, 9, false⟩
          rejected = some conn ∧
        answerValue (call.replyFn conn.replyNoise) = some answered ∧
        Established (onResponse Noise.toySodium client.1 (keypair 2).publicKey (some answered)) conn
          (Server.responsePayload env ⟨pending, 0, true, none, [.zero], []⟩
            ⟨(keypair 4).publicKey, 9, false⟩ conn.errorCode) rejected := by
  intro keypair env client
  obtain ⟨sent, hsent, hlength, hmode, hserver⟩ := @peerHandshake_agrees Noise.toySodium
    (fun _ => ⟨List.Vector.replicate 32 0⟩) Noise.toySodium_correct (Noise.seedOf 1) (Noise.seedOf 2)
    (Noise.seedOf 3) (Noise.seedOf 4) (fun _ => (keypair 4).secretKey) rfl
    ⟨fun _ => none, fun _ _ _ => none, true, false, none, 10000⟩ .zero 7 firewallOpen [.zero] (by decide)
    none
  let req : Incoming := {
    fromAddr := .zero
    command := cmdPeerHandshake
    target := some ⟨List.Vector.replicate 32 0⟩
    value := some sent
    valueFits := by rintro v ⟨⟩; exact hlength }
  obtain ⟨call, pending, hcall, hdecode, -, -, hdecided⟩ := hserver Router.listeningRouter req sent rfl rfl
    (.inl hmode)
  refine ⟨req, call, pending, hsent.symm, hcall, hdecode, fun rejected => ?_⟩
  obtain ⟨conn, answered, hconn, hanswered, hestablished⟩ := hdecided ⟨pending, 0, true, none, [.zero], []⟩
    ⟨(keypair 4).publicKey, 9, false⟩ rejected rfl rfl (by simp [arrayMaxLength]) (Nat.zero_le _)
  exact ⟨conn, answered, hconn, hanswered, hestablished answered rfl⟩

/-! ## The streams -/

open SecretStream in
/-- The ends of the secret streams after a handshake: the client is `a`, and the initiator. -/
def streamEnds (client server : NoiseKeys) (header : Protomux.Side → Header)
    (keepAliveMs : Protomux.Side → UInt64) : Ends where
  handshake
    | .a => ⟨client.txKey, client.rxKey, client.handshakeHash, true⟩
    | .b => ⟨server.txKey, server.rxKey, server.handshakeHash, false⟩
  header := header
  keepAliveMs := keepAliveMs

open SecretStream in
/-- **The streams after a handshake** deliver what is written, in every run over an honest link. -/
theorem streams_deliver {result : HandshakeResult} {conn : ServerConnection} {reply : NoisePayload}
    {rejected : Bool} (h : Established result conn reply rejected) (S : SecretStream.Sodium)
    (header : Protomux.Side → Header) (keepAliveMs : Protomux.Side → UInt64) {t : Protomux.Side} :
    let start := Pair.init S (streamEnds result.keys conn.keys header keepAliveMs)
    ∀ events, Runs.EveryStep (pairStep S) (HonestLink t) start events →
      Runs.EveryState (pairStep S) (Pair.Delivers t) start events := by
  intro start events hevents
  have hagree : (streamEnds result.keys conn.keys header keepAliveMs).Agree := by
    refine ⟨?_, ?_, ?_⟩ <;> rintro (_ | _)
    exacts [h.rx, h.tx.symm, h.hash, h.hash.symm, rfl, rfl]
  exact (Runs.everyState_of_everyStep honest_step ⟨pairWf_init, honest_init hagree t, rfl⟩
    hevents).mono fun p h => delivers_of_honest h.1 h.2.1 h.2.2

/-! ## The secret of a holepunch -/

/-- The secret box of libsodium. What is put into it is sixteen bytes longer, and can be taken out with
the same nonce and key. -/
structure Secretbox where
  easy : List UInt8 → List UInt8 → List.Vector UInt8 32 → List UInt8
  openEasy : List UInt8 → List UInt8 → List.Vector UInt8 32 → Option (List UInt8)
  length_easy : ∀ data nonce key, (easy data nonce key).length = data.length + 16
  openEasy_easy : ∀ data nonce key, openEasy (easy data nonce key) nonce key = some data

section SecurePayload

variable (box : Secretbox) (keyedHash : List UInt8 → List UInt8 → List.Vector UInt8 32)

/-- The secret, of which both ends make their own `SecurePayload`. -/
def holepunchSecret (blake2b : List UInt8 → NodeId) (keys : NoiseKeys) : List.Vector UInt8 32 :=
  keyedHash keys.handshakeHash.toList (computeNs blake2b 1).bytes.toList

variable (nonce : List UInt8 → List.Vector UInt8 24) (sharedSecret : List.Vector UInt8 32)

def encrypt (data : List UInt8) : List UInt8 :=
  (nonce data).toList ++ box.easy data (nonce data).toList sharedSecret

def decrypt (data : List UInt8) : Option (List UInt8) :=
  if data.length < 24 + 16 then none else box.openEasy (data.drop 24) (data.take 24) sharedSecret

lemma length_encrypt (data : List UInt8) :
    (encrypt box nonce sharedSecret data).length = data.length + 40 := by
  rw [encrypt, List.length_append, List.Vector.toList_length, box.length_easy]
  omega

lemma decrypt_encrypt (data : List UInt8) :
    decrypt box sharedSecret (encrypt box nonce sharedSecret data) = some data := by
  have hlength : ¬ (encrypt box nonce sharedSecret data).length < 24 + 16 := by
    rw [length_encrypt]
    omega
  rw [decrypt, if_neg hlength, encrypt, List.drop_left' (nonce data).toList_length,
    List.take_left' (nonce data).toList_length, box.openEasy_easy]

/-- A `SecurePayload`, with a secret of its own for its tokens. -/
def securePayload (localSecret : List.Vector UInt8 32) : SecurePayload where
  encrypt := encrypt box nonce sharedSecret
  decrypt := decrypt box sharedSecret
  token host := keyedHash localSecret.toList (host.map fun c => UInt8.ofNat c.toNat)
  length_encrypt := length_encrypt box nonce sharedSecret
  decrypt_encrypt := decrypt_encrypt box nonce sharedSecret

end SecurePayload

open Holepunch

/-- What one end encrypts in a reply, the other end reads. -/
lemma read_of_decrypts {client server : SecurePayload}
    (h : ∀ data, client.decrypt (server.encrypt data) = some data) {p : HolepunchPayload}
    (hfirewall : p.firewall ≤ 3) (haddresses : p.addresses.length ≤ arrayMaxLength)
    {reply : HolepunchReply} {clientAddress : Ipv4Address}
    (hvalue : reply.value = encodeHolepunchMsg (responseMsg server clientAddress p)) :
    reply.read client = some p := by
  have hmsg : decodeHolepunchMsg reply.value = responseMsg server clientAddress p := by
    rw [hvalue]
    exact decodeHolepunchMsg_encodeHolepunchMsg (show (1 : UInt32) ≤ 0xFF by decide)
      (length_encrypt_le server haddresses)
  rw [HolepunchReply.read, hmsg, responseMsg, h, Option.map_some,
    decodeHolepunchPayload_encodeHolepunchPayload hfirewall haddresses]

/-- A box that puts sixteen zeros behind the data. -/
def plainBox : Secretbox where
  easy data _ _ := data ++ List.replicate 16 0
  openEasy data _ _ := some (data.take (data.length - 16))
  length_easy := by simp
  openEasy_easy := by simp

end HyperDHT.PeerConnect
