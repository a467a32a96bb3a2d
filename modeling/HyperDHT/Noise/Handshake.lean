import HyperDHT.Noise.Symmetric

/-!
# The Noise IK handshake

`NoiseIK`: the initiator knows the static key of the responder, and two messages are exchanged.

    msg1 (→): e, es, s, ss
    msg2 (←): e, ee, se

## Main definitions

* `Noise.NoiseIK` — one end of a handshake.
* `Noise.NoiseIK.send`, `Noise.NoiseIK.recv` — the two methods.
* `Noise.handshake` — a run of both ends: `send`, `recv`, `send`, `recv`.

## Design

The keypair that `generate_keypair` draws for an end is an argument of `send`. `none` stands for the early returns of
the parts of a method. The keys of an end that is not complete are zero.
-/

set_option autoImplicit false

namespace HyperDHT.Noise

/-- `PROTOCOL_NAME`, *Noise_IK_Ed25519_ChaChaPoly_BLAKE2b*. -/
def protocolName : List UInt8 :=
  [78, 111, 105, 115, 101, 95, 73, 75, 95, 69, 100, 50, 53, 53, 49, 57, 95, 67, 104, 97, 67, 104, 97,
    80, 111, 108, 121, 95, 66, 76, 65, 75, 69, 50, 98]

/-- One end of a handshake: its own static and ephemeral keys, those of the remote end, and the state. -/
structure NoiseIK where
  initiator : Bool
  complete : Bool := false
  messageIndex : ℕ := 0
  s : Keypair
  /-- The ephemeral keypair, once it is generated. -/
  e : Option Keypair := none
  rs : PubKey := List.Vector.replicate 32 0
  re : PubKey := List.Vector.replicate 32 0
  rsKnown : Bool := false
  symmetric : SymmetricState
  corrupt : Bool := false
  tx : Key := List.Vector.replicate 32 0
  rx : Key := List.Vector.replicate 32 0
  hash : Hash := List.Vector.replicate 64 0

namespace NoiseIK

variable (L : Sodium)

/-- The symmetric state at the start: the protocol name, the prologue, and the responder's static key. -/
def start (prologue : List UInt8) (responderKey : PubKey) : SymmetricState :=
  let named : SymmetricState :=
    { digest := copyN 64 protocolName, chainingKey := copyN 64 protocolName }
  (named.mixHash L prologue).mixHash L responderKey.toList

/-- `NoiseIK::NoiseIK` of an initiator. -/
def newInitiator (s : Keypair) (prologue : List UInt8) (remoteStatic : PubKey) : NoiseIK where
  initiator := true
  s := s
  rs := remoteStatic
  rsKnown := true
  symmetric := start L prologue remoteStatic

/-- `NoiseIK::NoiseIK` of a responder. -/
def newResponder (s : Keypair) (prologue : List UInt8) : NoiseIK where
  initiator := false
  s := s
  symmetric := start L prologue s.publicKey

/-- `is_complete`. -/
def isComplete (n : NoiseIK) : Bool := n.complete

/-- The handshake state is corrupt. -/
def fail (n : NoiseIK) (symmetric : SymmetricState) : NoiseIK :=
  { n with symmetric := symmetric, corrupt := true }

/-- The end of both methods: the keys are split after the second message. -/
def finish (n : NoiseIK) : NoiseIK :=
  if n.messageIndex ≥ 2 then
    { n with
      tx := if n.initiator then (n.symmetric.split L).1 else (n.symmetric.split L).2
      rx := if n.initiator then (n.symmetric.split L).2 else (n.symmetric.split L).1
      hash := n.symmetric.digest
      complete := true }
  else n

/-- The keys of message 1, as the initiator sends them: e, es, s, ss. -/
def sendKeys1 (n : NoiseIK) (e : Keypair) : NoiseIK × Option (List UInt8) :=
  let s1 := (n.symmetric.mixHash L e.publicKey.toList).mixKey L n.rs e
  if s1.corrupt then (n.fail s1, none)
  else
    let (s2, encS) := s1.encryptAndHash L n.s.publicKey.toList
    let s3 := s2.mixKey L n.rs n.s
    if s3.corrupt then (n.fail s3, none)
    else ({ n with symmetric := s3 }, some (e.publicKey.toList ++ encS))

/-- The keys of message 2, as the responder sends them: e, ee, se. -/
def sendKeys2 (n : NoiseIK) (e : Keypair) : NoiseIK × Option (List UInt8) :=
  let s1 := (n.symmetric.mixHash L e.publicKey.toList).mixKey L n.re e
  if s1.corrupt then (n.fail s1, none)
  else
    let s2 := s1.mixKey L n.rs e
    if s2.corrupt then (n.fail s2, none)
    else ({ n with symmetric := s2 }, some e.publicKey.toList)

/-- The payload of a message is sent behind the keys. -/
def sendPayload (n : NoiseIK) (keys payload : List UInt8) : NoiseIK × List UInt8 :=
  let (symmetric, encPayload) := n.symmetric.encryptAndHash L payload
  (finish L { n with symmetric := symmetric, messageIndex := n.messageIndex + 1 }, keys ++ encPayload)

/-- It is the turn of this end to send. -/
def maySend (n : NoiseIK) : Bool :=
  !n.complete && !n.corrupt &&
    !(n.messageIndex = 0 && !n.initiator) && !(n.messageIndex = 1 && n.initiator)

/-- `NoiseIK::send`; `fresh` is what `generate_keypair` draws. -/
def send (n : NoiseIK) (payload : List UInt8) (fresh : Keypair) : NoiseIK × List UInt8 :=
  if n.maySend then
    let e := n.e.getD fresh
    let n := { n with e := some e }
    match if n.initiator then sendKeys1 L n e else sendKeys2 L n e with
    | (n, none) => (n, [])
    | (n, some keys) => sendPayload L n keys payload
  else (n, [])

/-- The keys of message 1, as the responder reads them, and the bytes behind them. -/
def recvKeys1 (n : NoiseIK) (msg : List UInt8) : NoiseIK × Option (List UInt8) :=
  if msg.length < pkLen then ({ n with corrupt := true }, none)
  else
    let re : PubKey := copyN 32 (msg.take pkLen)
    let n := { n with re := re }
    let s1 := (n.symmetric.mixHash L re.toList).mixKey L re n.s
    if s1.corrupt then (n.fail s1, none)
    else if (msg.drop pkLen).length < pkLen + macLen then (n.fail s1, none)
    else
      match s1.decryptAndHash L ((msg.drop pkLen).take (pkLen + macLen)) with
      | (s2, none) => (n.fail s2, none)
      | (s2, some decS) =>
        let n := { n with rs := copyN 32 decS, rsKnown := true }
        let s3 := s2.mixKey L n.rs n.s
        if s3.corrupt then (n.fail s3, none)
        else ({ n with symmetric := s3 }, some ((msg.drop pkLen).drop (pkLen + macLen)))

/-- The keys of message 2, as the initiator reads them, and the bytes behind them. -/
def recvKeys2 (n : NoiseIK) (msg : List UInt8) : NoiseIK × Option (List UInt8) :=
  if msg.length < pkLen then ({ n with corrupt := true }, none)
  else
    let re : PubKey := copyN 32 (msg.take pkLen)
    let n := { n with re := re }
    let e := n.e.getD ⟨List.Vector.replicate 32 0, List.Vector.replicate 64 0⟩
    let s1 := (n.symmetric.mixHash L re.toList).mixKey L re e
    if s1.corrupt then (n.fail s1, none)
    else
      let s2 := s1.mixKey L re n.s
      if s2.corrupt then (n.fail s2, none)
      else ({ n with symmetric := s2 }, some (msg.drop pkLen))

/-- The payload of a message is read from the bytes behind the keys. -/
def recvPayload (n : NoiseIK) (rest : List UInt8) : NoiseIK × Option (List UInt8) :=
  match n.symmetric.decryptAndHash L rest with
  | (symmetric, none) => (n.fail symmetric, none)
  | (symmetric, some payload) =>
    (finish L { n with symmetric := symmetric, messageIndex := n.messageIndex + 1 }, some payload)

/-- It is the turn of this end to receive. -/
def mayRecv (n : NoiseIK) : Bool :=
  !n.complete && !n.corrupt &&
    !(n.messageIndex = 0 && n.initiator) && !(n.messageIndex = 1 && !n.initiator)

/-- `NoiseIK::recv`. -/
def recv (n : NoiseIK) (msg : List UInt8) : NoiseIK × Option (List UInt8) :=
  if n.mayRecv then
    match if n.initiator then recvKeys2 L n msg else recvKeys1 L n msg with
    | (n, none) => (n, none)
    | (n, some rest) => recvPayload L n rest
  else (n, none)

end NoiseIK

/-- What the two ends are, and what each has read, after a handshake. -/
structure Outcome where
  initiator : NoiseIK
  responder : NoiseIK
  /-- The payload that the responder read. -/
  payload1 : Option (List UInt8)
  /-- The payload that the initiator read. -/
  payload2 : Option (List UInt8)

/-- Each end sends one message, and the other one receives it; `e1` and `e2` are the ephemeral keypairs drawn. -/
def handshake (L : Sodium) (initiator responder : NoiseIK) (p1 p2 : List UInt8) (e1 e2 : Keypair) :
    Outcome :=
  let (i1, m1) := initiator.send L p1 e1
  let (r1, payload1) := responder.recv L m1
  let (r2, m2) := r1.send L p2 e2
  let (i2, payload2) := i1.recv L m2
  ⟨i2, r2, payload1, payload2⟩

end HyperDHT.Noise
