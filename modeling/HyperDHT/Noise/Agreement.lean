import HyperDHT.Noise.Handshake

/-!
# Agreement of the two ends

If both ends use the same prologue and the initiator knows the responder's static key, a handshake completes both ends with
the same keys; if one of these differs, it completes neither.

## Main definitions

* `Noise.Agrees` — both ends are complete, have the same keys, and have read each other's payloads.
* `Noise.startInputs` — what an end hashes before the first thing that is decrypted.
* `Noise.Distinguishes` — no collision among these, and the cipher rejects another digest.

## Main results

* `Noise.keys1_lockstep`, `keys2_lockstep`, `payload_lockstep` — the parts of a message leave both ends in the same
  symmetric state.
* `Noise.agrees_handshake` — an honest handshake.
* `Noise.not_complete_of_distinguishes` — a handshake of ends that start differently.
* `Noise.handshake_agreement` — both.
-/

set_option autoImplicit false

namespace HyperDHT.Noise

open SymmetricState NoiseIK

/-! ## The claim -/

/-- **Agreement**: both ends are complete, the responder has learned the initiator's static key, each end has read the
payload of the other, and the keys and the hash are the same. -/
structure Agrees (o : Outcome) (initiatorKey : PubKey) (p1 p2 : List UInt8) : Prop where
  complete : o.initiator.complete = true ∧ o.responder.complete = true
  rs : o.responder.rs = initiatorKey
  payloads : o.payload1 = some p1 ∧ o.payload2 = some p2
  tx : o.initiator.tx = o.responder.rx
  rx : o.initiator.rx = o.responder.tx
  hash : o.initiator.hash = o.responder.hash

/-! ## The parts of a message -/

section Lockstep

variable {L : Sodium} {i r : NoiseIK}

lemma exchange (h : L.Correct) (s : SymmetricState) (a b : Seed) :
    s.mixKey L (generateKeypair L b).publicKey (generateKeypair L a) =
        s.mixKey L (generateKeypair L a).publicKey (generateKeypair L b) ∧
      (s.mixKey L (generateKeypair L b).publicKey (generateKeypair L a)).corrupt = s.corrupt ∧
      ∃ key, (s.mixKey L (generateKeypair L b).publicKey (generateKeypair L a)).cipher =
        { key := some key, nonce := 0 } :=
  ⟨mixKey_comm (h.dh_comm a b), mixKey_of_ne_zero (h.dh_ne_zero a b)⟩

lemma shift_publicKey (key : PubKey) (rest : List UInt8) :
    ¬ (key.toList ++ rest).length < pkLen ∧ (key.toList ++ rest).take pkLen = key.toList ∧
      (key.toList ++ rest).drop pkLen = rest := by
  have hlength : key.toList.length = pkLen := key.toList_length
  refine ⟨by rw [List.length_append, hlength]; omega, ?_, ?_⟩
  · rw [← hlength, List.take_left]
  · rw [← hlength, List.drop_left]

section Keys

variable {n : NoiseIK} {e : Keypair} {s1 s2 s3 : SymmetricState} {encS rest : List UInt8}

lemma sendKeys1_eq (h1 : (n.symmetric.mixHash L e.publicKey.toList).mixKey L n.rs e = s1)
    (hok1 : s1.corrupt = false) (h2 : s1.encryptAndHash L n.s.publicKey.toList = (s2, encS))
    (h3 : s2.mixKey L n.rs n.s = s3) (hok3 : s3.corrupt = false) :
    sendKeys1 L n e = ({ n with symmetric := s3 }, some (e.publicKey.toList ++ encS)) := by
  simp [sendKeys1, h1, hok1, h2, h3, hok3]

lemma recvKeys1_eq {re rs : PubKey}
    (h1 : (n.symmetric.mixHash L re.toList).mixKey L re n.s = s1) (hok1 : s1.corrupt = false)
    (hlength : encS.length = pkLen + macLen) (h2 : s1.decryptAndHash L encS = (s2, some rs.toList))
    (h3 : s2.mixKey L rs n.s = s3) (hok3 : s3.corrupt = false) :
    recvKeys1 L n (re.toList ++ (encS ++ rest)) =
      ({ n with re := re, rs := rs, rsKnown := true, symmetric := s3 }, some rest) := by
  obtain ⟨hlong, htake, hdrop⟩ := shift_publicKey re (encS ++ rest)
  have hlong2 : ¬ (encS ++ rest).length < pkLen + macLen := by
    rw [List.length_append, hlength]
    omega
  have htake2 : (encS ++ rest).take (pkLen + macLen) = encS := by rw [← hlength, List.take_left]
  have hdrop2 : (encS ++ rest).drop (pkLen + macLen) = rest := by rw [← hlength, List.drop_left]
  simp only [recvKeys1, if_neg hlong, htake, hdrop, copyN_toList, h1, hok1, if_neg hlong2, htake2,
    hdrop2, h2, h3, hok3]
  rfl

lemma sendKeys2_eq (h1 : (n.symmetric.mixHash L e.publicKey.toList).mixKey L n.re e = s1)
    (hok1 : s1.corrupt = false) (h2 : s1.mixKey L n.rs e = s2) (hok2 : s2.corrupt = false) :
    sendKeys2 L n e = ({ n with symmetric := s2 }, some e.publicKey.toList) := by
  simp [sendKeys2, h1, hok1, h2, hok2]

lemma recvKeys2_eq {re : PubKey} (he : n.e = some e)
    (h1 : (n.symmetric.mixHash L re.toList).mixKey L re e = s1) (hok1 : s1.corrupt = false)
    (h2 : s1.mixKey L re n.s = s2) (hok2 : s2.corrupt = false) :
    recvKeys2 L n (re.toList ++ rest) = ({ n with re := re, symmetric := s2 }, some rest) := by
  obtain ⟨hlong, htake, hdrop⟩ := shift_publicKey re rest
  simp only [recvKeys2, if_neg hlong, htake, hdrop, copyN_toList, he, Option.getD_some, h1, hok1, h2, hok2]
  rfl

end Keys

/-- **The keys of message 1** leave both ends in the same symmetric state. -/
lemma keys1_lockstep (sI sR eI : Seed) (h : L.Correct) (hsame : r.symmetric = i.symmetric)
    (hok : i.symmetric.corrupt = false) (hi : i.s = generateKeypair L sI)
    (hr : r.s = generateKeypair L sR) (hknown : i.rs = (generateKeypair L sR).publicKey) :
    ∃ σ encS key, σ.corrupt = false ∧ σ.cipher = { key := some key, nonce := 0 } ∧
      sendKeys1 L i (generateKeypair L eI) =
        ({ i with symmetric := σ }, some ((generateKeypair L eI).publicKey.toList ++ encS)) ∧
      ∀ rest, recvKeys1 L r ((generateKeypair L eI).publicKey.toList ++ (encS ++ rest)) =
        ({ r with
            re := (generateKeypair L eI).publicKey
            rs := (generateKeypair L sI).publicKey
            rsKnown := true
            symmetric := σ }, some rest) := by
  -- es
  obtain ⟨hcomm1, hok1, key1, hkey1⟩ :=
    exchange h (i.symmetric.mixHash L (generateKeypair L eI).publicKey.toList) eI sR
  generalize hs1 : (i.symmetric.mixHash L (generateKeypair L eI).publicKey.toList).mixKey L
    (generateKeypair L sR).publicKey (generateKeypair L eI) = s1 at hcomm1 hok1 hkey1
  have hok1 : s1.corrupt = false := hok1.trans hok
  -- s
  have hdecrypt := decryptAndHash_encryptAndHash h hkey1 (by decide) (generateKeypair L sI).publicKey.toList
  have hlength := length_encryptAndHash h hkey1 (by decide) (generateKeypair L sI).publicKey.toList
  have hok2 : (s1.encryptAndHash L (generateKeypair L sI).publicKey.toList).1.corrupt = false := hok1
  rcases hs2 : s1.encryptAndHash L (generateKeypair L sI).publicKey.toList with ⟨s2, encS⟩
  rw [hs2] at hdecrypt hlength hok2
  -- ss
  obtain ⟨hcomm3, hok3, key3, hkey3⟩ := exchange h s2 sI sR
  generalize hs3 : s2.mixKey L (generateKeypair L sR).publicKey (generateKeypair L sI) = s3
    at hcomm3 hok3 hkey3
  have hok3 : s3.corrupt = false := hok3.trans hok2
  refine ⟨s3, encS, key3, hok3, hkey3, ?_, fun rest => ?_⟩
  · exact sendKeys1_eq (by rw [hknown, hs1]) hok1 (by rw [hi, hs2]) (by rw [hknown, hi, hs3]) hok3
  · exact recvKeys1_eq (by rw [hsame, hr, ← hcomm1]) hok1 (by simpa [pkLen, macLen] using hlength) hdecrypt
      (by rw [hr, ← hcomm3]) hok3

/-- **The keys of message 2** leave both ends in the same symmetric state. -/
lemma keys2_lockstep (sI eI eR : Seed) (h : L.Correct) (hsame : i.symmetric = r.symmetric)
    (hok : r.symmetric.corrupt = false) (hi : i.s = generateKeypair L sI)
    (he : i.e = some (generateKeypair L eI)) (hre : r.re = (generateKeypair L eI).publicKey)
    (hrs : r.rs = (generateKeypair L sI).publicKey) :
    ∃ σ key, σ.corrupt = false ∧ σ.cipher = { key := some key, nonce := 0 } ∧
      sendKeys2 L r (generateKeypair L eR) =
        ({ r with symmetric := σ }, some (generateKeypair L eR).publicKey.toList) ∧
      ∀ rest, recvKeys2 L i ((generateKeypair L eR).publicKey.toList ++ rest) =
        ({ i with re := (generateKeypair L eR).publicKey, symmetric := σ }, some rest) := by
  -- ee
  obtain ⟨hcomm1, hok1, -⟩ :=
    exchange h (r.symmetric.mixHash L (generateKeypair L eR).publicKey.toList) eR eI
  generalize hs1 : (r.symmetric.mixHash L (generateKeypair L eR).publicKey.toList).mixKey L
    (generateKeypair L eI).publicKey (generateKeypair L eR) = s1 at hcomm1 hok1
  have hok1 : s1.corrupt = false := hok1.trans hok
  -- se
  obtain ⟨hcomm2, hok2, key2, hkey2⟩ := exchange h s1 eR sI
  generalize hs2 : s1.mixKey L (generateKeypair L sI).publicKey (generateKeypair L eR) = s2
    at hcomm2 hok2 hkey2
  have hok2 : s2.corrupt = false := hok2.trans hok1
  refine ⟨s2, key2, hok2, hkey2, ?_, fun rest => ?_⟩
  · exact sendKeys2_eq (by rw [hre, hs1]) hok1 (by rw [hrs, hs2]) hok2
  · exact recvKeys2_eq he (by rw [hsame, ← hcomm1]) hok1 (by rw [hi, ← hcomm2]) hok2

/-- **The payload** leaves both ends in the same symmetric state. -/
lemma payload_lockstep (h : L.Correct) {σ : SymmetricState} {key : Key}
    (hcipher : σ.cipher = { key := some key, nonce := 0 }) (payload : List UInt8) :
    ∃ σ' enc, σ'.corrupt = σ.corrupt ∧
      (∀ (n : NoiseIK) (keys : List UInt8), n.symmetric = σ → sendPayload L n keys payload =
        (finish L { n with symmetric := σ', messageIndex := n.messageIndex + 1 }, keys ++ enc)) ∧
      ∀ n : NoiseIK, n.symmetric = σ → recvPayload L n enc =
        (finish L { n with symmetric := σ', messageIndex := n.messageIndex + 1 }, some payload) := by
  refine ⟨(σ.encryptAndHash L payload).1, (σ.encryptAndHash L payload).2, rfl, ?_, ?_⟩
  · rintro n keys rfl
    rfl
  · rintro n rfl
    rw [recvPayload, decryptAndHash_encryptAndHash h hcipher (by decide)]

end Lockstep

section Methods

variable {L : Sodium} {n n' : NoiseIK} {e : Keypair} {keys msg rest payload : List UInt8}

lemma send_eq (hmay : n.maySend = true) (he : n.e.getD e = e)
    (hkeys : (if n.initiator then sendKeys1 L { n with e := some e } e
      else sendKeys2 L { n with e := some e } e) = (n', some keys)) :
    n.send L payload e = sendPayload L n' keys payload := by
  simp only [send, hmay, he, if_true, hkeys]

lemma recv_eq (hmay : n.mayRecv = true)
    (hkeys : (if n.initiator then recvKeys2 L n msg else recvKeys1 L n msg) = (n', some rest)) :
    n.recv L msg = recvPayload L n' rest := by
  simp only [recv, hmay, if_true, hkeys]

end Methods

/-! ## An honest handshake -/

/-- **An honest handshake**: both ends agree. -/
theorem agrees_handshake {L : Sodium} (h : L.Correct) (sI sR eI eR : Seed) (prologue p1 p2 : List UInt8) :
    Agrees (handshake L
      (newInitiator L (generateKeypair L sI) prologue (generateKeypair L sR).publicKey)
      (newResponder L (generateKeypair L sR) prologue) p1 p2 (generateKeypair L eI) (generateKeypair L eR))
      (generateKeypair L sI).publicKey p1 p2 := by
  let i := newInitiator L (generateKeypair L sI) prologue (generateKeypair L sR).publicKey
  let r := newResponder L (generateKeypair L sR) prologue
  -- message 1
  obtain ⟨σ1, encS, key1, hok1, hkey1, hsendKeys1, hrecvKeys1⟩ := keys1_lockstep
    (i := { i with e := some (generateKeypair L eI) }) (r := r) sI sR eI h rfl rfl rfl rfl rfl
  obtain ⟨σ2, enc1, hok2, hsendPayload1, hrecvPayload1⟩ := payload_lockstep h hkey1 p1
  let i1 : NoiseIK := { i with e := some (generateKeypair L eI), symmetric := σ2, messageIndex := 1 }
  let r1 : NoiseIK :=
    { r with
      re := (generateKeypair L eI).publicKey
      rs := (generateKeypair L sI).publicKey
      rsKnown := true
      symmetric := σ2
      messageIndex := 1 }
  have hsend1 : i.send L p1 (generateKeypair L eI) =
      (i1, (generateKeypair L eI).publicKey.toList ++ encS ++ enc1) :=
    (send_eq (n := i) rfl rfl hsendKeys1).trans (hsendPayload1 _ _ rfl)
  have hrecv1 : r.recv L ((generateKeypair L eI).publicKey.toList ++ encS ++ enc1) = (r1, some p1) := by
    rw [List.append_assoc]
    exact (recv_eq (n := r) rfl (hrecvKeys1 enc1)).trans (hrecvPayload1 _ rfl)
  -- message 2
  obtain ⟨σ3, key3, hok3, hkey3, hsendKeys2, hrecvKeys2⟩ := keys2_lockstep
    (i := i1) (r := { r1 with e := some (generateKeypair L eR) }) sI eI eR h rfl
    (hok2.trans hok1) rfl rfl rfl rfl
  obtain ⟨σ4, enc2, -, hsendPayload2, hrecvPayload2⟩ := payload_lockstep h hkey3 p2
  let r2 : NoiseIK :=
    finish L { r1 with e := some (generateKeypair L eR), symmetric := σ4, messageIndex := 2 }
  let i2 : NoiseIK :=
    finish L { i1 with re := (generateKeypair L eR).publicKey, symmetric := σ4, messageIndex := 2 }
  have hsend2 : r1.send L p2 (generateKeypair L eR) =
      (r2, (generateKeypair L eR).publicKey.toList ++ enc2) :=
    (send_eq (n := r1) rfl rfl hsendKeys2).trans (hsendPayload2 _ _ rfl)
  have hrecv2 : i1.recv L ((generateKeypair L eR).publicKey.toList ++ enc2) = (i2, some p2) :=
    (recv_eq (n := i1) rfl (hrecvKeys2 enc2)).trans (hrecvPayload2 _ rfl)
  have hrun : handshake L i r p1 p2 (generateKeypair L eI) (generateKeypair L eR) =
      ⟨i2, r2, some p1, some p2⟩ := by
    simp only [handshake, hsend1, hrecv1, hsend2, hrecv2]
  have hgoal : Agrees (handshake L i r p1 p2 (generateKeypair L eI) (generateKeypair L eR))
      (generateKeypair L sI).publicKey p1 p2 := by
    rw [hrun]
    exact ⟨⟨rfl, rfl⟩, rfl, ⟨rfl, rfl⟩, rfl, rfl, rfl⟩
  exact hgoal

/-! ## Ends that start differently -/

/-- The digest at the first encryption: of the prologue, the static key of the responder, and the ephemeral key of the
initiator. -/
def startDigest (L : Sodium) (prologue : List UInt8) (responderKey ephemeral : PubKey) : Hash :=
  ((start L prologue responderKey).mixHash L ephemeral.toList).digest

/-- What is hashed for it. -/
def startInputs (L : Sodium) (prologue : List UInt8) (responderKey ephemeral : PubKey) :
    List (List UInt8) :=
  let d0 : Hash := copyN 64 protocolName
  let d1 := L.generichash (d0.toList ++ prologue)
  let d2 := L.generichash (d1.toList ++ responderKey.toList)
  [d0.toList ++ prologue, d1.toList ++ responderKey.toList, d2.toList ++ ephemeral.toList]

/-- The hash has no collision among some inputs, and the cipher rejects what was encrypted with one digest as its
associated data where the other digest is given. -/
structure Distinguishes (L : Sodium) (inputs inputs' : List (List UInt8)) (digest digest' : Hash) :
    Prop where
  hash : ∀ x ∈ inputs, ∀ y ∈ inputs', L.generichash x = L.generichash y → x = y
  reject : digest ≠ digest' → ∀ plaintext nonce nonce' key key',
    L.aeadDecrypt (L.aeadEncrypt plaintext digest.toList nonce key) digest'.toList nonce' key' = none

lemma startDigest_ne {L : Sodium} {prologue prologue' : List UInt8} {known responderKey ephemeral : PubKey}
    (hhash : ∀ x ∈ startInputs L prologue known ephemeral,
      ∀ y ∈ startInputs L prologue' responderKey ephemeral, L.generichash x = L.generichash y → x = y)
    (hne : prologue ≠ prologue' ∨ known ≠ responderKey) :
    startDigest L prologue known ephemeral ≠ startDigest L prologue' responderKey ephemeral := by
  intro heq
  have hlength (a b : Hash) : a.toList.length = b.toList.length := by simp
  have hfirst (x y z : List UInt8) : x ∈ [x, y, z] := List.mem_cons_self ..
  have hsecond (x y z : List UInt8) : y ∈ [x, y, z] := List.mem_cons_of_mem _ (List.mem_cons_self ..)
  have hthird (x y z : List UInt8) : z ∈ [x, y, z] :=
    List.mem_cons_of_mem _ (List.mem_cons_of_mem _ (List.mem_cons_self ..))
  -- the inputs are equal, from the last to the first
  have h3 := hhash _ (hthird _ _ _) _ (hthird _ _ _) heq
  have h2 := hhash _ (hsecond _ _ _) _ (hsecond _ _ _)
    (List.Vector.eq _ _ (List.append_inj h3 (hlength _ _)).1)
  have h1 := hhash _ (hfirst _ _ _) _ (hfirst _ _ _)
    (List.Vector.eq _ _ (List.append_inj h2 (hlength _ _)).1)
  rcases hne with hne | hne
  · exact hne (List.append_inj h1 (hlength _ _)).2
  · exact hne (List.Vector.eq _ _ (List.append_inj h2 (hlength _ _)).2)

section Reject

variable {L : Sodium}

lemma mixKey_cases {s : SymmetricState} (remoteKey : PubKey) (localKey : Keypair) :
    (s.mixKey L remoteKey localKey).digest = s.digest ∧
      ((s.mixKey L remoteKey localKey).corrupt = true ∨
        ∃ key, (s.mixKey L remoteKey localKey).cipher = { key := some key, nonce := 0 }) := by
  rw [mixKey]
  split_ifs
  · exact ⟨rfl, Or.inl rfl⟩
  · exact ⟨rfl, Or.inr ⟨_, rfl⟩⟩

lemma sendKeys1_cases (n : NoiseIK) (e : Keypair) :
    (∃ n', sendKeys1 L n e = (n', none) ∧ n'.complete = n.complete) ∨
      ∃ n' key, sendKeys1 L n e = (n', some (e.publicKey.toList ++
          encrypt L key 0 (n.symmetric.mixHash L e.publicKey.toList).digest.toList n.s.publicKey.toList)) ∧
        n'.complete = n.complete ∧ n'.messageIndex = n.messageIndex := by
  obtain ⟨hdigest, hcase⟩ := mixKey_cases (L := L) (s := n.symmetric.mixHash L e.publicKey.toList) n.rs e
  generalize hs1 : (n.symmetric.mixHash L e.publicKey.toList).mixKey L n.rs e = s1 at hdigest hcase
  rcases hcase with hcorrupt | ⟨key, hcipher⟩
  · refine Or.inl ⟨n.fail s1, ?_, rfl⟩
    simp only [sendKeys1, hs1, hcorrupt, if_true]
  · simp only [sendKeys1, hs1]
    by_cases hcorrupt : s1.corrupt = true
    · exact Or.inl ⟨n.fail s1, if_pos hcorrupt, rfl⟩
    · rw [if_neg hcorrupt]
      have henc : (s1.encryptAndHash L n.s.publicKey.toList).2 = encrypt L key 0
          (n.symmetric.mixHash L e.publicKey.toList).digest.toList n.s.publicKey.toList := by
        simp only [encryptAndHash, CipherState.encryptWithAd, hcipher, hdigest]
        rfl
      by_cases hlast : ((s1.encryptAndHash L n.s.publicKey.toList).1.mixKey L n.rs n.s).corrupt = true
      · exact Or.inl ⟨_, if_pos hlast, rfl⟩
      · refine Or.inr ⟨{ n with symmetric := (s1.encryptAndHash L n.s.publicKey.toList).1.mixKey L n.rs n.s },
          key, (if_neg hlast).trans ?_, rfl, rfl⟩
        rw [henc]

lemma send_first (kI : Keypair) (prologue : List UInt8) (known : PubKey) (p : List UInt8) (e : Keypair) :
    (newInitiator L kI prologue known).send L p e =
      match sendKeys1 L { newInitiator L kI prologue known with e := some e } e with
      | (n, none) => (n, [])
      | (n, some keys) => sendPayload L n keys p := rfl

lemma recv_first (kR : Keypair) (prologue msg : List UInt8) :
    (newResponder L kR prologue).recv L msg =
      match recvKeys1 L (newResponder L kR prologue) msg with
      | (n, none) => (n, none)
      | (n, some rest) => recvPayload L n rest := rfl

lemma send_start (kI : Keypair) (prologue : List UInt8) (known : PubKey) (p : List UInt8) (e : Keypair) :
    ((newInitiator L kI prologue known).send L p e).1.complete = false ∧
      (((newInitiator L kI prologue known).send L p e).2 = [] ∨
        ∃ key rest, ((newInitiator L kI prologue known).send L p e).2 =
          e.publicKey.toList ++
            (encrypt L key 0 (startDigest L prologue known e.publicKey).toList kI.publicKey.toList ++
              rest)) := by
  rcases sendKeys1_cases (L := L) { newInitiator L kI prologue known with e := some e } e with
    ⟨n', hkeys, hcomplete⟩ | ⟨n', key, hkeys, hcomplete, hindex⟩
  · rw [send_first, hkeys]
    exact ⟨hcomplete, Or.inl rfl⟩
  · rw [send_first, hkeys]
    refine ⟨?_, Or.inr ⟨key, (n'.symmetric.encryptAndHash L p).2, List.append_assoc ..⟩⟩
    have hearly : ¬ n'.messageIndex + 1 ≥ 2 := by
      rw [hindex]
      exact (by decide : ¬ 0 + 1 ≥ 2)
    exact (congrArg NoiseIK.complete (if_neg hearly)).trans hcomplete

lemma recv_reject (hlength : ∀ plaintext ad nonce key,
      (L.aeadEncrypt plaintext ad nonce key).length = plaintext.length + 16)
    {kR : Keypair} {prologue : List UInt8} {e known : PubKey} {digest : Hash} {key : Key}
    (hreject : ∀ nonce nonce' key key', L.aeadDecrypt (L.aeadEncrypt known.toList digest.toList nonce key)
      (startDigest L prologue kR.publicKey e).toList nonce' key' = none) (rest : List UInt8) :
    ((newResponder L kR prologue).recv L (e.toList ++
        (encrypt L key 0 digest.toList known.toList ++ rest))).1.corrupt = true ∧
      ((newResponder L kR prologue).recv L (e.toList ++
        (encrypt L key 0 digest.toList known.toList ++ rest))).1.complete = false := by
  obtain ⟨hlong, htake, hdrop⟩ := shift_publicKey e (encrypt L key 0 digest.toList known.toList ++ rest)
  have hlength := hlength known.toList digest.toList (buildNonce 0) key
  have hlength' : (encrypt L key 0 digest.toList known.toList).length = pkLen + macLen :=
    hlength.trans (by simp [pkLen, macLen])
  have hlong2 : ¬ (encrypt L key 0 digest.toList known.toList ++ rest).length < pkLen + macLen := by
    rw [List.length_append, hlength']
    omega
  have htake2 : (encrypt L key 0 digest.toList known.toList ++ rest).take (pkLen + macLen) =
      encrypt L key 0 digest.toList known.toList := by rw [← hlength', List.take_left]
  obtain ⟨hdigest, hcase⟩ := mixKey_cases (L := L) (s := (start L prologue kR.publicKey).mixHash L e.toList) e kR
  generalize hs1 : ((start L prologue kR.publicKey).mixHash L e.toList).mixKey L e kR = s1 at hdigest hcase
  generalize hmsg : e.toList ++ (encrypt L key 0 digest.toList known.toList ++ rest) = msg
    at hlong htake hdrop
  have hkeys : ∃ n', recvKeys1 L (newResponder L kR prologue) msg = (n', none) ∧ n'.corrupt = true ∧
      n'.complete = false := by
    simp only [recvKeys1, if_neg hlong, htake, hdrop, copyN_toList, if_neg hlong2, htake2]
    have hsymmetric : ((newResponder L kR prologue).symmetric.mixHash L e.toList).mixKey L e
        (newResponder L kR prologue).s = s1 := hs1
    rw [hsymmetric]
    rcases hcase with hcorrupt | ⟨key', hcipher⟩
    · exact ⟨_, if_pos hcorrupt, rfl, rfl⟩
    · by_cases hcorrupt : s1.corrupt = true
      · exact ⟨_, if_pos hcorrupt, rfl, rfl⟩
      · rw [if_neg hcorrupt]
        have hnone : decrypt L key' 0 s1.digest.toList (encrypt L key 0 digest.toList known.toList) =
            none := by
          rw [decrypt, hdigest]
          split_ifs
          · rfl
          · exact hreject (buildNonce 0) (buildNonce 0) key key'
        have hdecrypt : (s1.decryptAndHash L (encrypt L key 0 digest.toList known.toList)).2 = none := by
          simp only [decryptAndHash, CipherState.decryptWithAd, hcipher, hnone]
        rcases hs2 : s1.decryptAndHash L (encrypt L key 0 digest.toList known.toList) with ⟨s2, plaintext⟩
        rw [hs2] at hdecrypt
        obtain rfl : plaintext = none := hdecrypt
        exact ⟨_, rfl, rfl, rfl⟩
  obtain ⟨n', hkeys, hcorrupt, hcomplete⟩ := hkeys
  have hrecv : (newResponder L kR prologue).recv L msg = (n', none) := by rw [recv_first, hkeys]
  rw [hrecv]
  exact ⟨hcorrupt, hcomplete⟩

lemma complete_recv_nil (n : NoiseIK) : (n.recv L []).1.complete = n.complete := by
  rw [recv]
  by_cases hmay : n.mayRecv = true
  · cases hrole : n.initiator <;> simp [hmay, recvKeys1, recvKeys2, pkLen]
  · rw [if_neg hmay]

end Reject

/-- **A handshake of ends that start differently** completes neither. -/
theorem not_complete_of_distinguishes {L : Sodium}
    (hlength : ∀ plaintext ad nonce key,
      (L.aeadEncrypt plaintext ad nonce key).length = plaintext.length + 16)
    (kI kR eI eR : Keypair) {prologue prologue' : List UInt8} {known : PubKey}
    (hne : prologue ≠ prologue' ∨ known ≠ kR.publicKey)
    (hideal : Distinguishes L (startInputs L prologue known eI.publicKey)
      (startInputs L prologue' kR.publicKey eI.publicKey) (startDigest L prologue known eI.publicKey)
      (startDigest L prologue' kR.publicKey eI.publicKey)) (p1 p2 : List UInt8) :
    (handshake L (newInitiator L kI prologue known) (newResponder L kR prologue') p1 p2 eI eR).initiator.complete
        = false ∧
      (handshake L (newInitiator L kI prologue known) (newResponder L kR prologue') p1 p2 eI eR).responder.complete
        = false := by
  have hdigest := startDigest_ne hideal.hash hne
  obtain ⟨hopen, hstart⟩ := send_start (L := L) kI prologue known p1 eI
  -- the responder is corrupt after the first message
  have hresponder : ((newResponder L kR prologue').recv L
        ((newInitiator L kI prologue known).send L p1 eI).2).1.corrupt = true ∧
      ((newResponder L kR prologue').recv L
        ((newInitiator L kI prologue known).send L p1 eI).2).1.complete = false := by
    rcases hstart with hnil | ⟨key, rest, hmsg⟩
    · rw [hnil]
      exact ⟨rfl, rfl⟩
    · rw [hmsg]
      exact recv_reject hlength (hideal.reject hdigest _) rest
  rcases hi : (newInitiator L kI prologue known).send L p1 eI with ⟨i1, m1⟩
  rw [hi] at hopen hresponder
  rcases hr : (newResponder L kR prologue').recv L m1 with ⟨r1, payload1⟩
  rw [hr] at hresponder
  -- so it sends nothing
  have hsend : r1.send L p2 eR = (r1, []) := by
    rw [send, maySend, hresponder.1, hresponder.2]
    rfl
  simp only [handshake, hi, hr, hsend]
  exact ⟨(complete_recv_nil i1).trans hopen, hresponder.2⟩

/-! ## Both -/

/-- **Agreement of the handshake**: with the same prologue and the responder's key, both ends agree; with another
prologue or another key, neither end completes. -/
theorem handshake_agreement {L : Sodium} (h : L.Correct) (sI sR eI eR : Seed)
    (prologue p1 p2 : List UInt8) :
    Agrees (handshake L
      (newInitiator L (generateKeypair L sI) prologue (generateKeypair L sR).publicKey)
      (newResponder L (generateKeypair L sR) prologue) p1 p2 (generateKeypair L eI) (generateKeypair L eR))
      (generateKeypair L sI).publicKey p1 p2 ∧
    ∀ (prologue' : List UInt8) (known : PubKey),
      prologue' ≠ prologue ∨ known ≠ (generateKeypair L sR).publicKey →
      Distinguishes L (startInputs L prologue' known (generateKeypair L eI).publicKey)
        (startInputs L prologue (generateKeypair L sR).publicKey (generateKeypair L eI).publicKey)
        (startDigest L prologue' known (generateKeypair L eI).publicKey)
        (startDigest L prologue (generateKeypair L sR).publicKey (generateKeypair L eI).publicKey) →
      (handshake L (newInitiator L (generateKeypair L sI) prologue' known)
        (newResponder L (generateKeypair L sR) prologue) p1 p2 (generateKeypair L eI)
        (generateKeypair L eR)).initiator.complete = false ∧
      (handshake L (newInitiator L (generateKeypair L sI) prologue' known)
        (newResponder L (generateKeypair L sR) prologue) p1 p2 (generateKeypair L eI)
        (generateKeypair L eR)).responder.complete = false :=
  ⟨agrees_handshake h sI sR eI eR prologue p1 p2, fun _ _ hne hideal =>
    not_complete_of_distinguishes h.length_encrypt _ _ _ _ hne hideal p1 p2⟩

/-! ## A small instance -/

/-- The tag of the small cipher: the first bytes of the associated data. -/
def toyTag (ad : List UInt8) : List UInt8 := (ad ++ List.replicate 16 0).take 16

/-- Small functions that have the properties an honest handshake relies on: the hash is a polynomial in the bytes, and
the Diffie-Hellman function adds the two keys. -/
def toySodium : Sodium where
  generichash bytes := List.Vector.ofFn fun i : Fin 64 =>
    UInt8.ofNat (bytes.foldl (fun acc b => acc * 257 + b.toNat + 1) 0 / 256 ^ i.val)
  sha512 bytes := copyN 64 bytes
  scalarmult scalar point := some ⟨List.zipWith (· + ·) scalar.toList point.toList, by simp⟩
  signPublicKey seed := clamp seed
  aeadEncrypt plaintext ad _ _ := plaintext ++ toyTag ad
  aeadDecrypt ciphertext ad _ _ :=
    if ciphertext.drop (ciphertext.length - 16) = toyTag ad then
      some (ciphertext.take (ciphertext.length - 16))
    else none

lemma length_toyTag (ad : List UInt8) : (toyTag ad).length = 16 := by simp [toyTag]

lemma toy_decrypt (plaintext ad ad' : List UInt8) (nonce nonce' : Nonce) (key key' : Key) :
    toySodium.aeadDecrypt (toySodium.aeadEncrypt plaintext ad nonce key) ad' nonce' key' =
      if toyTag ad = toyTag ad' then some plaintext else none := by
  have hlength : (plaintext ++ toyTag ad).length - 16 = plaintext.length := by
    rw [List.length_append, length_toyTag]
    omega
  simp only [toySodium, hlength, List.drop_left, List.take_left]

lemma toy_dh (a b : Seed) : (dh toySodium (generateKeypair toySodium a)
      (generateKeypair toySodium b).publicKey).toList =
    List.zipWith (· + ·) (clamp a).toList (clamp b).toList := by
  have hsecret : (generateKeypair toySodium a).secretKey.toList.take 32 = a.toList := by
    have hlength : a.toList.length = 32 := a.toList_length
    simp [generateKeypair, copyN, List.take_append, hlength]
  have hscalar : (copyN 32 (copyN 64 a.toList).toList : List.Vector UInt8 32) = a := by
    have hlength : a.toList.length = 32 := a.toList_length
    apply List.Vector.eq
    simp [copyN, List.take_append, hlength]
  rw [dh, hsecret]
  simp only [toySodium, hscalar]
  rfl

lemma clamp_last (a : Seed) : ∃ x : UInt8, (clamp a).toList[31]? = some x ∧ 64 ≤ x.toNat ∧ x.toNat < 128 := by
  have hbyte : ∀ x : UInt8, 64 ≤ (x &&& 127 ||| 64).toNat ∧ (x &&& 127 ||| 64).toNat < 128 := by
    have hall : ∀ x : BitVec 8, 64 ≤ (UInt8.ofBitVec x &&& 127 ||| 64).toNat ∧
        (UInt8.ofBitVec x &&& 127 ||| 64).toNat < 128 := by decide +kernel
    exact fun x => hall x.toBitVec
  refine ⟨a.get 31 &&& 127 ||| 64, ?_, hbyte _⟩
  have hset : (clamp a).toList = (a.toList.set 0 (a.get 0 &&& 248)).set 31 (a.get 31 &&& 127 ||| 64) := by
    rw [clamp, List.Vector.toList_set, List.Vector.toList_set]
    rfl
  rw [hset, List.getElem?_set_self (by simp)]

lemma toySodium_correct : toySodium.Correct where
  dh_comm a b := by
    apply List.Vector.eq
    rw [toy_dh, toy_dh, List.zipWith_comm]
    simp only [UInt8.add_comm]
  dh_ne_zero a b := by
    intro hzero
    obtain ⟨x, hx, hxlow, hxhigh⟩ := clamp_last a
    obtain ⟨y, hy, hylow, hyhigh⟩ := clamp_last b
    have hlast := congrArg (fun v : PubKey => v.toList[31]?) hzero
    simp only [toy_dh, List.getElem?_zipWith, hx, hy] at hlast
    have hsum : x + y = 0 := by simpa using hlast
    have hnat := congrArg UInt8.toNat hsum
    rw [UInt8.toNat_add] at hnat
    have hzero' : (0 : UInt8).toNat = 0 := rfl
    omega
  decrypt_encrypt plaintext ad nonce key := by rw [toy_decrypt, if_pos rfl]
  length_encrypt plaintext ad nonce key := by
    simp [toySodium, length_toyTag]

/-- A seed. -/
def seedOf (byte : UInt8) : Seed := List.Vector.replicate 32 byte

lemma toy_distinguishes : Distinguishes toySodium
    (startInputs toySodium [7] (generateKeypair toySodium (seedOf 2)).publicKey
      (generateKeypair toySodium (seedOf 3)).publicKey)
    (startInputs toySodium [8] (generateKeypair toySodium (seedOf 2)).publicKey
      (generateKeypair toySodium (seedOf 3)).publicKey)
    (startDigest toySodium [7] (generateKeypair toySodium (seedOf 2)).publicKey
      (generateKeypair toySodium (seedOf 3)).publicKey)
    (startDigest toySodium [8] (generateKeypair toySodium (seedOf 2)).publicKey
      (generateKeypair toySodium (seedOf 3)).publicKey) where
  hash := by decide +kernel
  reject _ plaintext nonce nonce' key key' := by
    rw [toy_decrypt, if_neg (by decide +kernel)]

/-- Two ends with the small functions: they agree with the same prologue, and do not complete with another. -/
theorem handshake_agreement_toy :
    Agrees (handshake toySodium
      (newInitiator toySodium (generateKeypair toySodium (seedOf 1)) [8]
        (generateKeypair toySodium (seedOf 2)).publicKey)
      (newResponder toySodium (generateKeypair toySodium (seedOf 2)) [8]) [10, 11] [12]
      (generateKeypair toySodium (seedOf 3)) (generateKeypair toySodium (seedOf 4)))
      (generateKeypair toySodium (seedOf 1)).publicKey [10, 11] [12] ∧
    (handshake toySodium
      (newInitiator toySodium (generateKeypair toySodium (seedOf 1)) [7]
        (generateKeypair toySodium (seedOf 2)).publicKey)
      (newResponder toySodium (generateKeypair toySodium (seedOf 2)) [8]) [10, 11] [12]
      (generateKeypair toySodium (seedOf 3)) (generateKeypair toySodium (seedOf 4))).responder.complete =
        false :=
  have h := handshake_agreement toySodium_correct (seedOf 1) (seedOf 2) (seedOf 3) (seedOf 4) [8] [10, 11] [12]
  ⟨h.1, (h.2 [7] (generateKeypair toySodium (seedOf 2)).publicKey (Or.inl (by decide)) toy_distinguishes).2⟩

end HyperDHT.Noise
