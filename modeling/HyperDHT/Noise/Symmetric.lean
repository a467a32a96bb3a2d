import Mathlib.Data.Vector.Basic
import Mathlib.Data.List.Basic

/-!
# The symmetric state of a Noise handshake

The functions of `noise_wrap.cpp` below the handshake: HMAC and HKDF, the Diffie-Hellman function, the cipher with its
nonce, and the state that mixes them.

## Main definitions

* `Noise.Sodium` — the functions of libsodium, as parameters.
* `Noise.hmacBlake2b`, `hkdf`, `dh`, `encrypt`, `decrypt` — the functions built on them.
* `Noise.CipherState`, `Noise.SymmetricState` — the states, and their methods.
* `Noise.Sodium.Correct` — what an honest handshake relies on.

## Main results

* `Noise.SymmetricState.mixKey_comm` — the two ends of a Diffie-Hellman exchange mix the same key.
* `Noise.SymmetricState.decryptAndHash_encryptAndHash` — what the one end encrypts, the other one in the same state
  decrypts, and the states stay the same.

## Design

An array of bytes of fixed size is a vector. The zeroing of memory is left out.
-/

set_option autoImplicit false

namespace HyperDHT.Noise

/-! ## Bytes -/

/-- The output of BLAKE2b-512. -/
abbrev Hash := List.Vector UInt8 64
/-- A key of the cipher. -/
abbrev Key := List.Vector UInt8 32
/-- A public key, and a result of the Diffie-Hellman function. -/
abbrev PubKey := List.Vector UInt8 32
/-- The seed of a keypair. -/
abbrev Seed := List.Vector UInt8 32
/-- A nonce of the cipher. -/
abbrev Nonce := List.Vector UInt8 12

/-- `MACLEN`. -/
def macLen : ℕ := 16
/-- `PKLEN`. -/
def pkLen : ℕ := 32
/-- `BLOCKLEN`. -/
def blockLen : ℕ := 128

/-- An array that is filled from bytes, and is zero behind them. -/
def copyN (n : ℕ) (bytes : List UInt8) : List.Vector UInt8 n :=
  ⟨(bytes ++ List.replicate n 0).take n, by simp⟩

lemma copyN_toList {n : ℕ} (v : List.Vector UInt8 n) : copyN n v.toList = v := by
  apply List.Vector.eq
  have hlength : v.toList.length = n := v.toList_length
  simp [copyN, hlength]

/-- A keypair: the secret key is the seed and the public key. -/
structure Keypair where
  publicKey : PubKey
  secretKey : List.Vector UInt8 64

/-- The functions of libsodium. -/
structure Sodium where
  /-- `crypto_generichash`, unkeyed, with 64 bytes. -/
  generichash : List UInt8 → Hash
  /-- `crypto_hash_sha512`. -/
  sha512 : List UInt8 → List.Vector UInt8 64
  /-- `crypto_scalarmult_ed25519_noclamp`; `none` where it fails. -/
  scalarmult : List.Vector UInt8 32 → PubKey → Option (List.Vector UInt8 32)
  /-- The public key of `crypto_sign_seed_keypair`. -/
  signPublicKey : Seed → PubKey
  /-- `crypto_aead_chacha20poly1305_ietf_encrypt`, of a plaintext with associated data. -/
  aeadEncrypt : List UInt8 → List UInt8 → Nonce → Key → List UInt8
  /-- `crypto_aead_chacha20poly1305_ietf_decrypt`, of a ciphertext with associated data. -/
  aeadDecrypt : List UInt8 → List UInt8 → Nonce → Key → Option (List UInt8)

section Functions

variable (L : Sodium)

/-- `generate_keypair`. -/
def generateKeypair (seed : Seed) : Keypair where
  publicKey := L.signPublicKey seed
  secretKey := copyN 64 (seed.toList ++ (L.signPublicKey seed).toList)

/-- The key of an HMAC, of the length of a block. -/
def hmacKey (key : List UInt8) : List.Vector UInt8 128 :=
  if key.length > blockLen then copyN 128 (L.generichash key).toList else copyN 128 key

/-- `hmac_blake2b`. -/
def hmacBlake2b (key : List UInt8) (msgs : List (List UInt8)) : Hash :=
  L.generichash ((hmacKey L key).toList.map (0x5c ^^^ ·) ++
    (L.generichash ((hmacKey L key).toList.map (0x36 ^^^ ·) ++ msgs.flatten)).toList)

/-- `hkdf`. -/
def hkdf (salt ikm : List UInt8) : Hash × Hash :=
  let prk := hmacBlake2b L salt [ikm]
  let t1 := hmacBlake2b L prk.toList [[], [], [0x01]]
  let t2 := hmacBlake2b L prk.toList [t1.toList, [], [0x02]]
  (t1, t2)

/-- The scalar of an Ed25519 key is clamped. -/
def clamp (scalar : List.Vector UInt8 32) : List.Vector UInt8 32 :=
  (scalar.set 0 (scalar.get 0 &&& 248)).set 31 (scalar.get 31 &&& 127 ||| 64)

/-- `dh`: zero if the point is of low order. -/
def dh (localKey : Keypair) (remote : PubKey) : PubKey :=
  (L.scalarmult (clamp (copyN 32 (L.sha512 (localKey.secretKey.toList.take 32)).toList)) remote).getD
    (List.Vector.replicate 32 0)

/-- `build_nonce`. -/
def buildNonce (counter : UInt64) : Nonce :=
  let c := counter.toUInt32
  ⟨[0, 0, 0, 0, c.toUInt8, (c >>> 8).toUInt8, (c >>> 16).toUInt8, (c >>> 24).toUInt8, 0, 0, 0, 0], rfl⟩

/-- `encrypt`. -/
def encrypt (key : Key) (counter : UInt64) (ad plaintext : List UInt8) : List UInt8 :=
  L.aeadEncrypt plaintext ad (buildNonce counter) key

/-- `decrypt`. -/
def decrypt (key : Key) (counter : UInt64) (ad ciphertext : List UInt8) : Option (List UInt8) :=
  if ciphertext.length < macLen then none else L.aeadDecrypt ciphertext ad (buildNonce counter) key

end Functions

/-! ## The states -/

/-- A key and a counter of nonces. -/
structure CipherState where
  key : Option Key := none
  nonce : UInt64 := 0

/-- `CipherState::encrypt_with_ad`. -/
def CipherState.encryptWithAd (L : Sodium) (c : CipherState) (ad plaintext : List UInt8) :
    CipherState × List UInt8 :=
  match c.key with
  | none => (c, plaintext)
  | some key =>
    if c.nonce ≥ 0xFFFFFFFF then (c, [])
    else ({ c with nonce := c.nonce + 1 }, encrypt L key c.nonce ad plaintext)

/-- `CipherState::decrypt_with_ad`. -/
def CipherState.decryptWithAd (L : Sodium) (c : CipherState) (ad ciphertext : List UInt8) :
    CipherState × Option (List UInt8) :=
  match c.key with
  | none => (c, some ciphertext)
  | some key =>
    match decrypt L key c.nonce ad ciphertext with
    | some plaintext => ({ c with nonce := c.nonce + 1 }, some plaintext)
    | none => (c, none)

/-- The digest, the chaining key and the cipher; `corrupt` after a low-order point. -/
structure SymmetricState where
  digest : Hash := List.Vector.replicate 64 0
  chainingKey : Hash := List.Vector.replicate 64 0
  corrupt : Bool := false
  cipher : CipherState := {}

namespace SymmetricState

variable (L : Sodium)

/-- `mix_hash`. -/
def mixHash (s : SymmetricState) (data : List UInt8) : SymmetricState :=
  { s with digest := L.generichash (s.digest.toList ++ data) }

/-- `mix_key`. -/
def mixKey (s : SymmetricState) (remoteKey : PubKey) (localKey : Keypair) : SymmetricState :=
  if dh L localKey remoteKey = List.Vector.replicate 32 0 then { s with corrupt := true }
  else
    { s with
      chainingKey := (hkdf L s.chainingKey.toList (dh L localKey remoteKey).toList).1
      cipher :=
        { key := some (copyN 32 (hkdf L s.chainingKey.toList (dh L localKey remoteKey).toList).2.toList)
          nonce := 0 } }

/-- `encrypt_and_hash`. -/
def encryptAndHash (s : SymmetricState) (plaintext : List UInt8) : SymmetricState × List UInt8 :=
  let r := s.cipher.encryptWithAd L s.digest.toList plaintext
  ({ s with cipher := r.1 }.mixHash L r.2, r.2)

/-- `decrypt_and_hash`: the ciphertext is mixed even where it is rejected. -/
def decryptAndHash (s : SymmetricState) (ciphertext : List UInt8) :
    SymmetricState × Option (List UInt8) :=
  let r := s.cipher.decryptWithAd L s.digest.toList ciphertext
  ({ s with cipher := r.1 }.mixHash L ciphertext, r.2)

/-- `split`. -/
def split (s : SymmetricState) : Key × Key :=
  let r := hkdf L s.chainingKey.toList []
  (copyN 32 r.1.toList, copyN 32 r.2.toList)

end SymmetricState

/-! ## What an honest handshake relies on -/

/-- The Diffie-Hellman function is commutative and never zero on generated keypairs, and the cipher decrypts what it
encrypts under equal key, nonce and associated data, with 16 bytes more. -/
structure Sodium.Correct (L : Sodium) : Prop where
  dh_comm : ∀ a b : Seed, dh L (generateKeypair L a) (generateKeypair L b).publicKey =
    dh L (generateKeypair L b) (generateKeypair L a).publicKey
  dh_ne_zero : ∀ a b : Seed, dh L (generateKeypair L a) (generateKeypair L b).publicKey ≠
    List.Vector.replicate 32 0
  decrypt_encrypt : ∀ plaintext ad nonce key,
    L.aeadDecrypt (L.aeadEncrypt plaintext ad nonce key) ad nonce key = some plaintext
  length_encrypt : ∀ plaintext ad nonce key,
    (L.aeadEncrypt plaintext ad nonce key).length = plaintext.length + 16

namespace SymmetricState

variable {L : Sodium} {s : SymmetricState}

@[simp] lemma corrupt_mixHash (data : List UInt8) : (s.mixHash L data).corrupt = s.corrupt := rfl

lemma mixKey_comm {a b : Keypair} (h : dh L a b.publicKey = dh L b a.publicKey) :
    s.mixKey L b.publicKey a = s.mixKey L a.publicKey b := by
  rw [mixKey, mixKey, h]

lemma mixKey_of_ne_zero {remoteKey : PubKey} {localKey : Keypair}
    (h : dh L localKey remoteKey ≠ List.Vector.replicate 32 0) :
    (s.mixKey L remoteKey localKey).corrupt = s.corrupt ∧
      ∃ key, (s.mixKey L remoteKey localKey).cipher = { key := some key, nonce := 0 } := by
  rw [mixKey, if_neg h]
  exact ⟨rfl, _, rfl⟩

/-- **The cipher in lockstep**: the end that decrypts gets the plaintext and the state of the end that
encrypts. -/
lemma decryptAndHash_encryptAndHash (h : L.Correct) {key : Key} {nonce : UInt64}
    (hcipher : s.cipher = { key := some key, nonce := nonce }) (hnonce : nonce < 0xFFFFFFFF)
    (plaintext : List UInt8) :
    s.decryptAndHash L (s.encryptAndHash L plaintext).2 =
      ((s.encryptAndHash L plaintext).1, some plaintext) := by
  have hlength := h.length_encrypt plaintext s.digest.toList (buildNonce nonce) key
  have hdecrypt : decrypt L key nonce s.digest.toList (encrypt L key nonce s.digest.toList plaintext) =
      some plaintext := by
    rw [decrypt, encrypt, if_neg (by rw [hlength, macLen]; omega), h.decrypt_encrypt]
  have hbelow : ¬ nonce ≥ 0xFFFFFFFF := UInt64.not_le.2 hnonce
  simp only [decryptAndHash, encryptAndHash, CipherState.encryptWithAd, CipherState.decryptWithAd,
    hcipher, if_neg hbelow, hdecrypt]

lemma length_encryptAndHash (h : L.Correct) {key : Key} {nonce : UInt64}
    (hcipher : s.cipher = { key := some key, nonce := nonce }) (hnonce : nonce < 0xFFFFFFFF)
    (plaintext : List UInt8) : (s.encryptAndHash L plaintext).2.length = plaintext.length + 16 := by
  have hbelow : ¬ nonce ≥ 0xFFFFFFFF := UInt64.not_le.2 hnonce
  simp only [encryptAndHash, CipherState.encryptWithAd, hcipher, if_neg hbelow]
  exact h.length_encrypt _ _ _ _

end SymmetricState

end HyperDHT.Noise
