import AuraProtocol.Core
import AuraProtocol.Lib.Fallible

/-!
# Cryptographic primitives

The primitives come from third-party crates (`sha2`, `hmac`, `hkdf`,
`aes-gcm-siv`, `x25519-dalek`, `ml-kem`, `ed25519-dalek`), so the model is
parametric in them: `Crypto` lists the functions the code calls, with the sizes
their Rust types fix.  What a result needs beyond the sizes (that DH commutes,
that decryption inverts encryption, …) is in `Crypto.Correct`, and is a
hypothesis wherever it is used.  Randomness is an argument of the functions that
draw it.

Over the primitives stand the crate's own wrappers (`crypto/*.rs` and
`security/validation/dh_validator.rs`), with their checks and error texts.
-/

namespace AuraProtocol

open Fallible

variable {key nonce ad ct : Bytes} {out : Bytes × Bytes}

/-- The primitives the crate calls, with the output sizes fixed by their types. -/
structure Crypto where
  /-- SHA-256. -/
  sha256 : Bytes → Bytes
  length_sha256 : ∀ m, (sha256 m).length = 32
  /-- HMAC-SHA256 of a key and a message. -/
  hmacSha256 : Bytes → Bytes → Bytes
  length_hmacSha256 : ∀ k m, (hmacSha256 k m).length = 32
  /-- HKDF-Extract of an optional salt and input key material. -/
  hkdfExtract : Option Bytes → Bytes → Bytes
  length_hkdfExtract : ∀ salt ikm, (hkdfExtract salt ikm).length = 32
  /-- HKDF-Expand of a pseudorandom key and an info string to a given length. -/
  hkdfExpand : Bytes → Bytes → ℕ → Bytes
  length_hkdfExpand : ∀ prk info n, (hkdfExpand prk info n).length = n
  /-- AES-256-GCM-SIV encryption of key, nonce, plaintext and associated data. -/
  aeadSeal : Bytes → Bytes → Bytes → Bytes → Option Bytes
  /-- AES-256-GCM-SIV decryption of key, nonce, ciphertext and associated data. -/
  aeadOpen : Bytes → Bytes → Bytes → Bytes → Option Bytes
  /-- The X25519 public key of a private key. -/
  x25519Public : Bytes → Bytes
  length_x25519Public : ∀ sk, (x25519Public sk).length = 32
  /-- X25519 of a private and a public key. -/
  x25519 : Bytes → Bytes → Bytes
  length_x25519 : ∀ sk pk, (x25519 sk pk).length = 32
  /-- ML-KEM-768 key generation from a generator's randomness: the secret key in
  seed form and the encoded public key. -/
  kemKeygen : Bytes → Bytes × Bytes
  length_kemKeygen_secret : ∀ r, (kemKeygen r).1.length = 64
  length_kemKeygen_public : ∀ r, (kemKeygen r).2.length = 1184
  /-- The bytes a ChaCha20 generator seeded with 32 bytes hands to key generation. -/
  chaCha20Rng : Bytes → Bytes
  /-- Parses an encoded public key and encodes it again. -/
  kemReencode : Bytes → Option Bytes
  /-- Encapsulation to a public key with given randomness: ciphertext and secret. -/
  kemEncaps : Bytes → Bytes → Bytes × Bytes
  length_kemEncaps_ciphertext : ∀ pk r, (kemEncaps pk r).1.length = 1088
  length_kemEncaps_secret : ∀ pk r, (kemEncaps pk r).2.length = 32
  /-- Decapsulation of a ciphertext with a secret key. -/
  kemDecaps : Bytes → Bytes → Bytes
  length_kemDecaps : ∀ sk ct, (kemDecaps sk ct).length = 32
  /-- The 64 bytes of the Ed25519 key pair of a seed. -/
  ed25519Keypair : Bytes → Bytes
  length_ed25519Keypair : ∀ seed, (ed25519Keypair seed).length = 64
  /-- Whether 64 bytes parse as a signing key pair. -/
  ed25519KeypairValid : Bytes → Bool
  /-- Whether 32 bytes parse as a verifying key. -/
  ed25519KeyValid : Bytes → Bool
  /-- The Ed25519 verifying key of a 64-byte signing key pair. -/
  ed25519Public : Bytes → Bytes
  length_ed25519Public : ∀ sk, (ed25519Public sk).length = 32
  /-- Ed25519 signature of a message. -/
  ed25519Sign : Bytes → Bytes → Bytes
  length_ed25519Sign : ∀ sk m, (ed25519Sign sk m).length = 64
  /-- Ed25519 verification of public key, message and signature. -/
  ed25519Verify : Bytes → Bytes → Bytes → Bool
  /-- BLAKE2b-256 with a key and a personalisation string. -/
  blake2b256 : Bytes → Bytes → Bytes → Bytes
  length_blake2b256 : ∀ k p m, (blake2b256 k p m).length = 32

/-! ## HKDF -/

namespace HkdfSha256

/-- `HkdfSha256::extract`: an empty salt means no salt. -/
def extract (c : Crypto) (salt ikm : Bytes) : Bytes :=
  c.hkdfExtract (if salt.isEmpty then none else some salt) ikm

@[simp] theorem length_extract (c : Crypto) (salt ikm : Bytes) :
    (extract c salt ikm).length = 32 := c.length_hkdfExtract _ _

def expand (c : Crypto) (prk info : Bytes) (outLen : ℕ) : Except ProtocolError Bytes :=
  if outLen = 0 ∨ hkdfMaxOutputBytes < outLen then
    .error (.deriveKey s!"Invalid HKDF output length: {outLen}")
  else if prk.length < 32 then
    .error (.deriveKey "Invalid PRK for HKDF expand: invalid pseudorandom key")
  else .ok (c.hkdfExpand prk info outLen)

/-- `HkdfSha256::derive_key_bytes`: extract, then expand. -/
def deriveKeyBytes (c : Crypto) (ikm : Bytes) (outLen : ℕ) (salt info : Bytes) :
    Except ProtocolError Bytes :=
  if outLen = 0 ∨ hkdfMaxOutputBytes < outLen then
    .error (.deriveKey s!"Invalid HKDF output length: {outLen}")
  else .ok (c.hkdfExpand (extract c salt ikm) info outLen)

/-- Within the output limit a derivation cannot fail. -/
theorem deriveKeyBytes_eq (c : Crypto) {outLen : ℕ} (h0 : outLen ≠ 0)
    (h : outLen ≤ hkdfMaxOutputBytes) (ikm salt info : Bytes) :
    deriveKeyBytes c ikm outLen salt info =
      .ok (c.hkdfExpand (extract c salt ikm) info outLen) := by
  rw [deriveKeyBytes, if_neg]
  rintro (h' | h')
  · exact h0 h'
  · exact absurd h (not_le.mpr h')

variable {c : Crypto}

/-- Within the output limit an expansion of a full-size key cannot fail. -/
theorem expand_eq (c : Crypto) {outLen : ℕ} (h0 : outLen ≠ 0) (h : outLen ≤ hkdfMaxOutputBytes)
    {prk : Bytes} (hprk : 32 ≤ prk.length) (info : Bytes) :
    expand c prk info outLen = .ok (c.hkdfExpand prk info outLen) := by
  rw [expand, if_neg, if_neg (not_lt.mpr hprk)]
  rintro (h' | h')
  · exact h0 h'
  · exact absurd h (not_le.mpr h')

end HkdfSha256

/-! ## AES-256-GCM-SIV -/

namespace AesGcm

def validateKeyNonce (key nonce : Bytes) : Except ProtocolError Unit := do
  require (key.length = aesKeyBytes) (.invalidInput
    s!"AES-256-GCM-SIV key must be {aesKeyBytes} bytes, got {key.length}")
  require (nonce.length = aesGcmNonceBytes) (.invalidInput
    s!"AES-256-GCM-SIV nonce must be {aesGcmNonceBytes} bytes, got {nonce.length}")

def encrypt (c : Crypto) (key nonce plaintext associatedData : Bytes) :
    Except ProtocolError Bytes := do
  validateKeyNonce key nonce
  orError (c.aeadSeal key nonce plaintext associatedData)
    (.generic "AES-256-GCM-SIV encryption failed")

def decrypt (c : Crypto) (key nonce ciphertextWithTag associatedData : Bytes) :
    Except ProtocolError Bytes := do
  validateKeyNonce key nonce
  require (aesGcmTagBytes ≤ ciphertextWithTag.length) (.invalidInput
    s!"Ciphertext too small: {ciphertextWithTag.length} bytes (minimum {aesGcmTagBytes} for tag)")
  orError (c.aeadOpen key nonce ciphertextWithTag associatedData) (.generic
    "Authentication tag verification failed - data may have been tampered with")

theorem validateKeyNonce_eq_ok :
    validateKeyNonce key nonce = .ok () ↔
      key.length = aesKeyBytes ∧ nonce.length = aesGcmNonceBytes := by
  rw [validateKeyNonce, except_seq_eq_ok, require_eq_ok, require_eq_ok]

theorem encrypt_eq_ok {plaintext : Bytes} :
    encrypt c key nonce plaintext ad = .ok ct ↔
      (key.length = aesKeyBytes ∧ nonce.length = aesGcmNonceBytes) ∧
        c.aeadSeal key nonce plaintext ad = some ct := by
  rw [encrypt, except_seq_eq_ok, orError_eq_ok, validateKeyNonce_eq_ok]

theorem decrypt_eq_ok {plaintext : Bytes} :
    decrypt c key nonce ct ad = .ok plaintext ↔
      (key.length = aesKeyBytes ∧ nonce.length = aesGcmNonceBytes) ∧
        aesGcmTagBytes ≤ ct.length ∧ c.aeadOpen key nonce ct ad = some plaintext := by
  rw [decrypt, except_seq_eq_ok, except_seq_eq_ok, orError_eq_ok, require_eq_ok,
    validateKeyNonce_eq_ok]

end AesGcm

/-! ## X25519 -/

namespace DhValidator

/-- The points of small order that `has_small_order` compares with. -/
def smallOrderPoints : List Bytes :=
  [List.replicate 32 0,
   0x01 :: List.replicate 31 0,
   [0x5F, 0x9C, 0x95, 0xBC, 0xA3, 0x50, 0x8C, 0x24, 0xB1, 0xD0, 0xB1, 0x55, 0x9C, 0x83, 0xEF,
    0x5B, 0x04, 0x44, 0x5C, 0xC4, 0x58, 0x1C, 0x8E, 0x86, 0xD8, 0x22, 0x4E, 0xDD, 0xD0, 0x9F,
    0x11, 0x57],
   [0xE0, 0xEB, 0x7A, 0x7C, 0x3B, 0x41, 0xB8, 0xAE, 0x16, 0x56, 0xE3, 0xFA, 0xF1, 0x9F, 0xC4,
    0x6A, 0xDA, 0x09, 0x8D, 0xEB, 0x9C, 0x32, 0xB1, 0xFD, 0x86, 0x62, 0x05, 0x16, 0x5F, 0x49,
    0xB8, 0x00],
   0xEC :: List.replicate 30 0xFF ++ [0x7F],
   0xED :: List.replicate 30 0xFF ++ [0x7F],
   0xEE :: List.replicate 30 0xFF ++ [0x7F],
   [0xCD, 0xEB, 0x7A, 0x7C, 0x3B, 0x41, 0xB8, 0xAE, 0x16, 0x56, 0xE3, 0xFA, 0xF1, 0x9F, 0xC4,
    0x6A, 0xDA, 0x09, 0x8D, 0xEB, 0x9C, 0x32, 0xB1, 0xFD, 0x86, 0x62, 0x05, 0x16, 0x5F, 0x49,
    0xB8, 0x00]]

/-- The field prime, little endian. -/
def curve25519Prime : Bytes := 0xED :: List.replicate 30 0xFF ++ [0x7F]

/-- `DhValidator::has_small_order`: the top bit of the last byte is ignored. -/
def hasSmallOrder (publicKey : Bytes) : Bool :=
  smallOrderPoints.contains (publicKey.take 31 ++ (publicKey.drop 31).map (· &&& 0x7F))

/-- The 32-bit word at position `i`. -/
def word (bs : Bytes) (i : ℕ) : ℕ := leNat ((bs.drop (i * 4)).take 4)

/-- `DhValidator::is_valid_curve25519_point`: the borrow of subtracting the prime word by word
is what is left at the end exactly when the key is below the prime. -/
def isValidCurve25519Point (publicKey : Bytes) : Bool :=
  publicKey.length = x25519PublicKeyBytes ∧
    (List.range 8).foldl (fun borrow i =>
      if word publicKey i < word curve25519Prime i + borrow then 1 else 0) 0 = 1

def validateX25519PublicKey (publicKey : Bytes) : Except ProtocolError Unit := do
  require (publicKey.length = x25519PublicKeyBytes) (.invalidInput
    s!"Invalid X25519 public key size: expected {x25519PublicKeyBytes}, got {publicKey.length}")
  require (hasSmallOrder publicKey = false) (.invalidInput
    "X25519 public key is a small-order point (invalid for DH)")
  require (isValidCurve25519Point publicKey = true) (.invalidInput
    "X25519 public key is not a valid Curve25519 field element")

/-- A key that passes the validator has the size of a public key. -/
theorem length_of_validate {publicKey : Bytes} {u : Unit}
    (h : validateX25519PublicKey publicKey = .ok u) : publicKey.length = x25519PublicKeyBytes := by
  simp only [validateX25519PublicKey, except_bind_eq_ok, require_eq_ok] at h
  exact h.choose_spec.1

end DhValidator

/-- `compute_dh`: X25519, rejecting keys of the wrong size and an all-zero result. -/
def computeDh (c : Crypto) (privateKey publicKey : Bytes) : Except ProtocolError Bytes :=
  if privateKey.length ≠ x25519PrivateKeyBytes ∨ publicKey.length ≠ x25519PublicKeyBytes then
    .error (.invalidInput "Invalid X25519 key sizes for DH")
  else if isAllZero (c.x25519 privateKey publicKey) then
    .error (.handshake "X25519 DH produced all-zero output (RFC 7748 §6.1)")
  else .ok (c.x25519 privateKey publicKey)

theorem computeDh_eq_ok {sk pk shared : Bytes} :
    computeDh c sk pk = .ok shared ↔
      (sk.length = x25519PrivateKeyBytes ∧ pk.length = x25519PublicKeyBytes) ∧
        isAllZero (c.x25519 sk pk) = false ∧ shared = c.x25519 sk pk := by
  rw [computeDh]
  split_ifs with hlen hzero
  · simp only [false_iff]
    tauto
  · simp [hzero]
  · have hlen' : sk.length = x25519PrivateKeyBytes ∧ pk.length = x25519PublicKeyBytes := by tauto
    simp [hlen', hzero, eq_comm]

/-! ## ML-KEM-768 -/

namespace KyberInterop

/-- The error of a KEM operation. -/
def kyberFailed (operation detail : String) : ProtocolError :=
  .crypto (.kyberFailed operation detail)

/-- `KyberInterop::generate_keypair`, with its encapsulation self-test.  The
arguments are the randomness of the key pair and of the test. -/
def generateKeypair (c : Crypto) (seed selfTest : Bytes) : Except ProtocolError (Bytes × Bytes) :=
  let (sk, pk) := c.kemKeygen seed
  let (ct, ss) := c.kemEncaps pk selfTest
  if c.kemDecaps sk ct = ss then .ok (sk, pk)
  else .error (kyberFailed "self-test" "encapsulate/decapsulate shared secrets do not match")

def generateKeypairFromSeed (c : Crypto) (seed : Bytes) : Except ProtocolError (Bytes × Bytes) :=
  if seed.length < kyberSeedKeyBytes then
    .error (kyberFailed "generate_keypair_from_seed"
      s!"seed too short: expected at least {kyberSeedKeyBytes} bytes, got {seed.length}")
  else .ok (c.kemKeygen (c.chaCha20Rng (seed.take kyberSeedKeyBytes)))

/-- `KyberInterop::encapsulate`: the ciphertext and the shared secret. -/
def encapsulate (c : Crypto) (peerPublicKey random : Bytes) :
    Except ProtocolError (Bytes × Bytes) :=
  if peerPublicKey.length ≠ kyberPublicKeyBytes then
    .error (kyberFailed "encapsulate"
      s!"invalid public key size: expected {kyberPublicKeyBytes} bytes, got {peerPublicKey.length}")
  else if (c.kemReencode peerPublicKey).isNone then
    .error (kyberFailed "encapsulate" "failed to parse ML-KEM public key bytes")
  else .ok (c.kemEncaps peerPublicKey random)

/-- `KyberInterop::decapsulate`; the secret key is read from its handle. -/
def decapsulate (c : Crypto) (ciphertext secretKey : Bytes) : Except ProtocolError Bytes :=
  if ciphertext.length ≠ kyberCiphertextBytes then
    .error (kyberFailed "decapsulate"
      s!"invalid ciphertext size: expected {kyberCiphertextBytes} bytes, got {ciphertext.length}")
  else if secretKey.length < kyberSecretKeyBytes then
    .error (.crypto (.bufferTooSmall secretKey.length kyberSecretKeyBytes))
  else .ok (c.kemDecaps (secretKey.take kyberSecretKeyBytes) ciphertext)

def validatePublicKey (c : Crypto) (key : Bytes) : Except ProtocolError Unit := do
  require (key.length = kyberPublicKeyBytes) (kyberFailed "validate_public_key"
    s!"invalid public key size: expected {kyberPublicKeyBytes} bytes, got {key.length}")
  require (isAllZero key = false)
    (kyberFailed "validate_public_key" "degenerate all-zero public key")
  let encoded ← orError (c.kemReencode key)
    (kyberFailed "validate_public_key" "failed to parse ML-KEM public key bytes")
  require (encoded = key)
    (kyberFailed "validate_public_key" "public key fails re-encoding structural check")

def validateCiphertext (ct : Bytes) : Except ProtocolError Unit := do
  require (ct.length = kyberCiphertextBytes) (kyberFailed "validate_ciphertext"
    s!"invalid ciphertext size: expected {kyberCiphertextBytes} bytes, got {ct.length}")
  require (isAllZero ct = false)
    (kyberFailed "validate_ciphertext" "degenerate all-zero ciphertext")

theorem validatePublicKey_eq_ok :
    validatePublicKey c key = .ok () ↔
      key.length = kyberPublicKeyBytes ∧ isAllZero key = false ∧ c.kemReencode key = some key := by
  rw [validatePublicKey, except_seq_eq_ok, except_seq_eq_ok, except_bind_eq_ok]
  simp only [require_eq_ok, orError_eq_ok, exists_eq_right]

theorem encapsulate_eq_ok {pk r : Bytes} :
    encapsulate c pk r = .ok out ↔
      pk.length = kyberPublicKeyBytes ∧ (c.kemReencode pk).isSome ∧ out = c.kemEncaps pk r := by
  rw [encapsulate]
  split_ifs with hlen hparse
  · simp [hlen]
  · simp [Option.isNone_iff_eq_none.mp hparse]
  · have hparse' : (c.kemReencode pk).isSome := by
      rw [Option.isSome_iff_ne_none]
      simpa [Option.isNone_iff_eq_none] using hparse
    simp [not_not.mp hlen, hparse', eq_comm]

theorem generateKeypair_eq_ok {seed selfTest : Bytes}
    (h : generateKeypair c seed selfTest = .ok out) : out = c.kemKeygen seed := by
  simp only [generateKeypair] at h
  split_ifs at h with htest
  exact (Except.ok.inj h).symm

end KyberInterop

/-! ## Ed25519 -/

namespace Ed25519KeyPair

def verify (c : Crypto) (publicKey message signature : Bytes) : Except ProtocolError Unit := do
  require (publicKey.length = ed25519PublicKeyBytes)
    (.invalidInput "Invalid Ed25519 public key size")
  require (signature.length = ed25519SignatureBytes)
    (.peerPubKey "Invalid Ed25519 signature size")
  require (c.ed25519KeyValid publicKey = true) (.peerPubKey "Invalid Ed25519 public key")
  require (c.ed25519Verify publicKey message signature = true)
    (.peerPubKey "Ed25519 signature verification failed")

theorem verify_eq_ok {publicKey message signature : Bytes} :
    verify c publicKey message signature = .ok () ↔
      publicKey.length = ed25519PublicKeyBytes ∧ signature.length = ed25519SignatureBytes ∧
        c.ed25519KeyValid publicKey = true ∧
          c.ed25519Verify publicKey message signature = true := by
  rw [verify, except_seq_eq_ok, except_seq_eq_ok, except_seq_eq_ok, require_eq_ok, require_eq_ok,
    require_eq_ok, require_eq_ok]

end Ed25519KeyPair

/-! ## What correct primitives satisfy -/

/-- The documented behaviour of the primitives that the results about honest
parties assume. -/
structure Crypto.Correct (c : Crypto) : Prop where
  /-- Diffie–Hellman commutes. -/
  dh_comm : ∀ a b, c.x25519 a (c.x25519Public b) = c.x25519 b (c.x25519Public a)
  /-- A public key computed from a private key is a field element of large order. -/
  x25519Public_valid : ∀ sk, DhValidator.validateX25519PublicKey (c.x25519Public sk) = .ok ()
  /-- AEAD decryption inverts encryption. -/
  aeadOpen_of_aeadSeal : ∀ k n m ad ct, c.aeadSeal k n m ad = some ct →
    c.aeadOpen k n ct ad = some m
  /-- A ciphertext carries a tag. -/
  length_of_aeadSeal : ∀ k n m ad ct, c.aeadSeal k n m ad = some ct →
    ct.length = m.length + aesGcmTagBytes
  /-- Decapsulation inverts encapsulation. -/
  kemDecaps_kemEncaps : ∀ r r',
    c.kemDecaps (c.kemKeygen r).1 (c.kemEncaps (c.kemKeygen r).2 r').1 =
      (c.kemEncaps (c.kemKeygen r).2 r').2
  /-- A generated public key is not zero and parses back to itself. -/
  kemKeygen_valid : ∀ r, KyberInterop.validatePublicKey c (c.kemKeygen r).2 = .ok ()
  /-- A ciphertext is not the all-zero string. -/
  kemEncaps_ne_zero : ∀ pk r, isAllZero (c.kemEncaps pk r).1 = false
  /-- Ed25519 accepts the signatures it makes. -/
  ed25519Verify_ed25519Sign : ∀ sk m,
    c.ed25519Verify (c.ed25519Public sk) m (c.ed25519Sign sk m) = true

/-- What holds of the keys the library generates, on top of `Crypto.Correct`.  The X25519
scalars are clamped and the base points have prime order, so generated keys never meet in the
point at infinity, and an Ed25519 key of a seed is no point of small order. -/
structure Crypto.ProperKeys (c : Crypto) : Prop where
  /-- The shared secret of two generated keys is not zero. -/
  dh_ne_zero : ∀ a b, isAllZero (c.x25519 a (c.x25519Public b)) = false
  /-- The key pair of a seed parses. -/
  ed25519Keypair_valid : ∀ seed, c.ed25519KeypairValid (c.ed25519Keypair seed) = true
  /-- The verifying key of a key pair parses. -/
  ed25519Public_valid : ∀ sk, c.ed25519KeypairValid sk = true →
    c.ed25519KeyValid (c.ed25519Public sk) = true
  /-- The verifying key of a key pair is not zero. -/
  ed25519Public_ne_zero : ∀ sk, c.ed25519KeypairValid sk = true →
    isAllZero (c.ed25519Public sk) = false

/-- The sizes up to which AES-GCM-SIV encrypts: plaintext and associated data of at most
`2 ^ 36` bytes. -/
structure Crypto.Seals (c : Crypto) : Prop where
  /-- Encryption with a key and a nonce of the right size succeeds within the limits. -/
  aeadSeal_isSome : ∀ k n m ad, k.length = aesKeyBytes → n.length = aesGcmNonceBytes →
    m.length ≤ 2 ^ 36 → ad.length ≤ 2 ^ 36 → (c.aeadSeal k n m ad).isSome

/-- Both sides of a Diffie–Hellman exchange compute the same secret. -/
theorem computeDh_comm (hc : c.Correct) {a b shared : Bytes} (hb : b.length = x25519PrivateKeyBytes)
    (h : computeDh c a (c.x25519Public b) = .ok shared) :
    computeDh c b (c.x25519Public a) = .ok shared := by
  obtain ⟨-, hnz, rfl⟩ := computeDh_eq_ok.mp h
  rw [hc.dh_comm] at hnz
  exact computeDh_eq_ok.mpr ⟨⟨hb, c.length_x25519Public a⟩, hnz, hc.dh_comm a b⟩

/-- Decapsulation inverts encapsulation through the wrappers' checks. -/
theorem KyberInterop.decapsulate_of_encapsulate (hc : c.Correct) {seed r : Bytes}
    (h : encapsulate c (c.kemKeygen seed).2 r = .ok out) :
    decapsulate c out.1 (c.kemKeygen seed).1 = .ok out.2 := by
  obtain ⟨-, -, rfl⟩ := encapsulate_eq_ok.mp h
  have hct : (c.kemEncaps (c.kemKeygen seed).2 r).1.length = kyberCiphertextBytes :=
    c.length_kemEncaps_ciphertext _ _
  have hsk : (c.kemKeygen seed).1.length = kyberSecretKeyBytes := c.length_kemKeygen_secret seed
  rw [decapsulate, if_neg (not_not.mpr hct), if_neg hsk.not_lt, List.take_of_length_le hsk.le,
    hc.kemDecaps_kemEncaps]

namespace AesGcm

/-- Decryption inverts encryption through the wrappers' checks. -/
theorem decrypt_of_encrypt (hc : c.Correct) {m : Bytes} (h : encrypt c key nonce m ad = .ok ct) :
    decrypt c key nonce ct ad = .ok m := by
  obtain ⟨hlen, hseal⟩ := encrypt_eq_ok.mp h
  refine decrypt_eq_ok.mpr ⟨hlen, ?_, hc.aeadOpen_of_aeadSeal _ _ _ _ _ hseal⟩
  rw [hc.length_of_aeadSeal _ _ _ _ _ hseal]
  exact Nat.le_add_left _ _

/-- Encryption through the wrapper's checks succeeds within the limits. -/
theorem exists_encrypt_eq_ok (hs : c.Seals) {m : Bytes} (hkey : key.length = aesKeyBytes)
    (hnonce : nonce.length = aesGcmNonceBytes) (hm : m.length ≤ 2 ^ 36) (had : ad.length ≤ 2 ^ 36) :
    ∃ ct, encrypt c key nonce m ad = .ok ct := by
  obtain ⟨ct, hct⟩ := Option.isSome_iff_exists.mp (hs.aeadSeal_isSome _ _ _ _ hkey hnonce hm had)
  exact ⟨ct, encrypt_eq_ok.mpr ⟨⟨hkey, hnonce⟩, hct⟩⟩

end AesGcm

end AuraProtocol
