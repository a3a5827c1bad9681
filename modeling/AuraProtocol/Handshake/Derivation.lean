import AuraProtocol.Identity.Keys
import AuraProtocol.Session.Init

/-!
# What both sides of a handshake compute

The helper functions of `protocol/handshake.rs`: the four Diffie–Hellman secrets,
the keys derived from them and from the KEM secret, the transcript that the two
confirmation MACs cover, and the checks of bundles and init messages.

The initiator and the responder repeat the same derivations; here they share
`deriveSecrets`, which cannot fail and whose outcome is `Secrets.of`.
-/

namespace AuraProtocol.Handshake

open Fallible Proto HkdfSha256 DhValidator

variable {i : HandshakeInit}

/-- `compute_dh` of the handshake; `context` names the secret in the error. -/
def computeDh (c : Crypto) (privateKey publicKey : Bytes) (context : String) :
    Except ProtocolError Bytes :=
  if privateKey.length ≠ x25519PrivateKeyBytes ∨ publicKey.length ≠ x25519PublicKeyBytes then
    .error (.invalidInput "Invalid X25519 key size for DH")
  else if isAllZero (c.x25519 privateKey publicKey) then
    .error (.handshake s!"X25519 DH produced all-zero output for {context} (RFC 7748 §6.1)")
  else .ok (c.x25519 privateKey publicKey)

theorem computeDh_eq_ok {c : Crypto} {sk pk shared : Bytes} {context : String} :
    computeDh c sk pk context = .ok shared ↔
      (sk.length = x25519PrivateKeyBytes ∧ pk.length = x25519PublicKeyBytes) ∧
        isAllZero (c.x25519 sk pk) = false ∧ shared = c.x25519 sk pk := by
  rw [computeDh]
  split_ifs with hlen hzero
  · simp only [false_iff]
    tauto
  · simp [hzero]
  · have hlen' : sk.length = x25519PrivateKeyBytes ∧ pk.length = x25519PublicKeyBytes := by tauto
    simp [hlen', hzero, eq_comm]

def computeHmacSha256 (c : Crypto) (key data : Bytes) : Except ProtocolError Bytes := do
  require (key.length = hmacBytes) (.invalidInput "HMAC key must be 32 bytes")
  .ok (c.hmacSha256 key data)

theorem computeHmacSha256_eq_ok {c : Crypto} {key data mac : Bytes} :
    computeHmacSha256 c key data = .ok mac ↔
      key.length = hmacBytes ∧ mac = c.hmacSha256 key data := by
  rw [computeHmacSha256, except_seq_eq_ok, require_eq_ok, Except.ok.injEq, eq_comm (a := mac)]

/-! ## Transcripts and fingerprints -/

/-- The init message as the transcript sees it. -/
def clearMac (init : HandshakeInit) : HandshakeInit := { init with keyConfirmationMac := [] }

/-- The bytes that `build_transcript_hash` hashes: bundle and init message, each after its
length as a `u32`. -/
def transcript (w : Wire) (bundle : PreKeyBundle) (init : HandshakeInit) : Bytes :=
  let bundleBytes := w.preKeyBundle.encode bundle
  let initBytes := w.handshakeInit.encode (clearMac init)
  leBytes 4 bundleBytes.length ++ bundleBytes ++ leBytes 4 initBytes.length ++ initBytes

def buildTranscriptHash (c : Crypto) (w : Wire) (bundle : PreKeyBundle) (init : HandshakeInit) :
    Bytes :=
  c.hmacSha256 transcriptLabel (transcript w bundle init)

def buildHandshakeInitFingerprint (c : Crypto) (w : Wire) (init : HandshakeInit) : Bytes :=
  c.sha256 (w.handshakeInit.encode init)

theorem length_buildHandshakeInitFingerprint (c : Crypto) (w : Wire) (init : HandshakeInit) :
    (buildHandshakeInitFingerprint c w init).length = hmacBytes := c.length_sha256 _

/-- `build_metadata_context`: the two ratchet keys in order, then the session id. -/
def buildMetadataContext (selfDhPublic peerDhPublic sessionId : Bytes) : Bytes :=
  (if peerDhPublic < selfDhPublic then peerDhPublic ++ selfDhPublic
    else selfDhPublic ++ peerDhPublic) ++ sessionId

/-! ## Binding the initiator's identity -/

def buildInitIdentityBindingMessage (ed25519Public x25519Public kyberPublic : Bytes) : Bytes :=
  handshakeInitIdentityBindingInfo ++ ed25519Public ++ x25519Public ++ kyberPublic

def signInitIdentityBinding (c : Crypto)
    (ed25519Secret ed25519Public x25519Public kyberPublic : Bytes) : Except ProtocolError Bytes := do
  require (ed25519Secret.length = ed25519SecretKeyBytes)
    (.invalidInput "Invalid Ed25519 secret key size for handshake identity binding")
  require (c.ed25519KeypairValid ed25519Secret = true)
    (.keyGeneration "Invalid Ed25519 keypair bytes")
  .ok (c.ed25519Sign ed25519Secret
    (buildInitIdentityBindingMessage ed25519Public x25519Public kyberPublic))

def verifyInitIdentityBinding (c : Crypto) (init : HandshakeInit) : Except ProtocolError Unit :=
  Ed25519KeyPair.verify c init.initiatorIdentityEd25519Public
    (buildInitIdentityBindingMessage init.initiatorIdentityEd25519Public
      init.initiatorIdentityX25519Public init.initiatorKyberPublic)
    init.initiatorIdentityBindingSignature

/-! ## Checks -/

def verifyRemoteIdentityX25519Signature (c : Crypto) (ed25519 x25519Public signature : Bytes) :
    Except ProtocolError Unit := do
  require (ed25519.length = ed25519PublicKeyBytes ∧ x25519Public.length = x25519PublicKeyBytes ∧
      signature.length = ed25519SignatureBytes)
    (.invalidInput "Invalid key or signature length for identity X25519 binding verification")
  Ed25519KeyPair.verify c ed25519 x25519Public signature

def verifyRemoteSpkSignature (c : Crypto) (ed25519 spkPublic signature : Bytes) :
    Except ProtocolError Unit := do
  require (ed25519.length = ed25519PublicKeyBytes ∧ spkPublic.length = x25519PublicKeyBytes ∧
      signature.length = ed25519SignatureBytes)
    (.invalidInput "Invalid key or signature length for SPK verification")
  Ed25519KeyPair.verify c ed25519 spkPublic signature

/-- The check of one one-time pre-key of a bundle. -/
def validateBundleOpk (opk : Proto.OneTimePreKey) : Except ProtocolError Unit := do
  require (opk.publicKey.length = x25519PublicKeyBytes)
    (.invalidInput "Invalid OPK size in PreKeyBundle")
  validateX25519PublicKey opk.publicKey

def validateBundle (c : Crypto) (bundle : PreKeyBundle) : Except ProtocolError Unit := do
  require (bundle.version.toNat = protocolVersion) (.invalidInput "Invalid PreKeyBundle version")
  require (bundle.identityEd25519Public.length = ed25519PublicKeyBytes ∧
      bundle.identityX25519Public.length = x25519PublicKeyBytes ∧
      bundle.identityX25519Signature.length = ed25519SignatureBytes ∧
      bundle.signedPreKeyPublic.length = x25519PublicKeyBytes ∧
      bundle.signedPreKeySignature.length = ed25519SignatureBytes)
    (.invalidInput "Invalid PreKeyBundle key sizes")
  require (bundle.kyberPublic.length = kyberPublicKeyBytes)
    (.invalidInput "Kyber public key required for handshake")
  verifyRemoteIdentityX25519Signature c bundle.identityEd25519Public bundle.identityX25519Public
    bundle.identityX25519Signature
  verifyRemoteSpkSignature c bundle.identityEd25519Public bundle.signedPreKeyPublic
    bundle.signedPreKeySignature
  validateX25519PublicKey bundle.identityX25519Public
  validateX25519PublicKey bundle.signedPreKeyPublic
  require (bundle.oneTimePreKeys.length ≤ maxOneTimePreKeysPerBundle)
    (.invalidInput "PreKeyBundle has too many one-time pre-keys")
  bundle.oneTimePreKeys.forM validateBundleOpk
  KyberInterop.validatePublicKey c bundle.kyberPublic

def validateMaxMessagesPerChain (max : UInt32) : Except ProtocolError Unit := do
  require (max ≠ 0) (.invalidInput "Max messages per chain must be greater than zero")
  require (max.toNat ≤ maxMessagesPerChain)
    (.invalidInput "Max messages per chain exceeds protocol limit")

def validateInitMessage (c : Crypto) (init : HandshakeInit) : Except ProtocolError Unit := do
  require (init.version.toNat = protocolVersion) (.invalidInput "Invalid HandshakeInit version")
  require (init.initiatorIdentityEd25519Public.length = ed25519PublicKeyBytes ∧
      init.initiatorIdentityX25519Public.length = x25519PublicKeyBytes ∧
      init.initiatorEphemeralX25519Public.length = x25519PublicKeyBytes)
    (.invalidInput "Invalid initiator key sizes")
  require (init.kyberCiphertext.length = kyberCiphertextBytes)
    (.invalidInput "Kyber ciphertext required for handshake")
  require (init.keyConfirmationMac.length = hmacBytes)
    (.invalidInput "Invalid key confirmation MAC size")
  require (init.initiatorIdentityBindingSignature.length = ed25519SignatureBytes)
    (.invalidInput "Invalid initiator identity binding signature size")
  require (init.initiatorKyberPublic.length = kyberPublicKeyBytes)
    (.invalidInput "Initiator Kyber public key required for handshake")
  validateX25519PublicKey init.initiatorIdentityX25519Public
  validateX25519PublicKey init.initiatorEphemeralX25519Public
  KyberInterop.validateCiphertext init.kyberCiphertext
  KyberInterop.validatePublicKey c init.initiatorKyberPublic
  validateMaxMessagesPerChain init.maxMessagesPerChain
  verifyInitIdentityBinding c init

/-- What a bundle that passes the checks looks like. -/
structure ValidBundle (c : Crypto) (bundle : PreKeyBundle) : Prop where
  version : bundle.version.toNat = protocolVersion
  identityEd25519Public : bundle.identityEd25519Public.length = ed25519PublicKeyBytes
  identityX25519Public :
    validateX25519PublicKey bundle.identityX25519Public = .ok ()
  identityX25519Signature : Ed25519KeyPair.verify c bundle.identityEd25519Public
    bundle.identityX25519Public bundle.identityX25519Signature = .ok ()
  signedPreKeyPublic : validateX25519PublicKey bundle.signedPreKeyPublic = .ok ()
  signedPreKeySignature : Ed25519KeyPair.verify c bundle.identityEd25519Public
    bundle.signedPreKeyPublic bundle.signedPreKeySignature = .ok ()
  oneTimePreKeys_length : bundle.oneTimePreKeys.length ≤ maxOneTimePreKeysPerBundle
  oneTimePreKeys : ∀ opk ∈ bundle.oneTimePreKeys,
    validateX25519PublicKey opk.publicKey = .ok ()
  kyberPublic : KyberInterop.validatePublicKey c bundle.kyberPublic = .ok ()

theorem validateBundleOpk_eq_ok {opk : Proto.OneTimePreKey} :
    validateBundleOpk opk = .ok () ↔
      validateX25519PublicKey opk.publicKey = .ok () := by
  rw [validateBundleOpk, except_seq_eq_ok, require_eq_ok]
  exact ⟨And.right, fun h => ⟨length_of_validate h, h⟩⟩

theorem validateBundle_eq_ok {c : Crypto} {bundle : PreKeyBundle} :
    validateBundle c bundle = .ok () ↔ ValidBundle c bundle := by
  simp only [validateBundle, verifyRemoteIdentityX25519Signature, verifyRemoteSpkSignature,
    except_seq_eq_ok, require_eq_ok, forM_eq_ok, validateBundleOpk_eq_ok]
  constructor
  · rintro ⟨hv, ⟨hed, hx, -, hspk, -⟩, hkyber, ⟨-, hxsig⟩, ⟨-, hspksig⟩, hxv, hspkv, hlen, hopks, hk⟩
    exact ⟨hv, hed, hxv, hxsig, hspkv, hspksig, hlen, hopks, hk⟩
  · intro h
    have hx := length_of_validate h.identityX25519Public
    have hspk := length_of_validate h.signedPreKeyPublic
    obtain ⟨-, hxsig, -⟩ := Ed25519KeyPair.verify_eq_ok.mp h.identityX25519Signature
    obtain ⟨-, hspksig, -⟩ := Ed25519KeyPair.verify_eq_ok.mp h.signedPreKeySignature
    obtain ⟨hkyber, -⟩ := KyberInterop.validatePublicKey_eq_ok.mp h.kyberPublic
    exact ⟨h.version, ⟨h.identityEd25519Public, hx, hxsig, hspk, hspksig⟩, hkyber,
      ⟨⟨h.identityEd25519Public, hx, hxsig⟩, h.identityX25519Signature⟩,
      ⟨⟨h.identityEd25519Public, hspk, hspksig⟩, h.signedPreKeySignature⟩,
      h.identityX25519Public, h.signedPreKeyPublic, h.oneTimePreKeys_length, h.oneTimePreKeys,
      h.kyberPublic⟩

theorem validateMaxMessagesPerChain_eq_ok {max : UInt32} :
    validateMaxMessagesPerChain max = .ok () ↔
      max ≠ 0 ∧ max.toNat ≤ maxMessagesPerChain := by
  rw [validateMaxMessagesPerChain, except_seq_eq_ok, require_eq_ok, require_eq_ok]

/-! ## Sizes of checked messages -/

variable {c : Crypto}

/-- A valid bundle has the sizes of its keys. -/
theorem ValidBundle.sized {b : PreKeyBundle} (h : ValidBundle c b) : b.Sized where
  identityEd25519Public := h.identityEd25519Public
  identityX25519Public := length_of_validate h.identityX25519Public
  signedPreKeyPublic := length_of_validate h.signedPreKeyPublic
  signedPreKeySignature := (Ed25519KeyPair.verify_eq_ok.mp h.signedPreKeySignature).2.1
  oneTimePreKeys o ho := length_of_validate (h.oneTimePreKeys o ho)
  kyberPublic := (KyberInterop.validatePublicKey_eq_ok.mp h.kyberPublic).1
  identityX25519Signature := (Ed25519KeyPair.verify_eq_ok.mp h.identityX25519Signature).2.1

/-- The transcript of a valid bundle gives its length without loss. -/
theorem ValidBundle.length_encode_lt {b : PreKeyBundle} (h : ValidBundle c b) (w : Wire) :
    (w.preKeyBundle.encode b).length < 2 ^ 32 := by
  have hle := length_encode_preKeyBundle_le h.sized
  have hopks : b.oneTimePreKeys.length ≤ 4096 := h.oneTimePreKeys_length
  rw [w.encode_preKeyBundle]
  omega

theorem clearMac_sized (h : i.Sized) : (clearMac i).Sized :=
  { h with keyConfirmationMac := Nat.zero_le _ }

theorem length_encode_clearMac_lt (h : i.Sized) (w : Wire) :
    (w.handshakeInit.encode (clearMac i)).length < 2 ^ 32 := by
  have hle := length_encode_handshakeInit_le (clearMac_sized h)
  rw [w.encode_handshakeInit]
  omega

/-- A valid init message has the sizes of its fields. -/
theorem validateInitMessage_sized (h : validateInitMessage c i = .ok ()) : i.Sized := by
  simp only [validateInitMessage, except_seq_eq_ok, require_eq_ok] at h
  obtain ⟨-, ⟨hed, hx, heph⟩, hct, hmac, hsig, hkyber, -⟩ := h
  exact ⟨hed, hx, heph, hct, hmac.le, hkyber, hsig⟩

/-! ## Derived keys -/

/-- The keys both sides derive from the shared secrets. -/
structure Secrets where
  rootKey : Bytes
  sessionId : Bytes
  metadataKey : Bytes
  confirmInit : Bytes
  confirmResp : Bytes

/-- The input of the classical derivation. -/
def x3dhIkm (dh1 dh2 dh3 dh4 : Bytes) : Bytes :=
  List.replicate x25519PublicKeyBytes x3dhFillByte ++ dh1 ++ dh2 ++ dh3 ++ dh4

/-- The classical shared secret of the Diffie–Hellman secrets. -/
def classicalShared (c : Crypto) (ikm : Bytes) : Bytes :=
  c.hkdfExpand (extract c [] ikm) x3dhInfo rootKeyBytes

/-- The root key of the classical and the KEM secret. -/
def rootKeyOf (c : Crypto) (classical kyberSharedSecret : Bytes) : Bytes :=
  c.hkdfExpand (extract c classical kyberSharedSecret) hybridX3dhInfo rootKeyBytes

/-- The session id of a root key and a KEM ciphertext. -/
def sessionIdOf (c : Crypto) (rootKey kyberCiphertext : Bytes) : Bytes :=
  c.hkdfExpand (extract c kyberCiphertext rootKey) sessionIdInfo sessionIdBytes

/-- The metadata key of a root key and a context. -/
def metadataKeyOf (c : Crypto) (rootKey context : Bytes) : Bytes :=
  c.hkdfExpand (extract c context rootKey) metadataKeyInfo metadataKeyBytes

/-- The key confirmation key of a role, named by its info string. -/
def confirmKeyOf (c : Crypto) (rootKey info : Bytes) : Bytes :=
  c.hkdfExpand (extract c [] rootKey) info hmacBytes

theorem length_confirmKeyOf (c : Crypto) (rootKey info : Bytes) :
    (confirmKeyOf c rootKey info).length = hmacBytes := c.length_hkdfExpand _ _ _

/-- The keys of a classical and a KEM secret, for one side's order of the ratchet keys. -/
def Secrets.of (c : Crypto) (classical kyberSharedSecret kyberCiphertext selfDh peerDh : Bytes) :
    Secrets :=
  let rootKey := rootKeyOf c classical kyberSharedSecret
  let sessionId := sessionIdOf c rootKey kyberCiphertext
  { rootKey := rootKey
    sessionId := sessionId
    metadataKey := metadataKeyOf c rootKey (buildMetadataContext selfDh peerDh sessionId)
    confirmInit := confirmKeyOf c rootKey keyConfirmInitInfo
    confirmResp := confirmKeyOf c rootKey keyConfirmRespInfo }

/-- The derivations after the classical secret. -/
def deriveSecrets (c : Crypto)
    (classical kyberSharedSecret kyberCiphertext selfDh peerDh : Bytes) :
    Except ProtocolError Secrets := do
  let rootKey ← deriveKeyBytes c kyberSharedSecret rootKeyBytes classical hybridX3dhInfo
  let sessionId ← deriveKeyBytes c rootKey sessionIdBytes kyberCiphertext sessionIdInfo
  let metadataKey ← deriveKeyBytes c rootKey metadataKeyBytes
    (buildMetadataContext selfDh peerDh sessionId) metadataKeyInfo
  let confirmInit ← deriveKeyBytes c rootKey hmacBytes [] keyConfirmInitInfo
  let confirmResp ← deriveKeyBytes c rootKey hmacBytes [] keyConfirmRespInfo
  .ok { rootKey, sessionId, metadataKey, confirmInit, confirmResp }

/-- The derivation of the classical secret cannot fail. -/
theorem deriveClassical_eq (c : Crypto) (ikm : Bytes) :
    deriveKeyBytes c ikm rootKeyBytes [] x3dhInfo = .ok (classicalShared c ikm) :=
  deriveKeyBytes_eq c (by decide) (by decide) _ _ _

/-- The derivations cannot fail: every output is within the HKDF limit. -/
theorem deriveSecrets_eq (c : Crypto)
    (classical kyberSharedSecret kyberCiphertext selfDh peerDh : Bytes) :
    deriveSecrets c classical kyberSharedSecret kyberCiphertext selfDh peerDh =
      .ok (.of c classical kyberSharedSecret kyberCiphertext selfDh peerDh) := by
  simp only [deriveSecrets,
    deriveKeyBytes_eq c (by decide : rootKeyBytes ≠ 0) (by decide),
    deriveKeyBytes_eq c (by decide : sessionIdBytes ≠ 0) (by decide),
    deriveKeyBytes_eq c (by decide : metadataKeyBytes ≠ 0) (by decide),
    deriveKeyBytes_eq c (by decide : hmacBytes ≠ 0) (by decide)]
  rfl

end AuraProtocol.Handshake
