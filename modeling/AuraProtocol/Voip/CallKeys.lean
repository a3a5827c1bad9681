import AuraProtocol.Voip.Media

/-!
# The key exchange of a call

`protocol/voip/call_key_exchange.rs`: the keys of a call from its root secret, the two
messages that set a call up (`caller_init`, `callee_accept`, `caller_finish`), and the key
derivation of a rekey.  Both parties contribute an ephemeral X25519 key and a KEM
encapsulation to the other's identity key; signatures cover the ephemeral key, the
ciphertext, the call identifier and the context of the call.
-/

namespace AuraProtocol.Voip

open Fallible KyberInterop

def hybridSaltPrefix : Bytes := ascii "Aura-PQ-Hybrid::"
def voipRootSecretInfo : Bytes := ascii "Aura-VoIP-RootSecret"
def voipMediaKeySendInfo : Bytes := ascii "Aura-VoIP-MediaKey-Send"
def voipMediaKeyRecvInfo : Bytes := ascii "Aura-VoIP-MediaKey-Recv"
def voipHeaderKeySendInfo : Bytes := ascii "Aura-VoIP-HeaderKey-Send"
def voipHeaderKeyRecvInfo : Bytes := ascii "Aura-VoIP-HeaderKey-Recv"
def voipRekeyInfo : Bytes := ascii "Aura-VoIP-Rekey"
def voipKeyConfirmCallerInfo : Bytes := ascii "Aura-VoIP-KeyConfirm-Caller"
def voipKeyConfirmCalleeInfo : Bytes := ascii "Aura-VoIP-KeyConfirm-Callee"
def voipShieldKdfPass1 : Bytes := ascii "Aura-VoIP-Shield-Pass1"
def voipShieldKdfPass2 : Bytes := ascii "Aura-VoIP-Shield-Pass2"
def voipNoncePrefixInfo : Bytes := ascii "Aura-VoIP-NoncePrefix"
def screenShareLabel : Bytes := ascii "Aura-VoIP-ScreenShare-v1"

/-! ## The keys of a call -/

structure CallKeyMaterial where
  rootSecret : Key
  mediaKeySend : Key
  mediaKeyRecv : Key
  headerKeySend : Key
  headerKeyRecv : Key
  noncePrefixSend : NoncePrefix
  noncePrefixRecv : NoncePrefix
  deriving DecidableEq

/-- The keys of the other party. -/
def CallKeyMaterial.mirror (k : CallKeyMaterial) : CallKeyMaterial where
  rootSecret := k.rootSecret
  mediaKeySend := k.mediaKeyRecv
  mediaKeyRecv := k.mediaKeySend
  headerKeySend := k.headerKeyRecv
  headerKeyRecv := k.headerKeySend
  noncePrefixSend := k.noncePrefixRecv
  noncePrefixRecv := k.noncePrefixSend

/-- The root the keys are derived from: in shield mode, the root secret after two more
derivations. -/
def effectiveRoot (c : Crypto) (rootSecret : Key) (callId : CallId) (shieldMode : Bool) : Key :=
  if shieldMode then
    derive c (derive c rootSecret.1 callId.1 voipShieldKdfPass1).1 callId.1 voipShieldKdfPass2
  else rootSecret

/-- The bytes both nonce prefixes are cut from. -/
def nonceMaterial (c : Crypto) (root : Key) (callId : CallId) :
    { bs : Bytes // bs.length = voipNoncePrefixBytes * 2 } :=
  ⟨c.hkdfExpand (HkdfSha256.extract c callId.1 root.1) voipNoncePrefixInfo
    (voipNoncePrefixBytes * 2), c.length_hkdfExpand _ _ _⟩

/-- The first nonce prefix. -/
def firstNoncePrefix (c : Crypto) (root : Key) (callId : CallId) : NoncePrefix :=
  ⟨(nonceMaterial c root callId).1.take voipNoncePrefixBytes, by
    rw [List.length_take, (nonceMaterial c root callId).2]; rfl⟩

/-- The second nonce prefix. -/
def secondNoncePrefix (c : Crypto) (root : Key) (callId : CallId) : NoncePrefix :=
  ⟨(nonceMaterial c root callId).1.drop voipNoncePrefixBytes, by
    rw [List.length_drop, (nonceMaterial c root callId).2]; rfl⟩

/-- `derive_call_keys`: what one party sends with, the other receives with.  The root secret is
kept as it is, not the effective root. -/
def deriveCallKeys (c : Crypto) (rootSecret : Key) (callId : CallId) (isCaller shieldMode : Bool) :
    CallKeyMaterial :=
  let root := effectiveRoot c rootSecret callId shieldMode
  let (sendInfo, recvInfo) :=
    if isCaller then (voipMediaKeySendInfo, voipMediaKeyRecvInfo)
    else (voipMediaKeyRecvInfo, voipMediaKeySendInfo)
  let (hdrSendInfo, hdrRecvInfo) :=
    if isCaller then (voipHeaderKeySendInfo, voipHeaderKeyRecvInfo)
    else (voipHeaderKeyRecvInfo, voipHeaderKeySendInfo)
  { rootSecret
    mediaKeySend := derive c root.1 callId.1 sendInfo
    mediaKeyRecv := derive c root.1 callId.1 recvInfo
    headerKeySend := derive c root.1 callId.1 hdrSendInfo
    headerKeyRecv := derive c root.1 callId.1 hdrRecvInfo
    noncePrefixSend :=
      if isCaller then firstNoncePrefix c root callId else secondNoncePrefix c root callId
    noncePrefixRecv :=
      if isCaller then secondNoncePrefix c root callId else firstNoncePrefix c root callId }

/-- The two parties derive mirrored keys. -/
theorem deriveCallKeys_not (c : Crypto) (rootSecret : Key) (callId : CallId)
    (isCaller shieldMode : Bool) :
    deriveCallKeys c rootSecret callId (!isCaller) shieldMode =
      (deriveCallKeys c rootSecret callId isCaller shieldMode).mirror := by
  cases isCaller <;> rfl

theorem decapsulate_eq_ok {c : Crypto} {ct secretKey shared : Bytes} :
    decapsulate c ct secretKey = .ok shared ↔
      ct.length = kyberCiphertextBytes ∧ kyberSecretKeyBytes ≤ secretKey.length ∧
        c.kemDecaps (secretKey.take kyberSecretKeyBytes) ct = shared := by
  rw [decapsulate]
  split_ifs with hct hsecret
  · simp [hct]
  · simp [not_le.mpr hsecret]
  · simp [not_not.mp hct, not_lt.mp hsecret]

/-- `KyberInterop::combine_hybrid_secrets` for a root secret. -/
def combineHybridSecrets (c : Crypto) (classicalSecret kyberSecret info : Bytes) : Key :=
  derive c kyberSecret (hybridSaltPrefix ++ classicalSecret) info

def computeDh (c : Crypto) (privateKey publicKey : Bytes) (context : String) :
    Except ProtocolError Bytes := do
  require (privateKey.length = x25519PrivateKeyBytes ∧ publicKey.length = x25519PublicKeyBytes)
    (.voipCall "invalid X25519 key size for VoIP DH")
  DhValidator.validateX25519PublicKey publicKey
  require (isAllZero (c.x25519 privateKey publicKey) = false)
    (.voipCall s!"X25519 DH produced all-zero output for {context}")
  .ok (c.x25519 privateKey publicKey)

theorem computeDh_eq_ok {c : Crypto} {sk pk shared : Bytes} {context : String} :
    computeDh c sk pk context = .ok shared ↔
      (sk.length = x25519PrivateKeyBytes ∧ pk.length = x25519PublicKeyBytes) ∧
        DhValidator.validateX25519PublicKey pk = .ok () ∧
          isAllZero (c.x25519 sk pk) = false ∧ c.x25519 sk pk = shared := by
  simp only [computeDh, except_seq_eq_ok, require_eq_ok, Except.ok.injEq]

/-! ## What is signed and confirmed -/

structure CallInitAuthContext where
  version : UInt32
  mediaType : Int32
  ratchetIntervalFrames : UInt32
  pqRekeyIntervalSecs : UInt32
  shieldMode : Bool
  deriving DecidableEq

/-- `ScreenShareMetadata`, with the UTF-8 bytes of the codec hint. -/
structure ScreenShareMetadata where
  width : UInt32
  height : UInt32
  frameRate : UInt32
  codecHint : Option Bytes
  deriving DecidableEq

/-- `append_call_material_message`: what it appends. -/
def callMaterialMessage (callId : CallId) (ephX25519Public kyberCt : Bytes) : Bytes :=
  callId.1 ++ ephX25519Public ++ kyberCt

/-- `append_call_init_auth_context`: what it appends. -/
def callInitAuthContext (context : CallInitAuthContext) : Bytes :=
  leBytes 4 context.version.toNat ++ leBytes 4 context.mediaType.toUInt32.toNat ++
    leBytes 4 context.ratchetIntervalFrames.toNat ++ leBytes 4 context.pqRekeyIntervalSecs.toNat ++
      [if context.shieldMode then 1 else 0]

/-- `append_screen_share_signature_context`: what it appends. -/
def screenShareSignatureContext (screenShare : Option ScreenShareMetadata) :
    Except ProtocolError Bytes :=
  match screenShare with
  | none => .ok []
  | some metadata =>
    let head := screenShareLabel ++ leBytes 4 metadata.width.toNat ++ leBytes 4 metadata.height.toNat ++
      leBytes 4 metadata.frameRate.toNat
    match metadata.codecHint with
    | none => .ok (head ++ [0])
    | some hint => do
      require (hint.length < 2 ^ 32) (.voipCall "screen-share codec hint too long")
      .ok (head ++ [1] ++ leBytes 4 hint.length ++ hint)

/-- The message that the signature of a call message covers. -/
def callSignatureMessage (callId : CallId) (ephX25519Public kyberCt : Bytes)
    (context : CallInitAuthContext) (screenShare : Option ScreenShareMetadata) :
    Except ProtocolError Bytes := do
  let screenShareContext ← screenShareSignatureContext screenShare
  .ok (callMaterialMessage callId ephX25519Public kyberCt ++ callInitAuthContext context ++
    screenShareContext)

def signCallMaterialWithContext (c : Crypto) (ed25519Secret : Bytes) (callId : CallId)
    (ephX25519Public kyberCt : Bytes) (context : CallInitAuthContext)
    (screenShare : Option ScreenShareMetadata) : Except ProtocolError Bytes := do
  require (ed25519Secret.length = ed25519SecretKeyBytes)
    (.voipCall "invalid Ed25519 secret key size")
  require (c.ed25519KeypairValid ed25519Secret = true)
    (.voipCall "invalid Ed25519 keypair bytes")
  let message ← callSignatureMessage callId ephX25519Public kyberCt context screenShare
  .ok (c.ed25519Sign ed25519Secret message)

def verifyCallSignatureWithContext (c : Crypto) (ed25519Public : Bytes) (callId : CallId)
    (ephX25519Public kyberCt signature : Bytes) (context : CallInitAuthContext)
    (screenShare : Option ScreenShareMetadata) : Except ProtocolError Unit := do
  require (ed25519Public.length = ed25519PublicKeyBytes)
    (.voipCall "invalid Ed25519 public key size")
  require (signature.length = ed25519SignatureBytes) (.voipCall "invalid signature size")
  require (c.ed25519KeyValid ed25519Public = true) (.voipCall "invalid Ed25519 public key")
  let message ← callSignatureMessage callId ephX25519Public kyberCt context screenShare
  require (c.ed25519Verify ed25519Public message signature = true)
    (.voipCall "call signature verification failed")

def computeKeyConfirmMacWithContext (c : Crypto) (rootSecret info : Bytes) (callId : CallId)
    (context : CallInitAuthContext) : Bytes :=
  let macContext := callId.1 ++ callInitAuthContext context
  c.hmacSha256 (derive c rootSecret macContext info).1 macContext

/-! ## Setting up a call -/

structure CallInitOutput where
  callId : CallId
  ephemeralX25519Public : Bytes
  kyberCiphertext : Bytes
  identityEd25519Public : Bytes
  signature : Bytes
  keyConfirmationMac : Bytes
  ephemeralX25519Private : Key
  kyberSharedSecret : Bytes
  deriving DecidableEq

structure CallAcceptOutput where
  ephemeralX25519Public : Bytes
  kyberCiphertext : Bytes
  identityEd25519Public : Bytes
  signature : Bytes
  keyConfirmationMac : Bytes
  keyMaterial : CallKeyMaterial
  deriving DecidableEq

/-- The size check of a call identifier. -/
def checkCallId (callId : Bytes) : Except ProtocolError CallId :=
  if h : callId.length = callIdBytes then .ok ⟨callId, h⟩
  else .error (.voipCall "invalid call_id size")

theorem checkCallId_eq_ok {raw : Bytes} {callId : CallId} :
    checkCallId raw = .ok callId ↔ raw = callId.1 := by
  rw [checkCallId]
  split_ifs with h
  · rw [Except.ok.injEq, Subtype.ext_iff]
  · refine ⟨fun h' => (by cases h'), fun h' => absurd ?_ h⟩
    rw [h']
    exact callId.2

/-- `caller_init_with_context_and_screen_share`.  The last arguments are the random call
identifier, ephemeral key and encapsulation. -/
def callerInit (c : Crypto) (identityEd25519Secret identityEd25519Public peerKyberPublic : Bytes)
    (authContext : CallInitAuthContext) (screenShare : Option ScreenShareMetadata)
    (callId : CallId) (ephSecret : Key) (kemRandom : Bytes) :
    Except ProtocolError CallInitOutput := do
  let ephPublic := c.x25519Public ephSecret.1
  let (kyberCt, kyberSs) ← encapsulate c peerKyberPublic kemRandom
  let signature ← signCallMaterialWithContext c identityEd25519Secret callId ephPublic kyberCt
    authContext screenShare
  .ok
    { callId
      ephemeralX25519Public := ephPublic
      kyberCiphertext := kyberCt
      identityEd25519Public
      signature
      keyConfirmationMac :=
        computeKeyConfirmMacWithContext c kyberSs voipKeyConfirmCallerInfo callId authContext
      ephemeralX25519Private := ephSecret
      kyberSharedSecret := kyberSs }

/-- `callee_accept_with_context_and_screen_share`.  The last arguments are the random ephemeral
key and encapsulation. -/
def calleeAccept (c : Crypto) (identityEd25519Secret identityEd25519Public identityKyberSecret
    peerKyberPublic rawCallId peerEphX25519Public peerKyberCt peerEd25519Public peerSignature
    peerKeyConfirmMac : Bytes) (authContext : CallInitAuthContext)
    (peerScreenShare localScreenShare : Option ScreenShareMetadata) (ephSecret : Key)
    (kemRandom : Bytes) : Except ProtocolError CallAcceptOutput := do
  let callId ← checkCallId rawCallId
  verifyCallSignatureWithContext c peerEd25519Public callId peerEphX25519Public peerKyberCt
    peerSignature authContext peerScreenShare
  let callerKyberSs ← decapsulate c peerKyberCt identityKyberSecret
  require (peerKeyConfirmMac = computeKeyConfirmMacWithContext c callerKyberSs
    voipKeyConfirmCallerInfo callId authContext) (.voipCall "caller key confirmation MAC mismatch")
  let ephPublic := c.x25519Public ephSecret.1
  let classicalSs ← computeDh c ephSecret.1 peerEphX25519Public "callee_eph × caller_eph"
  let (calleeKyberCt, calleeKyberSs) ← encapsulate c peerKyberPublic kemRandom
  let rootSecret := combineHybridSecrets c classicalSs (callerKyberSs ++ calleeKyberSs)
    voipRootSecretInfo
  let signature ← signCallMaterialWithContext c identityEd25519Secret callId ephPublic
    calleeKyberCt authContext localScreenShare
  .ok
    { ephemeralX25519Public := ephPublic
      kyberCiphertext := calleeKyberCt
      identityEd25519Public
      signature
      keyConfirmationMac := computeKeyConfirmMacWithContext c rootSecret.1
        voipKeyConfirmCalleeInfo callId authContext
      keyMaterial := deriveCallKeys c rootSecret callId false authContext.shieldMode }

/-- `caller_finish_with_context_and_screen_share`. -/
def callerFinish (c : Crypto) (initOutput : CallInitOutput) (identityKyberSecret rawCallId
    peerEphX25519Public peerKyberCt peerEd25519Public peerSignature peerKeyConfirmMac : Bytes)
    (authContext : CallInitAuthContext) (peerScreenShare : Option ScreenShareMetadata) :
    Except ProtocolError CallKeyMaterial := do
  let callId ← checkCallId rawCallId
  verifyCallSignatureWithContext c peerEd25519Public callId peerEphX25519Public peerKyberCt
    peerSignature authContext peerScreenShare
  let classicalSs ← computeDh c initOutput.ephemeralX25519Private.1 peerEphX25519Public
    "caller_eph × callee_eph"
  let calleeKyberSs ← decapsulate c peerKyberCt identityKyberSecret
  let rootSecret := combineHybridSecrets c classicalSs
    (initOutput.kyberSharedSecret ++ calleeKyberSs) voipRootSecretInfo
  require (peerKeyConfirmMac = computeKeyConfirmMacWithContext c rootSecret.1
    voipKeyConfirmCalleeInfo callId authContext) (.voipCall "callee key confirmation MAC mismatch")
  .ok (deriveCallKeys c rootSecret callId true authContext.shieldMode)

/-! ## Rekeying -/

/-- The message that the signature of a rekey message covers. -/
def rekeySignatureMessage (callId : CallId) (rekeyGeneration : ℕ)
    (ephX25519Public kyberCt : Bytes) : Bytes :=
  callMaterialMessage callId ephX25519Public kyberCt ++ leBytes 4 rekeyGeneration

def verifyRekeySignature (c : Crypto) (ed25519Public : Bytes) (callId : CallId)
    (rekeyGeneration : ℕ) (ephX25519Public kyberCt signature : Bytes) :
    Except ProtocolError Unit := do
  require (ed25519Public.length = ed25519PublicKeyBytes)
    (.voipRekey "invalid Ed25519 public key size")
  require (signature.length = ed25519SignatureBytes) (.voipRekey "invalid signature size")
  require (ephX25519Public.length = x25519PublicKeyBytes)
    (.voipRekey "invalid rekey ephemeral key size")
  require (kyberCt.length = kyberCiphertextBytes) (.voipRekey "invalid rekey ciphertext size")
  require (c.ed25519KeyValid ed25519Public = true) (.voipRekey "invalid Ed25519 public key")
  require (c.ed25519Verify ed25519Public
      (rekeySignatureMessage callId rekeyGeneration ephX25519Public kyberCt) signature = true)
    (.voipRekey "rekey signature verification failed")

def signRekeyMaterial (c : Crypto) (ed25519Secret : Bytes) (callId : CallId)
    (rekeyGeneration : ℕ) (ephX25519Public kyberCt : Bytes) : Except ProtocolError Bytes := do
  require (ed25519Secret.length = ed25519SecretKeyBytes)
    (.voipRekey "invalid Ed25519 secret key size")
  require (c.ed25519KeypairValid ed25519Secret = true)
    (.voipRekey "invalid Ed25519 keypair bytes")
  .ok (c.ed25519Sign ed25519Secret
    (rekeySignatureMessage callId rekeyGeneration ephX25519Public kyberCt))

def computeRekeyMac (c : Crypto) (keyMaterial info : Bytes) (callId : CallId)
    (rekeyGeneration : ℕ) : Bytes :=
  let context := callId.1 ++ leBytes 4 rekeyGeneration
  c.hmacSha256 (derive c keyMaterial context info).1 context

def computeRekeyMacBound (c : Crypto) (currentRootSecret : Key) (freshKyberSs info : Bytes)
    (callId : CallId) (rekeyGeneration : ℕ) : Bytes :=
  computeRekeyMac c (currentRootSecret.1 ++ freshKyberSs) info callId rekeyGeneration

/-- `rekey_initiate`: the offer and its generation.  The last arguments are the random ephemeral
key and encapsulation. -/
def rekeyInitiate (c : Crypto) (identityEd25519Secret peerKyberPublic : Bytes) (callId : CallId)
    (currentRootSecret : Key) (rekeyGeneration : ℕ) (ephSecret : Key) (kemRandom : Bytes) :
    Except ProtocolError (CallInitOutput × ℕ) := do
  require (rekeyGeneration < maxRatchetGeneration) (.voipRekey "rekey generation limit reached")
  let ephPublic := c.x25519Public ephSecret.1
  let (kyberCt, kyberSs) ← encapsulate c peerKyberPublic kemRandom
  let newGen := rekeyGeneration + 1
  let signature ← signRekeyMaterial c identityEd25519Secret callId newGen ephPublic kyberCt
  .ok (
    { callId
      ephemeralX25519Public := ephPublic
      kyberCiphertext := kyberCt
      identityEd25519Public := []
      signature
      keyConfirmationMac := computeRekeyMacBound c currentRootSecret kyberSs
        voipKeyConfirmCallerInfo callId newGen
      ephemeralX25519Private := ephSecret
      kyberSharedSecret := kyberSs }, newGen)

/-- The root secret after a rekey. -/
def rekeyRoot (c : Crypto) (currentRootSecret : Key) (classicalSs newKyberSs : Bytes)
    (callId : CallId) : Key :=
  derive c (currentRootSecret.1 ++ classicalSs ++ newKyberSs) callId.1 voipRekeyInfo

/-- `rekey_complete`: the party that started the rekey takes the caller's keys. -/
def rekeyComplete (c : Crypto) (currentRootSecret : Key) (classicalSs newKyberSs : Bytes)
    (callId : CallId) (isInitiator shieldMode : Bool) : CallKeyMaterial :=
  deriveCallKeys c (rekeyRoot c currentRootSecret classicalSs newKyberSs callId) callId isInitiator
    shieldMode

end AuraProtocol.Voip
