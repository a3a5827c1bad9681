import AuraProtocol.Lib.Serial

/-!
# Byte strings, errors and protocol constants

The vocabulary shared by every part of the model: byte strings as lists of
bytes, the library's error type with the texts of its messages, and the
constants of `core/constants.rs` that the modelled functions read.
-/

namespace AuraProtocol

/-- A byte string. -/
abbrev Bytes := List UInt8

instance instLawfulBEqBytes : LawfulBEq Bytes := inferInstance

/-- The bytes of an ASCII literal. -/
def ascii (s : String) : Bytes := s.toList.map fun c => UInt8.ofNat c.toNat

export LittleEndian (leBytes length_leBytes leNat leNat_leBytes leBytes_injective leNat_lt)
export BigEndian (beBytes length_beBytes beNat beNat_beBytes beBytes_injective)

/-- Whether every byte is zero. -/
def isAllZero (bs : Bytes) : Bool := bs.all (· == 0)

/-- The largest `u64`. -/
def u64Max : ℕ := 2 ^ 64 - 1

/-- `checked_add` on `u64`. -/
def checkedAdd (a b : ℕ) : Option ℕ := if a + b ≤ u64Max then some (a + b) else none

theorem checkedAdd_eq_some {a b n : ℕ} :
    checkedAdd a b = some n ↔ a + b ≤ u64Max ∧ n = a + b := by
  rw [checkedAdd]
  split_ifs with h <;> simp [h, eq_comm]

/-! ## Errors -/

/-- `CryptoError`, as far as the modelled code raises it. -/
inductive CryptoError where
  | bufferTooSmall (capacity required : ℕ)
  | allocationFailed (size : ℕ)
  | kyberFailed (operation detail : String)
  deriving DecidableEq, Repr

/-- `ProtocolError`, as far as the modelled code raises it. -/
inductive ProtocolError where
  | keyGeneration (msg : String)
  | deriveKey (msg : String)
  | invalidInput (msg : String)
  | prepareLocal (msg : String)
  | peerPubKey (msg : String)
  | handshake (msg : String)
  | decode (msg : String)
  | encode (msg : String)
  | replayAttack (msg : String)
  | invalidState (msg : String)
  | generic (msg : String)
  | groupProtocol (msg : String)
  | groupMembership (msg : String)
  | treeIntegrity (msg : String)
  | welcomeError (msg : String)
  | messageExpired (msg : String)
  | frankingFailed (msg : String)
  | voipCall (msg : String)
  | voipMedia (msg : String)
  | voipRekey (msg : String)
  | crypto (e : CryptoError)
  deriving DecidableEq, Repr

/-- The text of a `CryptoError`. -/
def CryptoError.display : CryptoError → String
  | .bufferTooSmall capacity required =>
    s!"secure memory region too small: capacity {capacity} bytes, " ++
      s!"operation requires {required} bytes"
  | .allocationFailed size => s!"secure memory allocation of {size} bytes failed"
  | .kyberFailed operation detail => s!"Kyber-768 KEM '{operation}' failed: {detail}"

/-- The text of a `ProtocolError`. -/
def ProtocolError.display : ProtocolError → String
  | .keyGeneration msg => s!"key generation failed: {msg}"
  | .deriveKey msg => s!"key derivation failed: {msg}"
  | .invalidInput msg => s!"invalid input: {msg}"
  | .prepareLocal msg => s!"local bundle preparation failed: {msg}"
  | .peerPubKey msg => s!"peer public key error: {msg}"
  | .handshake msg => s!"handshake failed: {msg}"
  | .decode msg => s!"protobuf decode failed: {msg}"
  | .encode msg => s!"protobuf encode failed: {msg}"
  | .replayAttack msg => s!"replay attack detected: {msg}"
  | .invalidState msg => s!"invalid session state: {msg}"
  | .generic msg => s!"generic error: {msg}"
  | .groupProtocol msg => s!"group protocol error: {msg}"
  | .groupMembership msg => s!"group membership error: {msg}"
  | .treeIntegrity msg => s!"tree integrity error: {msg}"
  | .welcomeError msg => s!"welcome processing failed: {msg}"
  | .messageExpired msg => s!"message expired: {msg}"
  | .frankingFailed msg => s!"franking verification failed: {msg}"
  | .voipCall msg => s!"VoIP call error: {msg}"
  | .voipMedia msg => s!"VoIP media error: {msg}"
  | .voipRekey msg => s!"VoIP rekey error: {msg}"
  | .crypto e => s!"secure-memory error: {e.display}"

/-- The text of the `CryptoError` that a function of the crypto layer failed with, before it was
made a `ProtocolError`. -/
def ProtocolError.cryptoText : ProtocolError → String
  | .crypto e => e.display
  | e => e.display

/-! ## Constants -/

def protocolVersion : ℕ := 2
def x25519PublicKeyBytes : ℕ := 32
def x25519PrivateKeyBytes : ℕ := 32
def ed25519PublicKeyBytes : ℕ := 32
def ed25519SecretKeyBytes : ℕ := 64
def ed25519SignatureBytes : ℕ := 64
def kyberPublicKeyBytes : ℕ := 1184
def kyberSecretKeyBytes : ℕ := 64
def kyberCiphertextBytes : ℕ := 1088
def kyberSharedSecretBytes : ℕ := 32
def kyberSeedKeyBytes : ℕ := 32
def rootKeyBytes : ℕ := 32
def chainKeyBytes : ℕ := 32
def messageKeyBytes : ℕ := 32
def metadataKeyBytes : ℕ := 32
def sessionIdBytes : ℕ := 16
def hmacBytes : ℕ := 32
def identityBindingHashBytes : ℕ := 32
def aesKeyBytes : ℕ := 32
def aesGcmNonceBytes : ℕ := 12
def aesGcmTagBytes : ℕ := 16
def noncePrefixBytes : ℕ := 8
def nonceCounterBytes : ℕ := 2
def nonceIndexBytes : ℕ := 2
def maxNonceCounter : ℕ := 0xFFFF
def maxMessageIndex : ℕ := 0xFFFF
def maxSkippedMessageKeys : ℕ := 1000
def maxCachedMetadataKeys : ℕ := 100
def maxMetadataKeyEpochAge : ℕ := 32
def maxSkippedKeyEpochAge : ℕ := maxMetadataKeyEpochAge
def maxSeenNonces : ℕ := 2048
def maxMessagesPerChain : ℕ := 10000
def ratchetOutputBytes : ℕ := rootKeyBytes + chainKeyBytes + metadataKeyBytes
def deviceIdBytes : ℕ := 32
def minSessionTtlSeconds : ℕ := 60
def maxSessionTtlSeconds : ℕ := 365 * 24 * 3600
def maxBufferSize : ℕ := 10 * 1024 * 1024
def maxProtobufMessageSize : ℕ := 1024 * 1024
def messagePaddingBlockSize : ℕ := 64
def hkdfMaxOutputBytes : ℕ := 255 * 32
def defaultMessagesPerChain : ℕ := 1000
def maxSeenHandshakeInits : ℕ := 16384
def maxInflightHandshakeInits : ℕ := 4096
def maxOneTimePreKeysPerBundle : ℕ := 4096
def opkIdModulus : ℕ := 0xFFFFFFFE
def opkIdOffset : ℕ := 2
def opkIdRetryLimit : ℕ := 64
def otkExhaustionWarningPercent : ℕ := 10
def maxHandshakeMessageSize : ℕ := 16 * 1024
def minMasterKeyBytes : ℕ := 32
def spkIdBytes : ℕ := 4
def identityReplayStateVersion : ℕ := 1

def hybridRatchetInfo : Bytes := ascii "Aura-Hybrid-Ratchet"
def chainInitInfo : Bytes := ascii "Aura-ChainInit"
def chainInfo : Bytes := ascii "Aura-Chain"
def messageInfo : Bytes := ascii "Aura-Msg"
def stateHmacInfo : Bytes := ascii "Aura-State-HMAC"
def identityBindingInfo : Bytes := ascii "Aura-Identity-Binding"
def identityReplayStateAad : Bytes := ascii "aura-identity-replay-state-v1"
def x3dhInfo : Bytes := ascii "Aura-X3DH"
def hybridX3dhInfo : Bytes := ascii "Aura-Hybrid-X3DH"
def sessionIdInfo : Bytes := ascii "Aura-SessionId"
def metadataKeyInfo : Bytes := ascii "Aura-MetadataKey"
def keyConfirmInitInfo : Bytes := ascii "Aura-KeyConfirm-I"
def keyConfirmRespInfo : Bytes := ascii "Aura-KeyConfirm-R"
def transcriptLabel : Bytes := ascii "Aura-Handshake-Transcript"
def handshakeInitIdentityBindingInfo : Bytes := ascii "Aura-Handshake-Init-Identity-Binding"
def x3dhFillByte : UInt8 := 0xFF
def mkdLabel : Bytes := ascii "aura-mkd"
def mkdEd25519Info : Bytes := ascii "aura-identity-ed25519"
def mkdX25519Info : Bytes := ascii "aura-identity-x25519"
def mkdSignedPreKeyInfo : Bytes := ascii "aura-signed-pre-key"
def mkdKyberSeed1Info : Bytes := ascii "aura-kyber-seed-1"
def mkdKyberSeed2Info : Bytes := ascii "aura-kyber-seed-2"
def spkIdInfo : Bytes := ascii "Aura-SPK-ID"

end AuraProtocol
