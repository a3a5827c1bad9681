import AuraProtocol.Session.Keys

/-!
# From a handshake to a session

`build_protocol_state` assembles the state both parties of a handshake start
from, and `Session::from_handshake_state` turns it into a session by one hybrid
step that derives the two symmetric chains.
-/

namespace AuraProtocol.Session

open Fallible DhValidator

/-- The arguments of `build_protocol_state`, in its order. -/
structure BuildArgs where
  isInitiator : Bool
  rootKey : Bytes
  sessionId : Bytes
  metadataKey : Bytes
  dhLocalPrivate : Bytes
  dhLocalPublic : Bytes
  dhRemotePublic : Bytes
  initialSelfPublic : Bytes
  initialPeerPublic : Bytes
  kyberSecret : Bytes
  kyberPublic : Bytes
  peerKyberPublic : Bytes
  maxMessagesPerChain : ℕ
  maxNonceCounter : ℕ
  nonceGenerator : NonceState
  createdAtUnix : ℕ
  localIdentityEd25519 : Bytes
  localIdentityX25519 : Bytes
  peerIdentityEd25519 : Bytes
  peerIdentityX25519 : Bytes

/-- The checks of `build_protocol_state`. -/
def checkBuildArgs (a : BuildArgs) : Except ProtocolError Unit := do
  require (a.rootKey.length = rootKeyBytes ∧ a.sessionId.length = sessionIdBytes ∧
      a.metadataKey.length = metadataKeyBytes)
    (.invalidInput "Invalid root/session/metadata key sizes")
  require (a.dhLocalPrivate.length = x25519PrivateKeyBytes ∧
      a.dhLocalPublic.length = x25519PublicKeyBytes ∧
      a.dhRemotePublic.length = x25519PublicKeyBytes ∧
      a.initialSelfPublic.length = x25519PublicKeyBytes ∧
      a.initialPeerPublic.length = x25519PublicKeyBytes)
    (.invalidInput "Invalid DH key sizes")
  require (a.kyberSecret.length = kyberSecretKeyBytes ∧
      a.kyberPublic.length = kyberPublicKeyBytes ∧ a.peerKyberPublic.length = kyberPublicKeyBytes)
    (.invalidInput "Invalid Kyber key sizes")
  require (a.localIdentityEd25519.length = ed25519PublicKeyBytes ∧
      a.localIdentityX25519.length = x25519PublicKeyBytes ∧
      a.peerIdentityEd25519.length = ed25519PublicKeyBytes ∧
      a.peerIdentityX25519.length = x25519PublicKeyBytes)
    (.invalidInput "Invalid identity key sizes")
  (validateX25519PublicKey a.localIdentityX25519).mapError fun _ =>
    .invalidInput "Local X25519 identity key validation failed"
  (validateX25519PublicKey a.peerIdentityX25519).mapError fun _ =>
    .invalidInput "Peer X25519 identity key validation failed"
  require (isAllZero a.localIdentityEd25519 = false)
    (.invalidInput "Local Ed25519 identity key is all zeros")
  require (isAllZero a.peerIdentityEd25519 = false)
    (.invalidInput "Peer Ed25519 identity key is all zeros")
  require (a.maxMessagesPerChain ≠ 0 ∧ a.maxMessagesPerChain ≤ AuraProtocol.maxMessagesPerChain)
    (.invalidInput "Invalid max messages per chain")
  require (a.maxNonceCounter ≠ 0 ∧ a.maxNonceCounter ≤ AuraProtocol.maxNonceCounter)
    (.invalidInput "Invalid max nonce counter (must be 1..=65535)")

/-- The chain of a state that has not been initialised from a handshake yet. -/
def emptyChain : ChainState where
  messageIndex := 0
  chainKey := []
  skippedMessageKeys := []

def buildProtocolState (c : Crypto) (a : BuildArgs) : Except ProtocolError ProtocolState := do
  checkBuildArgs a
  let identityBinding ← computeIdentityBindingHash c a.localIdentityEd25519 a.localIdentityX25519
    a.peerIdentityEd25519 a.peerIdentityX25519
  let createdAt ← timestampFromUnixSecs a.createdAtUnix
  .ok {
    version := protocolVersion
    isInitiator := a.isInitiator
    createdAt := some createdAt
    sessionId := a.sessionId
    rootKey := a.rootKey
    metadataKey := a.metadataKey
    sendMetadataKey := a.metadataKey
    stateCounter := 0
    sendRatchetEpoch := 0
    recvRatchetEpoch := 0
    maxMessagesPerChain := a.maxMessagesPerChain
    maxNonceCounter := a.maxNonceCounter
    dhLocal := some { privateKey := a.dhLocalPrivate, publicKey := a.dhLocalPublic }
    dhRemotePublic := a.dhRemotePublic
    dhLocalInitialPublic := a.initialSelfPublic
    dhRemoteInitialPublic := a.initialPeerPublic
    kyberLocal := some { secretKey := a.kyberSecret, publicKey := a.kyberPublic }
    kyberRemotePublic := a.peerKyberPublic
    nonceGenerator := some a.nonceGenerator
    sendChain := some emptyChain
    recvChain := some emptyChain
    localIdentityEd25519Public := a.localIdentityEd25519
    localIdentityX25519Public := a.localIdentityX25519
    peerIdentityEd25519Public := a.peerIdentityEd25519
    peerIdentityX25519Public := a.peerIdentityX25519
    identityBindingHash := identityBinding
    stateHmac := []
    replayEpoch := 0
    seenPayloadNonces := []
    sendRatchetPending := false
    skippedKeys := []
    cachedMetadataKeys := []
    deviceId := none
    sessionTtlSeconds := none
    lastActivityUnix := none
    totalMessagesSent := 0
    totalMessagesReceived := 0 }

/-- What `build_protocol_state` asks of its arguments. -/
structure ValidArgs (a : BuildArgs) : Prop where
  keys : a.rootKey.length = rootKeyBytes ∧ a.sessionId.length = sessionIdBytes ∧
    a.metadataKey.length = metadataKeyBytes
  dh : a.dhLocalPrivate.length = x25519PrivateKeyBytes ∧
    a.dhLocalPublic.length = x25519PublicKeyBytes ∧
    a.dhRemotePublic.length = x25519PublicKeyBytes ∧
    a.initialSelfPublic.length = x25519PublicKeyBytes ∧
    a.initialPeerPublic.length = x25519PublicKeyBytes
  kyber : a.kyberSecret.length = kyberSecretKeyBytes ∧
    a.kyberPublic.length = kyberPublicKeyBytes ∧ a.peerKyberPublic.length = kyberPublicKeyBytes
  identityEd25519 : a.localIdentityEd25519.length = ed25519PublicKeyBytes ∧
    a.peerIdentityEd25519.length = ed25519PublicKeyBytes
  identityX25519 : validateX25519PublicKey a.localIdentityX25519 = .ok () ∧
    validateX25519PublicKey a.peerIdentityX25519 = .ok ()
  identityEd25519_ne_zero : isAllZero a.localIdentityEd25519 = false ∧
    isAllZero a.peerIdentityEd25519 = false
  maxMessagesPerChain :
    a.maxMessagesPerChain ≠ 0 ∧ a.maxMessagesPerChain ≤ AuraProtocol.maxMessagesPerChain
  maxNonceCounter : a.maxNonceCounter ≠ 0 ∧ a.maxNonceCounter ≤ AuraProtocol.maxNonceCounter

theorem checkBuildArgs_of_validArgs {a : BuildArgs} (h : ValidArgs a) :
    checkBuildArgs a = .ok () := by
  have hlocal := length_of_validate h.identityX25519.1
  have hpeer := length_of_validate h.identityX25519.2
  simp only [checkBuildArgs, except_seq_eq_ok, require_eq_ok, mapError_eq_ok]
  exact ⟨h.keys, h.dh, h.kyber, ⟨h.identityEd25519.1, hlocal, h.identityEd25519.2, hpeer⟩,
    h.identityX25519.1, h.identityX25519.2, h.identityEd25519_ne_zero.1,
    h.identityEd25519_ne_zero.2, h.maxMessagesPerChain, h.maxNonceCounter⟩

theorem buildProtocolState_isOk {c : Crypto} {a : BuildArgs} (h : ValidArgs a)
    (hcreated : a.createdAtUnix < 2 ^ 63) : ∃ state, buildProtocolState c a = .ok state := by
  have hlocal := length_of_validate h.identityX25519.1
  have hpeer := length_of_validate h.identityX25519.2
  simp only [buildProtocolState, computeIdentityBindingHash, timestampFromUnixSecs, if_pos hcreated,
    except_bind_eq_ok, require_eq_ok]
  exact ⟨_, (), checkBuildArgs_of_validArgs h, _,
    ⟨(), h.identityEd25519, (), ⟨hlocal, hpeer⟩, rfl⟩, _, rfl, rfl⟩

structure HandshakeState where
  state : ProtocolState
  kyberSharedSecret : Bytes

/-! ## Moving secrets to secure memory -/

/-- Moves the local DH private key of a state to secure memory; zeros stay in its place. -/
def takeDhPrivate (state : ProtocolState) : Except ProtocolError (ProtocolState × Option Bytes) :=
  match state.dhLocal with
  | none => .ok (state, none)
  | some dh =>
    if dh.privateKey.isEmpty then .ok (state, none)
    else do
      let handle ← secureHandle x25519PrivateKeyBytes dh.privateKey
      .ok ({ state with
        dhLocal := some { dh with privateKey := List.replicate x25519PrivateKeyBytes 0 } },
        some handle)

/-- Moves the local KEM secret key of a state to secure memory; zeros stay in its place. -/
def takeKyberSecret (state : ProtocolState) : Except ProtocolError (ProtocolState × Option Bytes) :=
  match state.kyberLocal with
  | none => .ok (state, none)
  | some kyber =>
    if kyber.secretKey.isEmpty then .ok (state, none)
    else do
      let handle ← secureHandle kyberSecretKeyBytes kyber.secretKey
      .ok ({ state with
        kyberLocal := some { kyber with secretKey := List.replicate kyberSecretKeyBytes 0 } },
        some handle)

theorem takeDhPrivate_eq_ok {state state' : ProtocolState} {handle : Option Bytes}
    (h : takeDhPrivate state = .ok (state', handle)) :
    state' = { state with dhLocal := state'.dhLocal } ∧
      ∀ b ∈ handle, b.length = x25519PrivateKeyBytes := by
  rw [takeDhPrivate] at h
  split at h
  · cases h
    exact ⟨rfl, fun b hb => (by cases hb)⟩
  · split_ifs at h with hempty
    · cases h
      exact ⟨rfl, fun b hb => (by cases hb)⟩
    · obtain ⟨handle, hhandle, h⟩ := except_bind_eq_ok.mp h
      cases h
      refine ⟨rfl, fun b hb => ?_⟩
      cases hb
      exact length_of_secureHandle hhandle

theorem takeKyberSecret_eq_ok {state state' : ProtocolState} {handle : Option Bytes}
    (h : takeKyberSecret state = .ok (state', handle)) :
    state' = { state with kyberLocal := state'.kyberLocal } ∧
      ∀ b ∈ handle, b.length = kyberSecretKeyBytes := by
  rw [takeKyberSecret] at h
  split at h
  · cases h
    exact ⟨rfl, fun b hb => (by cases hb)⟩
  · split_ifs at h with hempty
    · cases h
      exact ⟨rfl, fun b hb => (by cases hb)⟩
    · obtain ⟨handle, hhandle, h⟩ := except_bind_eq_ok.mp h
      cases h
      refine ⟨rfl, fun b hb => ?_⟩
      cases hb
      exact length_of_secureHandle hhandle

/-- `Session::new`. -/
def newSession (state : ProtocolState) (pendingKyberSharedSecret : Bytes) :
    Except ProtocolError SessionInner := do
  let (state, dhHandle) ← takeDhPrivate state
  let (state, kyberHandle) ← takeKyberSecret state
  .ok { state := state
        pendingKyberSharedSecret := pendingKyberSharedSecret
        skippedMessageKeys := ∅
        cachedMetadataKeys := ∅
        replayEpoch := state.recvRatchetEpoch
        seenPayloadNonces := ∅
        seenPayloadNonceOrder := []
        isInitiator := state.isInitiator
        dhPrivateHandle := dhHandle
        kyberSecretHandle := kyberHandle
        sendRatchetPending := false
        messagesSinceLastDhRatchet := 0 }

/-- The root key and the two chain keys derived from the handshake's secrets; the first chain
is the initiator's sending chain. -/
def deriveInitialChains (c : Crypto) (s : SessionInner) :
    Except ProtocolError (Bytes × Bytes × Bytes) := do
  require (s.pendingKyberSharedSecret.length = kyberSharedSecretBytes)
    (.invalidState "Missing Kyber shared secret for handshake init")
  require (s.state.rootKey.length = rootKeyBytes) (.invalidInput "Invalid root key size")
  require ((s.state.dhLocal.map fun dh => dh.privateKey.length).getD 0 = x25519PrivateKeyBytes ∧
      s.state.dhRemotePublic.length = x25519PublicKeyBytes)
    (.invalidInput "Invalid DH keys for handshake init")
  validateX25519PublicKey s.state.dhRemotePublic
  let handle ← orError s.dhPrivateHandle (.invalidState "DH private key handle missing")
  let dhPrivate ← readBytes handle x25519PrivateKeyBytes
  let dhInit ← computeDh c dhPrivate s.state.dhRemotePublic
  let hybridOut ← HkdfSha256.deriveKeyBytes c (dhInit ++ s.pendingKyberSharedSecret)
    (rootKeyBytes * 2) s.state.rootKey hybridRatchetInfo
  require (hybridOut.length = rootKeyBytes * 2) (.invalidState "Hybrid ratchet output size mismatch")
  let newRoot := hybridOut.take rootKeyBytes
  let chainInit ← HkdfSha256.deriveKeyBytes c newRoot (chainKeyBytes * 2) [] chainInitInfo
  require (chainInit.length = chainKeyBytes * 2) (.invalidState "Chain init output size mismatch")
  .ok (newRoot, chainInit.take chainKeyBytes, chainInit.drop chainKeyBytes)

/-- `initialize_from_handshake_inner`. -/
def initializeFromHandshake (c : Crypto) (s : SessionInner) : Except ProtocolError SessionInner := do
  let (newRoot, first, second) ← deriveInitialChains c s
  let (sendKey, recvKey) := if s.isInitiator then (first, second) else (second, first)
  .ok { s with
    pendingKyberSharedSecret := []
    skippedMessageKeys := ∅
    state := { s.state with
      rootKey := newRoot
      sendChain := some { messageIndex := 0, chainKey := sendKey, skippedMessageKeys := [] }
      recvChain := some { messageIndex := 0, chainKey := recvKey, skippedMessageKeys := [] }
      sendRatchetEpoch := 0
      recvRatchetEpoch := 0 } }

def fromHandshakeState (c : Crypto) (hs : HandshakeState) : Except ProtocolError SessionInner := do
  require (hs.state.version = protocolVersion)
    (.invalidInput "Invalid protocol version in handshake state")
  let s ← newSession hs.state hs.kyberSharedSecret
  initializeFromHandshake c s

end AuraProtocol.Session
