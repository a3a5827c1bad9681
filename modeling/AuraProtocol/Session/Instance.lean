import AuraProtocol.Crypto.Instance
import AuraProtocol.Session.Encrypt
import AuraProtocol.Session.Sealed

/-!
# An instance of the session's messages, and a pair of sessions

Codecs for the session's messages over self-delimiting codes, so the assumption
that decoding inverts encoding is consistent, and the two sessions of a handshake
between fixed keys.
-/

namespace AuraProtocol

/-- A codec from a self-delimiting code; nothing may follow the encoding. -/
def Codec.ofSerial {α : Type} (s : Serial α) : Codec α where
  encode := s.put
  decode bs :=
    match s.get bs with
    | some (a, []) => .ok a
    | _ => .error "invalid wire format"
  decode_encode a := by
    have h := s.get_put a []
    rw [List.append_nil] at h
    rw [h]

namespace Session

open Serial

/-- Code of a `Timestamp`. -/
def serialTimestamp : Serial Timestamp :=
  (int.prod int).iso (fun t => ⟨t.1, t.2⟩) (fun t => (t.seconds, t.nanos)) (fun _ => rfl)

/-- Code of a `CachedMessageKey`. -/
def serialCachedMessageKey : Serial CachedMessageKey :=
  (nat.prod (bytes.prod nat)).iso (fun t => ⟨t.1, t.2.1, t.2.2⟩)
    (fun k => (k.messageIndex, k.messageKey, k.epoch)) (fun _ => rfl)

/-- Code of a `CachedMetadataKey`. -/
def serialCachedMetadataKey : Serial CachedMetadataKey :=
  (nat.prod bytes).iso (fun t => ⟨t.1, t.2⟩) (fun k => (k.epoch, k.metadataKey)) (fun _ => rfl)

/-- Code of a `ChainState`. -/
def serialChainState : Serial ChainState :=
  (nat.prod (bytes.prod (list serialCachedMessageKey))).iso (fun t => ⟨t.1, t.2.1, t.2.2⟩)
    (fun k => (k.messageIndex, k.chainKey, k.skippedMessageKeys)) (fun _ => rfl)

/-- Code of a `DhKeyPair`. -/
def serialDhKeyPair : Serial DhKeyPair :=
  (bytes.prod bytes).iso (fun t => ⟨t.1, t.2⟩) (fun k => (k.privateKey, k.publicKey)) (fun _ => rfl)

/-- Code of a `KyberKeyPair`. -/
def serialKyberKeyPair : Serial KyberKeyPair :=
  (bytes.prod bytes).iso (fun t => ⟨t.1, t.2⟩) (fun k => (k.secretKey, k.publicKey)) (fun _ => rfl)

/-- Code of a `NonceState`. -/
def serialNonceState : Serial NonceState :=
  (bytes.prod nat).iso (fun t => ⟨t.1, t.2⟩) (fun k => (k.noncePrefix, k.counter)) (fun _ => rfl)

/-- Code of an `EnvelopeMetadata`. -/
def serialEnvelopeMetadata : Serial EnvelopeMetadata :=
  (nat.prod (bytes.prod (int.prod (nat.prod (option text))))).iso
    (fun t => ⟨t.1, t.2.1, t.2.2.1, t.2.2.2.1, t.2.2.2.2⟩)
    (fun m => (m.messageIndex, m.payloadNonce, m.envelopeType, m.envelopeId, m.correlationId))
    (fun _ => rfl)

/-- Code of a `SealedState`. -/
def serialSealedState : Serial SealedState :=
  (nat.prod (bytes.prod (bytes.prod (bytes.prod (bytes.prod nat))))).iso
    (fun t => ⟨t.1, t.2.1, t.2.2.1, t.2.2.2.1, t.2.2.2.2.1, t.2.2.2.2.2⟩)
    (fun m => (m.version, m.dekNonce, m.stateNonce, m.encryptedDek, m.encryptedState,
      m.externalCounter))
    (fun _ => rfl)

/-- The fields of a `ProtocolState` up to the chains. -/
def serialStateHead : Serial (ℕ × Bool × Option Timestamp × Bytes × ℕ × ℕ × ℕ × Bytes ×
    Option ChainState × Option ChainState) :=
  nat.prod (bool.prod ((option serialTimestamp).prod (bytes.prod (nat.prod (nat.prod (nat.prod
    (bytes.prod ((option serialChainState).prod (option serialChainState)))))))))

/-- The key material of a `ProtocolState` and its limits. -/
def serialStateKeys : Serial (Option DhKeyPair × Bytes × Bytes × Bytes × Bytes ×
    Option KyberKeyPair × Bytes × Option NonceState × Bytes × ℕ × ℕ) :=
  (option serialDhKeyPair).prod (bytes.prod (bytes.prod (bytes.prod (bytes.prod
    ((option serialKyberKeyPair).prod (bytes.prod ((option serialNonceState).prod (bytes.prod
      (nat.prod nat)))))))))

/-- The remaining fields of a `ProtocolState`. -/
def serialStateRest : Serial (Bytes × Bytes × Bytes × Bytes × Bytes × ℕ × List Bytes × Bool ×
    List CachedMessageKey × List CachedMetadataKey × Bytes × Option Bytes × Option ℕ × Option ℕ ×
    ℕ × ℕ) :=
  bytes.prod (bytes.prod (bytes.prod (bytes.prod (bytes.prod (nat.prod ((list bytes).prod
    (bool.prod ((list serialCachedMessageKey).prod ((list serialCachedMetadataKey).prod
      (bytes.prod ((option bytes).prod ((option nat).prod ((option nat).prod
        (nat.prod nat))))))))))))))

/-- Code of a `ProtocolState`. -/
def serialProtocolState : Serial ProtocolState :=
  (serialStateHead.prod (serialStateKeys.prod serialStateRest)).iso
    (fun (⟨version, isInitiator, createdAt, sessionId, stateCounter, sendRatchetEpoch,
        recvRatchetEpoch, rootKey, sendChain, recvChain⟩,
      ⟨dhLocal, dhRemotePublic, dhLocalInitialPublic, dhRemoteInitialPublic, metadataKey,
        kyberLocal, kyberRemotePublic, nonceGenerator, stateHmac, maxMessagesPerChain,
        maxNonceCounter⟩,
      ⟨localEd, localX, peerEd, peerX, identityBindingHash, replayEpoch, seenPayloadNonces,
        sendRatchetPending, skippedKeys, cachedMetadataKeys, sendMetadataKey, deviceId,
        sessionTtlSeconds, lastActivityUnix, totalMessagesSent, totalMessagesReceived⟩) =>
      ⟨version, isInitiator, createdAt, sessionId, stateCounter, sendRatchetEpoch,
        recvRatchetEpoch, rootKey, sendChain, recvChain, dhLocal, dhRemotePublic,
        dhLocalInitialPublic, dhRemoteInitialPublic, metadataKey, kyberLocal, kyberRemotePublic,
        nonceGenerator, stateHmac, maxMessagesPerChain, maxNonceCounter, localEd, localX, peerEd,
        peerX, identityBindingHash, replayEpoch, seenPayloadNonces, sendRatchetPending,
        skippedKeys, cachedMetadataKeys, sendMetadataKey, deviceId, sessionTtlSeconds,
        lastActivityUnix, totalMessagesSent, totalMessagesReceived⟩)
    (fun s => (⟨s.version, s.isInitiator, s.createdAt, s.sessionId, s.stateCounter,
        s.sendRatchetEpoch, s.recvRatchetEpoch, s.rootKey, s.sendChain, s.recvChain⟩,
      ⟨s.dhLocal, s.dhRemotePublic, s.dhLocalInitialPublic, s.dhRemoteInitialPublic, s.metadataKey,
        s.kyberLocal, s.kyberRemotePublic, s.nonceGenerator, s.stateHmac, s.maxMessagesPerChain,
        s.maxNonceCounter⟩,
      ⟨s.localIdentityEd25519Public, s.localIdentityX25519Public, s.peerIdentityEd25519Public,
        s.peerIdentityX25519Public, s.identityBindingHash, s.replayEpoch, s.seenPayloadNonces,
        s.sendRatchetPending, s.skippedKeys, s.cachedMetadataKeys, s.sendMetadataKey, s.deviceId,
        s.sessionTtlSeconds, s.lastActivityUnix, s.totalMessagesSent, s.totalMessagesReceived⟩))
    (fun _ => rfl)

/-- Codecs of the session's messages. -/
def Wire.plain : Wire where
  metadata := .ofSerial serialEnvelopeMetadata
  protocolState := .ofSerial serialProtocolState
  sealedState := .ofSerial serialSealedState

/-! ## Two sessions -/

/-- The ephemeral X25519 keys of the two sides; the initiator is `true`. -/
def sampleDhPrivate (initiator : Bool) : Bytes :=
  List.replicate x25519PrivateKeyBytes (if initiator then 3 else 5)

/-- The randomness of the two KEM key pairs. -/
def sampleKyberSeed (initiator : Bool) : Bytes :=
  List.replicate kyberSecretKeyBytes (if initiator then 7 else 9)

/-- The Ed25519 identity keys. -/
def sampleEd25519 (initiator : Bool) : Bytes :=
  List.replicate ed25519PublicKeyBytes (if initiator then 21 else 22)

/-- The X25519 identity keys. -/
def sampleX25519 (initiator : Bool) : Bytes :=
  Crypto.transparent.x25519Public
    (List.replicate x25519PrivateKeyBytes (if initiator then 23 else 24))

/-- What the two sides of a handshake pass to `build_protocol_state`. -/
def sampleArgs (initiator : Bool) : BuildArgs where
  isInitiator := initiator
  rootKey := List.replicate rootKeyBytes 11
  sessionId := List.replicate sessionIdBytes 13
  metadataKey := List.replicate metadataKeyBytes 17
  dhLocalPrivate := sampleDhPrivate initiator
  dhLocalPublic := Crypto.transparent.x25519Public (sampleDhPrivate initiator)
  dhRemotePublic := Crypto.transparent.x25519Public (sampleDhPrivate !initiator)
  initialSelfPublic := Crypto.transparent.x25519Public (sampleDhPrivate initiator)
  initialPeerPublic := Crypto.transparent.x25519Public (sampleDhPrivate !initiator)
  kyberSecret := (Crypto.transparent.kemKeygen (sampleKyberSeed initiator)).1
  kyberPublic := (Crypto.transparent.kemKeygen (sampleKyberSeed initiator)).2
  peerKyberPublic := (Crypto.transparent.kemKeygen (sampleKyberSeed !initiator)).2
  maxMessagesPerChain := AuraProtocol.maxMessagesPerChain
  maxNonceCounter := AuraProtocol.maxNonceCounter
  nonceGenerator :=
    { noncePrefix := List.replicate noncePrefixBytes (if initiator then 1 else 2), counter := 0 }
  createdAtUnix := 1000
  localIdentityEd25519 := sampleEd25519 initiator
  localIdentityX25519 := sampleX25519 initiator
  peerIdentityEd25519 := sampleEd25519 !initiator
  peerIdentityX25519 := sampleX25519 !initiator

/-- The shared KEM secret of the handshake. -/
def sampleKyberSecret : Bytes := List.replicate kyberSharedSecretBytes 19

/-- The session of one side, if the handshake data passes all checks. -/
def sampleSession? (initiator : Bool) : Except ProtocolError SessionInner := do
  let state ← buildProtocolState Crypto.transparent (sampleArgs initiator)
  fromHandshakeState Crypto.transparent
    { state := state, kyberSharedSecret := sampleKyberSecret }

theorem sampleSession?_isSome (initiator : Bool) :
    (sampleSession? initiator).toOption.isSome = true := by
  cases initiator <;> decide +kernel

/-- The session of one side. -/
@[irreducible] def sampleSession (initiator : Bool) : SessionInner :=
  (sampleSession? initiator).toOption.get (sampleSession?_isSome initiator)

theorem sampleSession?_eq (initiator : Bool) :
    sampleSession? initiator = .ok (sampleSession initiator) := by
  unfold sampleSession
  exact Fallible.eq_ok_get_toOption (sampleSession?_isSome initiator)

/-- A clock that stands still. -/
def fixedClock : Clock where
  expiry := .ok 2000
  activity := .ok 2000
  sent := .ok 2000

/-- Randomness of an `encrypt` call, told apart by a byte. -/
def sampleEntropy (b : UInt8) : Entropy where
  x25519Private := List.replicate x25519PrivateKeyBytes b
  kyberEncapsulation := List.replicate kyberSharedSecretBytes b
  kyberSeed := List.replicate kyberSecretKeyBytes b
  kyberSelfTest := List.replicate kyberSharedSecretBytes b
  noncePrefix := List.replicate noncePrefixBytes b
  headerNonce := List.replicate aesGcmNonceBytes b
  length_x25519Private := List.length_replicate
  length_noncePrefix := List.length_replicate
  length_headerNonce := List.length_replicate

/-- Randomness of an export. -/
def sampleSealEntropy : SealEntropy where
  dek := List.replicate aesKeyBytes 41
  dekNonce := List.replicate aesGcmNonceBytes 42
  stateNonce := List.replicate aesGcmNonceBytes 43
  length_dek := List.length_replicate
  length_dekNonce := List.length_replicate
  length_stateNonce := List.length_replicate

/-- A short message. -/
def sampleMessage : Message where
  payload := [1, 2, 3]
  envelopeType := 0
  envelopeId := 0
  correlationId := none

/-- The envelope of one call, or an empty one if the call fails. -/
def sampleEncrypt (s : SessionInner) (b : UInt8) : SecureEnvelope × SessionInner :=
  match (encrypt Crypto.transparent Wire.plain fixedClock (sampleEntropy b) sampleMessage).run s with
  | .ok envelope s' => (envelope, s')
  | .error _ s' => (emptyEnvelope, s')

end Session

end AuraProtocol
