import AuraProtocol.Group.Message

/-!
# Sealed group state

`export_sealed_state` and `from_sealed_state` of `protocol/group/mod.rs`.  The state
message keeps the sender chains and the replay windows.  It has no field for the
skipped message keys, the hash of the last sent message, a pending reinit or the
PSK resolver: a restored session starts without them.
-/

namespace AuraProtocol.Group

open Fallible

namespace GroupSession

variable (c : Crypto) (wire : Wire)

/-- The randomness of a sealed state. -/
structure SealingEntropy where
  dek : Random32
  dekNonce : { b : Bytes // b.length = aesGcmNonceBytes }
  stateNonce : { b : Bytes // b.length = aesGcmNonceBytes }

/-- The associated data of the data encryption key. -/
def dekAad (version externalCounter : ℕ) : Bytes := leBytes 4 version ++ leBytes 8 externalCounter

def buildStateAad (versionLe dekNonce encryptedDek : Bytes) : Bytes :=
  versionLe ++ dekNonce ++ encryptedDek

/-- `compute_group_state_hmac`, over a state whose own HMAC is empty. -/
def computeGroupStateHmac (hmacKey : Bytes) (state : GroupProtocolState) : Bytes :=
  c.hmacSha256 hmacKey (wire.protocolState.encode { state with stateHmac := [] })

/-- The key of the state's HMAC. -/
def stateHmacKey (key : Bytes) : Except ProtocolError Bytes :=
  HkdfSha256.expand c key groupStateHmacInfo hmacBytes

/-- The state message of a session, without its HMAC. -/
def toState (s : GroupSession) : GroupProtocolState where
  version := groupProtocolVersion
  groupId := s.groupId
  epoch := s.epoch
  myLeafIndex := s.myLeafIdx
  treeNodes := s.tree.exportWithPrivateKeys
  epochSecret := s.epochKeys.epochSecret
  initSecret := s.initSecret
  metadataKey := s.epochKeys.metadataKey
  confirmationKey := s.epochKeys.confirmationKey
  welcomeKey := s.epochKeys.welcomeKey
  senderChains := s.senderStore.exportChains.map fun (leafIndex, chainKey, generation) =>
    ⟨leafIndex, chainKey, generation⟩
  myIdentityEd25519Public := s.myIdentityEd25519Public
  myIdentityX25519Public := s.myIdentityX25519Public
  groupContextHash := s.groupContextHash
  seenMessageIds := encodeReplayWindowsForState s.replayWindows
  stateHmac := []
  stateCounter := 0
  nonceCounter := 0
  createdAt := none
  securityPolicy := s.securityPolicy.policyBytes wire

def exportSealedState (key : Bytes) (externalCounter : ℕ) (entropy : SealingEntropy)
    (s : GroupSession) : Except ProtocolError Bytes := do
  require (key.length = aesKeyBytes) (.invalidInput "State encryption key must be 32 bytes")
  require (externalCounter ≠ 0) (.invalidInput "External sealed-state counter must be > 0")
  let state := toState wire s
  let hmacKey ← stateHmacKey c key
  let plaintextState := wire.protocolState.encode
    { state with stateHmac := computeGroupStateHmac c wire hmacKey state }
  let aad := dekAad groupSealedStateVersion externalCounter
  let encryptedDek ← AesGcm.encrypt c key entropy.dekNonce.1 entropy.dek.1 aad
  let encryptedState ← AesGcm.encrypt c entropy.dek.1 entropy.stateNonce.1 plaintextState
    (buildStateAad aad entropy.dekNonce.1 encryptedDek)
  return wire.sealedState.encode
    { version := groupSealedStateVersion
      dekNonce := entropy.dekNonce.1
      stateNonce := entropy.stateNonce.1
      encryptedDek := encryptedDek
      encryptedState := encryptedState
      externalCounter := externalCounter }

def validateEd25519SecretMatchesPublic (secret expectedPublic : Bytes) :
    Except ProtocolError Unit := do
  require (expectedPublic.length = ed25519PublicKeyBytes)
    (.invalidInput "Invalid Ed25519 public key size in sealed group state")
  require (c.ed25519KeypairValid secret = true) (.keyGeneration "Invalid Ed25519 keypair bytes")
  require (c.ed25519Public secret = expectedPublic)
    (.invalidInput "Ed25519 identity secret does not match sealed group state")

/-- The first part of `from_sealed_state`: the envelope is opened and the state in it decoded. -/
def openSealedState (sealedData key : Bytes) (minExternalCounter : ℕ) :
    Except ProtocolError GroupProtocolState := do
  let blob ← (wire.sealedState.decode sealedData).mapError fun e =>
    .decode s!"SealedGroupState decode: {e}"
  require (blob.version = groupSealedStateVersion) (.invalidInput
    (s!"Unsupported sealed group state version: expected {groupSealedStateVersion}, " ++
      s!"got {blob.version}"))
  require (blob.dekNonce.length = aesGcmNonceBytes ∧ blob.stateNonce.length = aesGcmNonceBytes)
    (.invalidInput "Invalid nonce size in sealed group state")
  require (blob.externalCounter ≠ 0)
    (.invalidInput "Sealed group state external counter must be > 0")
  require (minExternalCounter ≤ blob.externalCounter)
    (.invalidState "Group sealed state rollback detected by external counter")
  let aad := dekAad blob.version blob.externalCounter
  let dek ← AesGcm.decrypt c key blob.dekNonce blob.encryptedDek aad
  let plaintextState ← AesGcm.decrypt c dek blob.stateNonce blob.encryptedState
    (buildStateAad aad blob.dekNonce blob.encryptedDek)
  (wire.protocolState.decode plaintextState).mapError fun e =>
    .decode s!"GroupProtocolState decode: {e}"

/-- The second part of `from_sealed_state`: the checks of the state as a whole. -/
def checkState (state : GroupProtocolState) (key ed25519Secret : Bytes) :
    Except ProtocolError Unit := do
  let hmacKey ← stateHmacKey c key
  require (computeGroupStateHmac c wire hmacKey state = state.stateHmac)
    (.invalidState "Group state HMAC verification failed — possible rollback attack")
  require (state.version = groupProtocolVersion) (.invalidInput
    (s!"Unsupported group protocol state version: expected {groupProtocolVersion}, " ++
      s!"got {state.version}"))
  validateEd25519SecretMatchesPublic c ed25519Secret state.myIdentityEd25519Public

/-- The chains of a restored session. -/
def chainsFromState (policy : GroupSecurityPolicy) (chains : List GroupMemberSenderChain) :
    Except ProtocolError (OrdMap ℕ SenderKeyChain) := do
  let entries ← mapEach (fun sc : GroupMemberSenderChain =>
    SenderKeyChain.fromStateWithPolicy sc.leafIndex sc.chainKey sc.generation
      policy.enhancedKeySchedule policy.effectiveMaxMessagesPerEpoch
      policy.effectiveMaxSkippedPerSender) chains
  return (∅ : OrdMap ℕ SenderKeyChain).insertAll (entries.1.map fun chain =>
    (chain.leafIndex, chain))

/-- `from_sealed_state_with_time_provider`. -/
def fromSealedState (sealedData key ed25519SecretRaw : Bytes) (minExternalCounter : ℕ) :
    Except ProtocolError GroupSession := do
  require (key.length = aesKeyBytes) (.invalidInput "State encryption key must be 32 bytes")
  require (sealedData.length ≤ maxGroupMessageSize) (.invalidInput "Sealed group state too large")
  let ed25519Secret ← ed25519SecretToHandle ed25519SecretRaw
  let state ← openSealedState c wire sealedData key minExternalCounter
  checkState c wire state key ed25519Secret.1
  let tree ← RatchetTree.fromProto c state.treeNodes
  let epochKeys : EpochKeys :=
    { epochSecret := state.epochSecret
      metadataKey := state.metadataKey
      welcomeKey := state.welcomeKey
      confirmationKey := state.confirmationKey
      initSecret := state.initSecret }
  let securityPolicy ← GroupSecurityPolicy.fromProtoBytes wire state.securityPolicy
  securityPolicy.validate
  let chains ← chainsFromState securityPolicy state.senderChains
  let replayWindows := decodeReplayWindowsFromState state.seenMessageIds
  let external ← GroupKeySchedule.deriveExternalKeypairs c epochKeys.initSecret
  return { groupId := state.groupId
           epoch := state.epoch
           myLeafIdx := state.myLeafIndex
           tree := tree
           epochKeys := epochKeys
           initSecret := epochKeys.initSecret
           senderStore :=
             SenderKeyStore.fromChains chains securityPolicy.effectiveMaxSkippedPerSender
           groupContextHash := state.groupContextHash
           myIdentityEd25519Public := state.myIdentityEd25519Public
           myIdentityX25519Public := state.myIdentityX25519Public
           myEd25519Secret := ed25519Secret
           replayWindows := replayWindows
           externalX25519Public := external.x25519.publicKey
           externalKyberPublic := external.kyber.publicKey
           pskResolver := none
           pendingReinit := none
           lastSentMessageHash := zeroHash
           securityPolicy := securityPolicy }

def sealedStateExternalCounter (sealedData : Bytes) : Except ProtocolError ℕ := do
  require (sealedData.length ≤ maxGroupMessageSize) (.invalidInput "Sealed group state too large")
  let blob ← (wire.sealedState.decode sealedData).mapError fun e =>
    .decode s!"SealedGroupState decode: {e}"
  return blob.externalCounter

end GroupSession

end AuraProtocol.Group
