import AuraProtocol.Session.Decrypt
import AuraProtocol.Session.Init

/-!
# Sealed state

Export of a session to an encrypted blob and its restoration:
`export_sealed_state`, `from_sealed_state` and the validation in
`from_state_internal_with_time_provider`.
-/

namespace AuraProtocol.Session

open Fallible

variable {c : Crypto} {state : ProtocolState} {w : Wire} {externalCounter : ℕ} {blob : Bytes}
  {s s' : SessionInner} {kek : Except ProtocolError Bytes} {minExternalCounter : ℕ}
  {copy : ProtocolState}

def computeStateHmac (c : Crypto) (rootKey serializedState : Bytes) :
    Except ProtocolError Bytes := do
  let hmacKey ← HkdfSha256.deriveKeyBytes c rootKey hmacBytes [] stateHmacInfo
  .ok (c.hmacSha256 hmacKey serializedState)

/-! ## Export -/

/-- The randomness drawn by one export. -/
structure SealEntropy where
  dek : Bytes
  dekNonce : Bytes
  stateNonce : Bytes
  length_dek : dek.length = aesKeyBytes
  length_dekNonce : dekNonce.length = aesGcmNonceBytes
  length_stateNonce : stateNonce.length = aesGcmNonceBytes

/-- A key pair with its private key read back from secure memory, if it is there. -/
def readDhPrivate (s : SessionInner) : Except ProtocolError (Option DhKeyPair) :=
  match s.state.dhLocal, s.dhPrivateHandle with
  | some dh, some handle => do
    let privateKey ← readBytes handle x25519PrivateKeyBytes
    .ok (some { dh with privateKey := privateKey })
  | dhLocal, _ => .ok dhLocal

/-- A KEM key pair with its secret key read back from secure memory, if it is there. -/
def readKyberSecret (s : SessionInner) : Except ProtocolError (Option KyberKeyPair) :=
  match s.state.kyberLocal, s.kyberSecretHandle with
  | some kyber, some handle => do
    let secretKey ← readBytes handle kyberSecretKeyBytes
    .ok (some { kyber with secretKey := secretKey })
  | kyberLocal, _ => .ok kyberLocal

/-- A chain without its own list of skipped keys. -/
def ChainState.clearSkipped (chain : ChainState) : ChainState :=
  { chain with skippedMessageKeys := [] }

/-- The copy of the state that an export serialises. -/
def exportCopy (s : SessionInner) : Except ProtocolError ProtocolState := do
  let dhLocal ← readDhPrivate s
  let kyberLocal ← readKyberSecret s
  .ok { s.state with
    sendChain := s.state.sendChain.map ChainState.clearSkipped
    recvChain := s.state.recvChain.map ChainState.clearSkipped
    stateCounter := s.state.stateCounter + 1
    stateHmac := []
    dhLocal := dhLocal
    kyberLocal := kyberLocal
    replayEpoch := s.replayEpoch
    seenPayloadNonces := s.seenPayloadNonceOrder
    skippedKeys := s.skippedMessageKeys.toList.map fun e =>
      { epoch := (ofLex e.1).1, messageIndex := (ofLex e.1).2, messageKey := e.2 }
    cachedMetadataKeys := s.cachedMetadataKeys.toList.map fun e =>
      { epoch := e.1, metadataKey := e.2 } }

/-- The version byte of a sealed state. -/
def sealedStateVersion : ℕ := 1

/-- The associated data of the encrypted data key. -/
def dekAad (externalCounter : ℕ) : Bytes :=
  UInt8.ofNat sealedStateVersion :: leBytes 8 externalCounter

/-- The associated data of the encrypted state. -/
def stateAad (dekNonce encryptedDek : Bytes) : Bytes :=
  UInt8.ofNat sealedStateVersion :: (dekNonce ++ encryptedDek)

/-- Serialises, authenticates and encrypts an exported copy. -/
def sealCopy (c : Crypto) (w : Wire) (kek : Except ProtocolError Bytes) (rnd : SealEntropy)
    (externalCounter : ℕ) (copy : ProtocolState) : Except ProtocolError Bytes := do
  let hmac ← computeStateHmac c copy.rootKey (w.protocolState.encode copy)
  let plaintextState := w.protocolState.encode { copy with stateHmac := hmac }
  let kekHandle ← kek
  let kekBytes ← readBytes kekHandle aesKeyBytes
  let encryptedDek ← AesGcm.encrypt c kekBytes rnd.dekNonce rnd.dek (dekAad externalCounter)
  let encryptedState ← AesGcm.encrypt c rnd.dek rnd.stateNonce plaintextState
    (stateAad rnd.dekNonce encryptedDek)
  .ok (w.sealedState.encode
    { version := sealedStateVersion
      dekNonce := rnd.dekNonce
      stateNonce := rnd.stateNonce
      encryptedDek := encryptedDek
      encryptedState := encryptedState
      externalCounter := externalCounter })

/-- The checks of `export_sealed_state`; the result is the copy to serialise. -/
def checkExport (externalCounter : ℕ) (s : SessionInner) : Except ProtocolError ProtocolState := do
  require (externalCounter ≠ 0) (.invalidInput "External sealed-state counter must be > 0")
  require (s.state.version ≠ 0) (.invalidState "Session has been destroyed")
  require (s.state.stateCounter ≠ u64Max) (.invalidState "State counter overflow")
  exportCopy s

/-- The session with another export counter. -/
def setStateCounter (n : ℕ) (s : SessionInner) : SessionInner :=
  { s with state := { s.state with stateCounter := n } }

/-- `export_sealed_state`: a failing export gives the counter back. -/
def exportSealedState (c : Crypto) (w : Wire) (kek : Except ProtocolError Bytes)
    (rnd : SealEntropy) (externalCounter : ℕ) : SessionM Bytes := do
  let copy ← reads (checkExport externalCounter)
  let previousGen := (← get).state.stateCounter
  modify (setStateCounter (previousGen + 1))
  onError (lift (sealCopy c w kek rnd externalCounter copy)) fun s =>
    if s.state.stateCounter = previousGen + 1 then setStateCounter previousGen s else s

/-! ## Restoration -/

/-- A state without a send metadata key uses the receiving one. -/
def fillSendMetadataKey (state : ProtocolState) : ProtocolState :=
  if state.sendMetadataKey.isEmpty then { state with sendMetadataKey := state.metadataKey }
  else state

/-- The size and HMAC checks of `from_state_internal`; the HMAC covers the state without its
HMAC field. -/
def checkStateHmac (c : Crypto) (w : Wire) (state : ProtocolState) : Except ProtocolError Unit := do
  require (state.sessionId.length = sessionIdBytes ∧ state.rootKey.length = rootKeyBytes ∧
      state.metadataKey.length = metadataKeyBytes ∧
      state.sendMetadataKey.length = metadataKeyBytes)
    (.invalidInput "Invalid session key material sizes")
  require (state.stateHmac.length = hmacBytes)
    (.invalidInput "State HMAC missing or invalid size — possible tampering")
  require (state.stateCounter ≠ 0)
    (.invalidInput "State counter must be non-zero for imported state")
  let expected ← computeStateHmac c state.rootKey
    (w.protocolState.encode { state with stateHmac := [] })
  require (state.stateHmac = expected)
    (.invalidInput "State HMAC verification failed — possible rollback or tampering")

/-- The checks of `from_state_internal` on key pairs, chains and counters.  The result is the
sending and the receiving chain. -/
def checkStateKeys (c : Crypto) (state : ProtocolState) :
    Except ProtocolError (ChainState × ChainState) := do
  let dhLocal ← orError state.dhLocal (.invalidInput "Missing dh_local in state")
  require (dhLocal.privateKey.length = x25519PrivateKeyBytes ∧
      dhLocal.publicKey.length = x25519PublicKeyBytes ∧
      state.dhRemotePublic.length = x25519PublicKeyBytes)
    (.invalidInput "Invalid DH key sizes in state")
  require (state.dhLocalInitialPublic.length = x25519PublicKeyBytes ∧
      state.dhRemoteInitialPublic.length = x25519PublicKeyBytes)
    (.invalidInput "Invalid initial DH public key sizes in state")
  let kyberLocal ← orError state.kyberLocal (.invalidInput "Missing kyber_local in state")
  require (kyberLocal.secretKey.length = kyberSecretKeyBytes ∧
      kyberLocal.publicKey.length = kyberPublicKeyBytes ∧
      state.kyberRemotePublic.length = kyberPublicKeyBytes)
    (.invalidInput "Invalid Kyber key sizes in state")
  let sendChain ← orError state.sendChain (.invalidInput "Missing send_chain in state")
  let recvChain ← orError state.recvChain (.invalidInput "Missing recv_chain in state")
  require (sendChain.chainKey.length = chainKeyBytes ∧ recvChain.chainKey.length = chainKeyBytes)
    (.invalidInput "Invalid chain key sizes in state")
  let nonceGen ← orError state.nonceGenerator (.invalidInput "Missing nonce_generator in state")
  require (nonceGen.noncePrefix.length = noncePrefixBytes)
    (.invalidInput "Invalid nonce prefix size in state")
  require (state.maxMessagesPerChain ≠ 0 ∧
      state.maxMessagesPerChain ≤ AuraProtocol.maxMessagesPerChain)
    (.invalidInput "Invalid max messages per chain in state")
  require (sendChain.messageIndex ≤ state.maxMessagesPerChain ∧
      recvChain.messageIndex ≤ state.maxMessagesPerChain)
    (.invalidInput "Chain index exceeds max messages per chain")
  let limit := if state.maxNonceCounter = 0 then AuraProtocol.maxNonceCounter
    else min state.maxNonceCounter AuraProtocol.maxNonceCounter
  require (nonceGen.counter ≤ limit) (.invalidState "Nonce counter exceeds maximum")
  require (isAllZero dhLocal.privateKey = false) (.invalidInput "DH private key is all zeros")
  require (isAllZero kyberLocal.secretKey = false) (.invalidInput "Kyber secret key is all zeros")
  DhValidator.validateX25519PublicKey dhLocal.publicKey
  DhValidator.validateX25519PublicKey state.dhRemotePublic
  DhValidator.validateX25519PublicKey state.dhLocalInitialPublic
  DhValidator.validateX25519PublicKey state.dhRemoteInitialPublic
  KyberInterop.validatePublicKey c kyberLocal.publicKey
  KyberInterop.validatePublicKey c state.kyberRemotePublic
  .ok (sendChain, recvChain)

/-- The checks of `from_state_internal` on the identities. -/
def checkStateIdentities (c : Crypto) (state : ProtocolState) : Except ProtocolError Unit := do
  require (state.localIdentityEd25519Public.length = ed25519PublicKeyBytes ∧
      state.localIdentityX25519Public.length = x25519PublicKeyBytes ∧
      state.peerIdentityEd25519Public.length = ed25519PublicKeyBytes ∧
      state.peerIdentityX25519Public.length = x25519PublicKeyBytes)
    (.invalidInput "Invalid identity key sizes in state")
  require (state.identityBindingHash.length = identityBindingHashBytes)
    (.invalidInput "Missing or invalid identity binding hash")
  let computed ← computeIdentityBindingHash c state.localIdentityEd25519Public
    state.localIdentityX25519Public state.peerIdentityEd25519Public state.peerIdentityX25519Public
  require (computed = state.identityBindingHash)
    (.invalidInput "Identity binding hash verification failed")

/-- The loop that loads skipped message keys, with a check per key. -/
def loadSkippedKeys (recvEpoch : ℕ) :
    List CachedMessageKey → OrdMap Slot Bytes → Except ProtocolError (OrdMap Slot Bytes)
  | [], m => .ok m
  | cached :: rest, m => do
    require (cached.messageKey.length = messageKeyBytes)
      (.invalidInput "Invalid skipped message key size in state")
    require (cached.messageIndex ≤ maxMessageIndex)
      (.invalidInput "Cached message key index exceeds maximum")
    require (cached.epoch ≤ recvEpoch)
      (.invalidInput "Cached message key epoch exceeds current recv epoch")
    require (m.get? (slot cached.epoch cached.messageIndex) = none)
      (.invalidInput "Duplicate skipped message key")
    loadSkippedKeys recvEpoch rest
      (m.insert (slot cached.epoch cached.messageIndex) cached.messageKey)

/-- The loop for states that keep their skipped keys in the receiving chain. -/
def loadChainSkippedKeys (recvEpoch recvIndex : ℕ) :
    List CachedMessageKey → OrdMap Slot Bytes → Except ProtocolError (OrdMap Slot Bytes)
  | [], m => .ok m
  | cached :: rest, m => do
    require (cached.messageKey.length = messageKeyBytes)
      (.invalidInput "Invalid skipped message key size in state")
    require (cached.messageIndex < recvIndex)
      (.invalidInput "Cached message key index out of range")
    loadChainSkippedKeys recvEpoch recvIndex rest
      (m.insert (slot recvEpoch cached.messageIndex) cached.messageKey)

/-- The loop that loads cached metadata keys, with a check per key. -/
def loadMetadataKeys (recvEpoch : ℕ) :
    List CachedMetadataKey → OrdMap ℕ Bytes → Except ProtocolError (OrdMap ℕ Bytes)
  | [], m => .ok m
  | entry :: rest, m => do
    require (entry.metadataKey.length = metadataKeyBytes)
      (.invalidInput "Invalid cached metadata key size in state")
    require (entry.epoch ≤ recvEpoch)
      (.invalidInput "Cached metadata key epoch exceeds current recv epoch")
    require (m.get? entry.epoch = none) (.invalidInput "Duplicate cached metadata key epoch")
    loadMetadataKeys recvEpoch rest (m.insert entry.epoch entry.metadataKey)

/-- The skipped message keys of a restored state. -/
def restoreSkippedKeys (state : ProtocolState) (recvChain : ChainState) :
    Except ProtocolError (OrdMap Slot Bytes) := do
  require (state.skippedKeys.length ≤ maxSkippedMessageKeys)
    (.invalidInput "Too many skipped message keys in state")
  let skipped ← loadSkippedKeys state.recvRatchetEpoch state.skippedKeys ∅
  if skipped.entries.isEmpty && !recvChain.skippedMessageKeys.isEmpty then do
    require (recvChain.skippedMessageKeys.length ≤ maxSkippedMessageKeys)
      (.invalidInput "Too many skipped message keys in state")
    loadChainSkippedKeys state.recvRatchetEpoch recvChain.messageIndex
      recvChain.skippedMessageKeys skipped
  else .ok skipped

/-- `rebuild_seen_payload_nonce_cache`. -/
def rebuildSeenPayloadNonces :
    List Bytes → Finset Bytes → List Bytes → Except ProtocolError (Finset Bytes × List Bytes)
  | [], set, order => .ok (set, order)
  | nonce :: rest, set, order => do
    require (nonce.length = aesGcmNonceBytes) (.invalidInput "Invalid payload nonce size")
    if nonce ∈ set then rebuildSeenPayloadNonces rest set order
    else
      let pruned := pruneSeenNonces (insert nonce set) (order ++ [nonce])
      rebuildSeenPayloadNonces rest pruned.1 pruned.2

/-- The state without the lists that live outside it in a session. -/
def sanitizeState (state : ProtocolState) : ProtocolState :=
  { state with
    stateHmac := []
    seenPayloadNonces := []
    skippedKeys := []
    cachedMetadataKeys := []
    sendChain := state.sendChain.map ChainState.clearSkipped
    recvChain := state.recvChain.map ChainState.clearSkipped }

/-- `from_state_internal_with_time_provider`. -/
def fromStateInternal (c : Crypto) (w : Wire) (state : ProtocolState) :
    Except ProtocolError SessionInner := do
  require (state.version = protocolVersion) (.invalidInput "Invalid protocol version in state")
  let state := fillSendMetadataKey state
  checkStateHmac c w state
  let (sendChain, recvChain) ← checkStateKeys c state
  checkStateIdentities c state
  require (sendChain.skippedMessageKeys = [])
    (.invalidInput "Send chain must not include skipped message keys")
  let skipped ← restoreSkippedKeys state recvChain
  require (state.cachedMetadataKeys.length ≤ maxCachedMetadataKeys)
    (.invalidInput "Too many cached metadata keys in state")
  let cachedMk ← loadMetadataKeys state.recvRatchetEpoch state.cachedMetadataKeys ∅
  let (seen, order) ← rebuildSeenPayloadNonces state.seenPayloadNonces ∅ []
  let (sanitized, dhHandle) ← takeDhPrivate (sanitizeState state)
  let (sanitized, kyberHandle) ← takeKyberSecret sanitized
  .ok { state := sanitized
        pendingKyberSharedSecret := []
        skippedMessageKeys := skipped
        cachedMetadataKeys := cachedMk
        replayEpoch := state.replayEpoch
        seenPayloadNonces := seen
        seenPayloadNonceOrder := order
        isInitiator := sanitized.isInitiator
        dhPrivateHandle := dhHandle
        kyberSecretHandle := kyberHandle
        sendRatchetPending := sanitized.sendRatchetPending
        messagesSinceLastDhRatchet := 0 }

/-- The checks of `from_sealed_state` on the decoded blob. -/
def checkSealedState (sealedState : SealedState) (minExternalCounter : ℕ) :
    Except ProtocolError Unit := do
  require (sealedState.version = sealedStateVersion)
    (.invalidInput "Unsupported sealed state version")
  require (sealedState.dekNonce.length = aesGcmNonceBytes ∧
      sealedState.stateNonce.length = aesGcmNonceBytes)
    (.invalidInput "Invalid nonce size in sealed state")
  require (sealedState.externalCounter ≠ 0)
    (.invalidInput "Sealed state external counter must be > 0")
  require (minExternalCounter ≤ sealedState.externalCounter)
    (.invalidState "Sealed session state rollback detected by external counter")

def fromSealedState (c : Crypto) (w : Wire) (sealedData : Bytes)
    (kek : Except ProtocolError Bytes) (minExternalCounter : ℕ) :
    Except ProtocolError SessionInner := do
  require (sealedData.length ≤ maxProtobufMessageSize) (.invalidInput "Sealed state too large")
  let sealedState ← (w.sealedState.decode sealedData).mapError fun e =>
    ProtocolError.decode s!"Failed to parse sealed state: {e}"
  checkSealedState sealedState minExternalCounter
  let kekHandle ← kek
  let kekBytes ← readBytes kekHandle aesKeyBytes
  let dek ← (AesGcm.decrypt c kekBytes sealedState.dekNonce sealedState.encryptedDek
    (dekAad sealedState.externalCounter)).mapError fun _ =>
      ProtocolError.generic "Decryption failed - invalid key or tampered data"
  let plaintextState ← (AesGcm.decrypt c dek sealedState.stateNonce sealedState.encryptedState
    (stateAad sealedState.dekNonce sealedState.encryptedDek)).mapError fun _ =>
      ProtocolError.generic "Decryption failed - invalid key or tampered data"
  let state ← (w.protocolState.decode plaintextState).mapError fun e =>
    ProtocolError.decode s!"Failed to parse protocol state: {e}"
  fromStateInternal c w state

/-! ## What export and restoration do -/

variable {rnd : SealEntropy}

/-- A successful export only counts: everything else goes into the blob. -/
theorem exportSealedState_eq_ok
    (h : (exportSealedState c w kek rnd externalCounter).run s = .ok blob s') :
    ∃ copy, exportCopy s = .ok copy ∧ sealCopy c w kek rnd externalCounter copy = .ok blob ∧
      s' = setStateCounter (s.state.stateCounter + 1) s := by
  rw [exportSealedState, bind_eq_ok] at h
  obtain ⟨copy, _, hcopy, h⟩ := h
  obtain ⟨hcopy, rfl⟩ := reads_eq_ok.mp hcopy
  rw [get_bind_run, modify_bind_run, onError_eq_ok, lift_eq_ok] at h
  rw [checkExport, except_seq_eq_ok, except_seq_eq_ok, except_seq_eq_ok] at hcopy
  exact ⟨copy, hcopy.2.2.2, h.1, h.2⟩

/-- A failing export gives the counter back. -/
theorem exportSealedState_eq_error {e : ProtocolError}
    (h : (exportSealedState c w kek rnd externalCounter).run s = .error e s') : s' = s := by
  rw [exportSealedState, bind_eq_error] at h
  rcases h with h | ⟨copy, _, hcopy, h⟩
  · exact (reads_eq_error.mp h).2
  obtain ⟨-, rfl⟩ := reads_eq_ok.mp hcopy
  rw [get_bind_run, modify_bind_run, onError_eq_error] at h
  obtain ⟨_, hseal, rfl⟩ := h
  obtain ⟨-, rfl⟩ := lift_eq_error.mp hseal
  exact if_pos rfl

theorem except_mapError_eq_ok {ε ε' α : Type} {x : Except ε α} {f : ε → ε'} {a : α} :
    x.mapError f = .ok a ↔ x = .ok a := by
  cases x <;> simp [Except.mapError]

/-- Under correct primitives a blob opens to the state that was sealed in it. -/
theorem fromSealedState_of_sealCopy {kek : Bytes} (hc : c.Correct)
    (hseal : sealCopy c w (.ok kek) rnd externalCounter copy = .ok blob)
    (h : fromSealedState c w blob (.ok kek) minExternalCounter = .ok s) :
    ∃ hmac, fromStateInternal c w { copy with stateHmac := hmac } = .ok s := by
  rw [sealCopy, except_bind_eq_ok] at hseal
  obtain ⟨hmac, -, hseal⟩ := hseal
  obtain ⟨_, ⟨⟩, hseal⟩ := except_bind_eq_ok.mp hseal
  obtain ⟨kekBytes, hkek, hseal⟩ := except_bind_eq_ok.mp hseal
  obtain ⟨encryptedDek, hdek, hseal⟩ := except_bind_eq_ok.mp hseal
  obtain ⟨encryptedState, hstate, ⟨⟩⟩ := except_bind_eq_ok.mp hseal
  rw [fromSealedState, except_seq_eq_ok, except_bind_eq_ok] at h
  obtain ⟨-, sealedState, hdecode, h⟩ := h
  rw [except_mapError_eq_ok, w.sealedState.decode_encode] at hdecode
  cases hdecode
  rw [except_seq_eq_ok] at h
  obtain ⟨_, ⟨⟩, h⟩ := except_bind_eq_ok.mp h.2
  obtain ⟨kekBytes', hkek', h⟩ := except_bind_eq_ok.mp h
  rw [hkek] at hkek'
  cases hkek'
  obtain ⟨dek', hdek', h⟩ := except_bind_eq_ok.mp h
  rw [except_mapError_eq_ok, AesGcm.decrypt_of_encrypt hc hdek] at hdek'
  cases hdek'
  obtain ⟨plaintext', hstate', h⟩ := except_bind_eq_ok.mp h
  rw [except_mapError_eq_ok, AesGcm.decrypt_of_encrypt hc hstate] at hstate'
  cases hstate'
  obtain ⟨state', hdecode', h⟩ := except_bind_eq_ok.mp h
  rw [except_mapError_eq_ok, w.protocolState.decode_encode] at hdecode'
  cases hdecode'
  exact ⟨hmac, h⟩

theorem loadSkippedKeys_eq_ok {recvEpoch : ℕ} {l : List CachedMessageKey} {m m' : OrdMap Slot Bytes}
    (h : loadSkippedKeys recvEpoch l m = .ok m') :
    m' = m.insertAll (l.map fun k => (slot k.epoch k.messageIndex, k.messageKey)) := by
  induction l generalizing m with
  | nil => exact (Except.ok.inj h).symm
  | cons k l ih =>
    rw [loadSkippedKeys, except_seq_eq_ok, except_seq_eq_ok, except_seq_eq_ok,
      except_seq_eq_ok] at h
    exact ih h.2.2.2.2

theorem loadMetadataKeys_eq_ok {recvEpoch : ℕ} {l : List CachedMetadataKey} {m m' : OrdMap ℕ Bytes}
    (h : loadMetadataKeys recvEpoch l m = .ok m') :
    m' = m.insertAll (l.map fun k => (k.epoch, k.metadataKey)) := by
  induction l generalizing m with
  | nil => exact (Except.ok.inj h).symm
  | cons k l ih =>
    rw [loadMetadataKeys, except_seq_eq_ok, except_seq_eq_ok, except_seq_eq_ok] at h
    exact ih h.2.2.2

/-- What the receiving side of a restored session has in common with the session it was
exported from. -/
structure Resumes (s s' : SessionInner) : Prop where
  recvRatchetEpoch : s'.state.recvRatchetEpoch = s.state.recvRatchetEpoch
  recvChain : s'.state.recvChain = s.state.recvChain.map ChainState.clearSkipped
  skippedMessageKeys : s'.skippedMessageKeys = s.skippedMessageKeys
  cachedMetadataKeys : s'.cachedMetadataKeys = s.cachedMetadataKeys
  handleSizes : HandleSizes s'

theorem fillSendMetadataKey_eq (state : ProtocolState) :
    fillSendMetadataKey state =
      { state with sendMetadataKey := (fillSendMetadataKey state).sendMetadataKey } := by
  rw [fillSendMetadataKey]
  split_ifs <;> rfl

theorem checkStateKeys_eq_ok {sendChain recvChain : ChainState}
    (h : checkStateKeys c state = .ok (sendChain, recvChain)) :
    state.sendChain = some sendChain ∧ state.recvChain = some recvChain := by
  simp only [checkStateKeys, except_bind_eq_ok, orError_eq_ok] at h
  obtain ⟨_, -, _, -, _, -, _, -, _, -, sc, hsc, rc, hrc, h⟩ := h
  obtain ⟨_, -, _, -, _, -, _, -, _, -, _, -, _, -, _, -, _, -, _, -, _, -, _, -, _, -, _, -, h⟩ := h
  cases h
  exact ⟨hsc, hrc⟩

/-- Skipped keys are only read from the receiving chain if the chain has some. -/
theorem restoreSkippedKeys_eq_ok {recvChain : ChainState} {m : OrdMap Slot Bytes}
    (hrc : recvChain.skippedMessageKeys = []) (h : restoreSkippedKeys state recvChain = .ok m) :
    m = (∅ : OrdMap Slot Bytes).insertAll
      (state.skippedKeys.map fun k => (slot k.epoch k.messageIndex, k.messageKey)) := by
  rw [restoreSkippedKeys, except_seq_eq_ok, except_bind_eq_ok] at h
  obtain ⟨-, skipped, hload, h⟩ := h
  rw [hrc, List.isEmpty_nil, Bool.not_true, Bool.and_false, if_neg Bool.false_ne_true] at h
  cases h
  exact loadSkippedKeys_eq_ok hload

theorem fromStateInternal_eq_ok (hclear : ∀ rc ∈ state.recvChain, rc.skippedMessageKeys = [])
    (h : fromStateInternal c w state = .ok s) :
    s.state.recvRatchetEpoch = state.recvRatchetEpoch ∧
      s.state.recvChain = state.recvChain.map ChainState.clearSkipped ∧
      s.skippedMessageKeys = (∅ : OrdMap Slot Bytes).insertAll
        (state.skippedKeys.map fun k => (slot k.epoch k.messageIndex, k.messageKey)) ∧
      s.cachedMetadataKeys = (∅ : OrdMap ℕ Bytes).insertAll
        (state.cachedMetadataKeys.map fun k => (k.epoch, k.metadataKey)) ∧ HandleSizes s := by
  simp only [fromStateInternal, except_bind_eq_ok] at h
  obtain ⟨_, -, _, -, ⟨sc, rc⟩, hchains, _, -, _, -, skipped, hskipped, _, -, cached, hcached,
    ⟨seen, order⟩, -, ⟨st₁, dhHandle⟩, hdh, ⟨st₂, kyberHandle⟩, hkyber, h⟩ := h
  cases h
  obtain ⟨hst₁, hdhSize⟩ := takeDhPrivate_eq_ok hdh
  obtain ⟨hst₂, hkyberSize⟩ := takeKyberSecret_eq_ok hkyber
  rw [fillSendMetadataKey_eq] at hst₁ hskipped hcached hchains
  have hrc := hclear rc (checkStateKeys_eq_ok hchains).2
  refine ⟨?_, ?_, restoreSkippedKeys_eq_ok hrc hskipped, loadMetadataKeys_eq_ok hcached,
    hdhSize, hkyberSize⟩
  · rw [hst₂, hst₁]
    rfl
  · rw [hst₂, hst₁]
    rfl

/-- A session restored from its own blob resumes where it was exported. -/
theorem resumes_of_export {kek : Bytes} (hc : c.Correct) (hcopy : exportCopy s = .ok copy)
    (hseal : sealCopy c w (.ok kek) rnd externalCounter copy = .ok blob)
    (h : fromSealedState c w blob (.ok kek) minExternalCounter = .ok s') : Resumes s s' := by
  obtain ⟨hmac, h⟩ := fromSealedState_of_sealCopy hc hseal h
  simp only [exportCopy, except_bind_eq_ok] at hcopy
  obtain ⟨dh, -, kyber, -, hcopy⟩ := hcopy
  cases hcopy
  have hclear : ∀ rc ∈ s.state.recvChain.map ChainState.clearSkipped, rc.skippedMessageKeys = [] := by
    intro rc hrc
    obtain ⟨rc', -, rfl⟩ := Option.mem_map.mp hrc
    rfl
  obtain ⟨hepoch, hchain, hskipped, hcached, hsizes⟩ := fromStateInternal_eq_ok hclear h
  refine ⟨hepoch, ?_, ?_, ?_, hsizes⟩
  · rw [hchain, Option.map_map]
    rfl
  · rw [hskipped, List.map_map]
    exact (congrArg _ (List.map_id' _)).trans s.skippedMessageKeys.insertAll_toList
  · rw [hcached, List.map_map]
    exact (congrArg _ (List.map_id' _)).trans s.cachedMetadataKeys.insertAll_toList

end AuraProtocol.Session
