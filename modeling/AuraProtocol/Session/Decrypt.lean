import AuraProtocol.Crypto.Padding
import AuraProtocol.Session.Receive

/-!
# Decryption

`Session::decrypt`, cut at the points where its way of undoing changes.  Up to
the metadata nothing but a receive ratchet has happened, which a snapshot undoes;
once a message key was taken out of the state, a failure of the payload puts it
back in one of three ways (`undoMessageKey`).
-/

namespace AuraProtocol.Session

open Fallible SessionInner

variable {c : Crypto} {w : Wire} {envelope : SecureEnvelope} {clock : Clock} {s s' : SessionInner}
  {i epoch : ℕ} {rc : ChainState} {isOldEpoch : Bool} {key : Bytes} {e : ProtocolError}

structure DecryptResult where
  plaintext : Bytes
  metadata : EnvelopeMetadata
  deriving DecidableEq, Repr

/-! ## The stages -/

/-- The checks before the envelope's epoch is looked at.  The result is the time of the
activity and the new message count. -/
def checkDecrypt (clock : Clock) (envelope : SecureEnvelope) (s : SessionInner) :
    Except ProtocolError (ℕ × ℕ) := do
  require (s.state.version ≠ 0) (.invalidState "Session has been destroyed")
  let expired ← checkInnerExpired s.state clock.expiry
  require (expired = false) (.invalidState "Session expired")
  let activityUnix ← clock.activity
  let nextTotalReceived ← orError (checkedAdd s.state.totalMessagesReceived 1)
    (.invalidState "Received-message counter overflow")
  require (envelope.version = protocolVersion) (.invalidInput "Invalid envelope version")
  require (envelope.headerNonce.length = aesGcmNonceBytes)
    (.invalidInput "Invalid header nonce size")
  require (s.state.metadataKey.length = metadataKeyBytes)
    (.invalidState "Metadata key not initialized")
  require (s.state.maxMessagesPerChain ≠ 0 ∧
      s.state.maxMessagesPerChain ≤ AuraProtocol.maxMessagesPerChain)
    (.invalidState "Invalid max messages per chain")
  .ok (activityUnix, nextTotalReceived)

/-- What a failing ratchet envelope is rolled back to. -/
structure RatchetSnapshot where
  state : ProtocolState
  cachedMetadataKeys : OrdMap ℕ Bytes
  skippedMessageKeys : OrdMap Slot Bytes
  replayEpoch : ℕ
  sendRatchetPending : Bool

/-- The snapshot taken before a receive ratchet. -/
def RatchetSnapshot.capture (s : SessionInner) : RatchetSnapshot where
  state := s.state
  cachedMetadataKeys := s.cachedMetadataKeys
  skippedMessageKeys := s.skippedMessageKeys
  replayEpoch := s.replayEpoch
  sendRatchetPending := s.sendRatchetPending

/-- `rollback_ratchet`: without a snapshot it does nothing. -/
def rollbackRatchet (snapshot : Option RatchetSnapshot) (s : SessionInner) : SessionInner :=
  match snapshot with
  | none => s
  | some snap =>
    { s with
      state := snap.state
      cachedMetadataKeys := snap.cachedMetadataKeys
      skippedMessageKeys := snap.skippedMessageKeys
      replayEpoch := snap.replayEpoch
      sendRatchetPending := snap.sendRatchetPending }

/-- Whether an envelope carries any part of a ratchet header. -/
def SecureEnvelope.hasRatchetHeader (envelope : SecureEnvelope) : Bool :=
  envelope.dhPublicKey.isSome || envelope.kyberCiphertext.isSome ||
    envelope.newKyberPublic.isSome

/-- The structural checks of a ratchet envelope. -/
def checkRatchetEnvelope (envelope : SecureEnvelope) (s : SessionInner) :
    Except ProtocolError Unit := do
  require (envelope.dhPublicKey.isSome ∧ envelope.kyberCiphertext.isSome ∧
      envelope.newKyberPublic.isSome)
    (.invalidInput ("Incomplete ratchet header: dh_public_key, kyber_ciphertext, and " ++
      "new_kyber_public must all be present"))
  let expectedEpoch ← orError (checkedAdd s.state.recvRatchetEpoch 1)
    (.invalidState "Receive ratchet epoch overflow")
  require (envelope.ratchetEpoch = expectedEpoch) (.invalidState "Unexpected ratchet epoch")
  match envelope.previousChainLength with
  | none => .ok ()
  | some pcl => do
    require (pcl ≤ s.state.maxMessagesPerChain)
      (.invalidInput "Previous chain length exceeds per-chain limit")
    let currentIndex := (s.state.recvChain.map ChainState.messageIndex).getD 0
    require (pcl - currentIndex ≤ maxSkippedMessageKeys)
      (.invalidState "Message key cache overflow")

/-- Whether an envelope without a ratchet header is from an older epoch. -/
def classifyEpoch (envelope : SecureEnvelope) (s : SessionInner) : Except ProtocolError Bool := do
  require (envelope.ratchetEpoch ≤ s.state.recvRatchetEpoch)
    (.invalidState "Future ratchet epoch without ratchet headers")
  require (envelope.previousChainLength = none)
    (.invalidInput "previous_chain_length present on non-ratchet envelope")
  .ok (decide (envelope.ratchetEpoch < s.state.recvRatchetEpoch))

/-- Brings the session to the envelope's epoch.  The result says whether the envelope is from
an older epoch, and the snapshot to go back to if there was a ratchet. -/
def enterEnvelopeEpoch (c : Crypto) (envelope : SecureEnvelope) :
    SessionM (Bool × Option RatchetSnapshot) := do
  if envelope.hasRatchetHeader then do
    reads (checkRatchetEnvelope envelope)
    let snapshot := RatchetSnapshot.capture (← get)
    onError (applyRecvRatchet c envelope) (rollbackRatchet (some snapshot))
    pure (false, some snapshot)
  else do
    let isOldEpoch ← reads (classifyEpoch envelope)
    pure (isOldEpoch, none)

/-- The key that opens an envelope's metadata. -/
def metadataKeyFor (envelope : SecureEnvelope) (isOldEpoch : Bool) (s : SessionInner) :
    Except ProtocolError Bytes :=
  if isOldEpoch then
    orError (s.cachedMetadataKeys.get? envelope.ratchetEpoch)
      (.invalidState "Metadata decryption failed")
  else .ok s.state.metadataKey

/-- Opens and decodes the metadata of an envelope. -/
def openMetadata (c : Crypto) (w : Wire) (envelope : SecureEnvelope) (isOldEpoch : Bool)
    (s : SessionInner) : Except ProtocolError EnvelopeMetadata := do
  let metadataKey ← metadataKeyFor envelope isOldEpoch s
  let metadataAad ← buildMetadataAad s.state envelope.ratchetEpoch envelope.previousChainLength
  let metadataBytes ← AesGcm.decrypt c metadataKey envelope.headerNonce
    envelope.encryptedMetadata metadataAad
  match w.metadata.decode metadataBytes with
  | .ok metadata => .ok metadata
  | .error e => .error (.decode s!"Failed to parse metadata: {e}")

/-- The checks on opened metadata. -/
def checkMetadata (metadata : EnvelopeMetadata) (s : SessionInner) : Except ProtocolError Unit := do
  require (metadata.payloadNonce.length = aesGcmNonceBytes)
    (.invalidInput "Invalid payload nonce size")
  require (metadata.messageIndex ≤ maxMessageIndex) (.invalidInput "Message index exceeds maximum")
  require (metadata.messageIndex < s.state.maxMessagesPerChain)
    (.invalidInput "Message index exceeds per-chain limit")
  let nonceIndex ← extractNonceIndex metadata.payloadNonce
  require (nonceIndex = metadata.messageIndex) (.invalidInput "Nonce index mismatch")
  require (metadata.payloadNonce ∉ s.seenPayloadNonces)
    (.replayAttack "Replay attack detected: payload nonce reused")

/-- Opens the metadata of an envelope and checks it. -/
def readMetadata (c : Crypto) (w : Wire) (envelope : SecureEnvelope) (isOldEpoch : Bool)
    (s : SessionInner) : Except ProtocolError EnvelopeMetadata := do
  let metadata ← openMetadata c w envelope isOldEpoch s
  checkMetadata metadata s
  .ok metadata

/-- Takes the message key of an envelope out of the state. -/
def takeMessageKey (c : Crypto) (envelope : SecureEnvelope) (isOldEpoch : Bool)
    (messageIndex : ℕ) : SessionM Bytes :=
  if isOldEpoch then
    trySkippedKey envelope.ratchetEpoch messageIndex
      (.replayAttack "Old-epoch message key not found (already consumed or never cached)")
  else getRecvMessageKey c messageIndex

/-- Opens and unpads the payload of an envelope. -/
def openPayload (c : Crypto) (envelope : SecureEnvelope) (metadata : EnvelopeMetadata)
    (messageKey : Bytes) (s : SessionInner) : Except ProtocolError Bytes := do
  let payloadAad ← buildPayloadAad s.state envelope.ratchetEpoch metadata.messageIndex
    envelope.previousChainLength
  let paddedPlaintext ← AesGcm.decrypt c messageKey metadata.payloadNonce
    envelope.encryptedPayload payloadAad
  MessagePadding.unpad paddedPlaintext

/-- The loop that drops the keys a failed walk cached. -/
def eraseKeys (epoch : ℕ) : ℕ → ℕ → OrdMap Slot Bytes → OrdMap Slot Bytes
  | 0, _, m => m
  | count + 1, index, m => eraseKeys epoch count (index + 1) (m.erase (slot epoch index))

/-- What a failed payload does with the message key: roll the ratchet back, return an old key
to the cache, or return the receiving chain to where it was. -/
def undoMessageKey (snapshot : Option RatchetSnapshot) (isOldEpoch : Bool)
    (envelopeEpoch messageIndex : ℕ) (messageKey : Bytes) (recvChainPre : Option (Bytes × ℕ))
    (s : SessionInner) : SessionInner :=
  match snapshot with
  | some snap => rollbackRatchet (some snap) s
  | none =>
    if isOldEpoch then
      s.withSkipped (s.skippedMessageKeys.insert (slot envelopeEpoch messageIndex) messageKey)
    else match recvChainPre with
      | none => s
      | some (savedKey, savedIndex) =>
        let epoch := s.state.recvRatchetEpoch
        if messageIndex < savedIndex then
          (s.withSkipped (s.skippedMessageKeys.insert (slot epoch messageIndex)
            messageKey)).setRecvChain savedKey savedIndex
        else
          (s.withSkipped (eraseKeys epoch (messageIndex - savedIndex) savedIndex
            s.skippedMessageKeys)).setRecvChain savedKey savedIndex

/-- The receiving chain as `decrypt` remembers it before it takes a key. -/
def savedRecvChain (isOldEpoch : Bool) (s : SessionInner) : Option (Bytes × ℕ) :=
  if isOldEpoch then none
  else s.state.recvChain.map fun rc => (rc.chainKey, rc.messageIndex)

def pruneSeenNonces : Finset Bytes → List Bytes → Finset Bytes × List Bytes
  | set, [] => (set, [])
  | set, oldest :: order =>
    if maxSeenNonces < (oldest :: order).length then pruneSeenNonces (set.erase oldest) order
    else (set, oldest :: order)

def rememberSeenPayloadNonce (nonce : Bytes) (s : SessionInner) : SessionInner :=
  if nonce ∈ s.seenPayloadNonces then s
  else
    let pruned := pruneSeenNonces (insert nonce s.seenPayloadNonces)
      (s.seenPayloadNonceOrder ++ [nonce])
    { s with seenPayloadNonces := pruned.1, seenPayloadNonceOrder := pruned.2 }

/-- What a successful `decrypt` records besides the keys. -/
def recordReceived (nonce : Bytes) (activityUnix totalReceived : ℕ) (s : SessionInner) :
    SessionInner :=
  let s := rememberSeenPayloadNonce nonce s
  { s with
    sendRatchetPending := true
    state := { s.state with
      sendRatchetPending := if s.sendRatchetPending then s.state.sendRatchetPending else true
      lastActivityUnix := some activityUnix
      totalMessagesReceived := totalReceived } }

def decrypt (c : Crypto) (w : Wire) (clock : Clock) (envelope : SecureEnvelope) :
    SessionM DecryptResult := do
  let (activityUnix, totalReceived) ← reads (checkDecrypt clock envelope)
  let (isOldEpoch, snapshot) ← enterEnvelopeEpoch c envelope
  let metadata ← onError (reads (readMetadata c w envelope isOldEpoch)) (rollbackRatchet snapshot)
  let recvChainPre := savedRecvChain isOldEpoch (← get)
  let messageKey ← onError (takeMessageKey c envelope isOldEpoch metadata.messageIndex)
    (rollbackRatchet snapshot)
  let plaintext ← onError (reads (openPayload c envelope metadata messageKey))
    (undoMessageKey snapshot isOldEpoch envelope.ratchetEpoch metadata.messageIndex messageKey
      recvChainPre)
  modify (recordReceived metadata.payloadNonce activityUnix totalReceived)
  pure { plaintext := plaintext, metadata := metadata }

theorem pruneSeenNonces_subset (set : Finset Bytes) (order : List Bytes) :
    (pruneSeenNonces set order).1 ⊆ set := by
  induction order generalizing set with
  | nil => exact Finset.Subset.refl _
  | cons oldest order ih =>
    rw [pruneSeenNonces]
    split_ifs
    · exact (ih _).trans (Finset.erase_subset _ _)
    · exact Finset.Subset.refl _

/-- The replay cache only learns the nonce of the message. -/
theorem recordReceived_seenPayloadNonces (nonce : Bytes) (activityUnix totalReceived : ℕ)
    (s : SessionInner) :
    (recordReceived nonce activityUnix totalReceived s).seenPayloadNonces ⊆
      insert nonce s.seenPayloadNonces := by
  change (rememberSeenPayloadNonce nonce s).seenPayloadNonces ⊆ _
  rw [rememberSeenPayloadNonce]
  split_ifs
  · exact Finset.subset_insert _ _
  · exact pruneSeenNonces_subset _ _

theorem recordReceived_state (nonce : Bytes) (activityUnix totalReceived : ℕ) (s : SessionInner) :
    (recordReceived nonce activityUnix totalReceived s).state = { s.state with
      sendRatchetPending := if s.sendRatchetPending then s.state.sendRatchetPending else true
      lastActivityUnix := some activityUnix
      totalMessagesReceived := totalReceived } := by
  rw [recordReceived, rememberSeenPayloadNonce]
  split_ifs <;> rfl

/-! ## What a successful call does -/

/-- The three ways to reach an envelope's epoch: a ratchet, the current epoch, an older one. -/
inductive Entered (c : Crypto) (envelope : SecureEnvelope) (s : SessionInner) :
    Bool → Option RatchetSnapshot → SessionInner → Prop
  | ratchet {s₁ : SessionInner} : envelope.hasRatchetHeader = true →
      checkRatchetEnvelope envelope s = .ok () → (applyRecvRatchet c envelope).run s = .ok () s₁ →
      Entered c envelope s false (some (RatchetSnapshot.capture s)) s₁
  | current : envelope.hasRatchetHeader = false →
      envelope.ratchetEpoch = s.state.recvRatchetEpoch → envelope.previousChainLength = none →
      Entered c envelope s false none s
  | old : envelope.hasRatchetHeader = false →
      envelope.ratchetEpoch < s.state.recvRatchetEpoch → envelope.previousChainLength = none →
      Entered c envelope s true none s

theorem classifyEpoch_eq_ok :
    classifyEpoch envelope s = .ok isOldEpoch ↔
      envelope.ratchetEpoch ≤ s.state.recvRatchetEpoch ∧ envelope.previousChainLength = none ∧
        decide (envelope.ratchetEpoch < s.state.recvRatchetEpoch) = isOldEpoch := by
  simp only [classifyEpoch, except_bind_eq_ok, exists_const, require_eq_ok, Except.ok.injEq]

variable {snapshot : Option RatchetSnapshot}

theorem enterEnvelopeEpoch_eq_ok :
    (enterEnvelopeEpoch c envelope).run s = .ok (isOldEpoch, snapshot) s' ↔
      Entered c envelope s isOldEpoch snapshot s' := by
  constructor
  · intro h
    rw [enterEnvelopeEpoch] at h
    split_ifs at h with hheader
    · obtain ⟨_, hcheck, h⟩ := reads_bind_eq_ok.mp h
      rw [get_bind_run, bind_eq_ok] at h
      obtain ⟨_, _, happly, h⟩ := h
      cases h
      exact .ratchet hheader hcheck (onError_eq_ok.mp happly)
    · obtain ⟨isOld, hclass, h⟩ := reads_bind_eq_ok.mp h
      cases h
      obtain ⟨hle, hpcl, rfl⟩ := classifyEpoch_eq_ok.mp hclass
      rcases Nat.lt_or_eq_of_le hle with hlt | heq
      · rw [decide_eq_true hlt]
        exact .old (Bool.not_eq_true _ ▸ hheader) hlt hpcl
      · rw [decide_eq_false heq.not_lt]
        exact .current (Bool.not_eq_true _ ▸ hheader) heq hpcl
  · intro h
    cases h with
    | ratchet hheader hcheck happly =>
      rw [enterEnvelopeEpoch, if_pos hheader, reads_bind_of_ok hcheck, get_bind_run,
        bind_of_ok (onError_eq_ok.mpr happly)]
      rfl
    | current hheader heq hpcl =>
      rw [enterEnvelopeEpoch, hheader, if_neg Bool.false_ne_true, reads_bind_of_ok
        (classifyEpoch_eq_ok.mpr ⟨heq.le, hpcl, decide_eq_false heq.not_lt⟩)]
      rfl
    | old hheader hlt hpcl =>
      rw [enterEnvelopeEpoch, hheader, if_neg Bool.false_ne_true, reads_bind_of_ok
        (classifyEpoch_eq_ok.mpr ⟨hlt.le, hpcl, decide_eq_true hlt⟩)]
      rfl

/-- A successful `decrypt`, step by step. -/
structure Received (c : Crypto) (w : Wire) (clock : Clock) (envelope : SecureEnvelope)
    (s : SessionInner) (result : DecryptResult) (s' : SessionInner) where
  activityUnix : ℕ
  totalReceived : ℕ
  isOldEpoch : Bool
  snapshot : Option RatchetSnapshot
  /-- The session in the envelope's epoch. -/
  entered : SessionInner
  key : Bytes
  /-- The session after the message key was taken out. -/
  keyed : SessionInner
  check : checkDecrypt clock envelope s = .ok (activityUnix, totalReceived)
  isEntered : Entered c envelope s isOldEpoch snapshot entered
  metadata : readMetadata c w envelope isOldEpoch entered = .ok result.metadata
  take : (takeMessageKey c envelope isOldEpoch result.metadata.messageIndex).run entered =
    .ok key keyed
  payload : openPayload c envelope result.metadata key keyed = .ok result.plaintext
  final_eq : s' = recordReceived result.metadata.payloadNonce activityUnix totalReceived keyed

theorem decrypt_eq_ok {result : DecryptResult} :
    (decrypt c w clock envelope).run s = .ok result s' ↔
      Nonempty (Received c w clock envelope s result s') := by
  constructor
  · intro h
    obtain ⟨⟨activityUnix, totalReceived⟩, hcheck, h⟩ := reads_bind_eq_ok.mp h
    rw [bind_eq_ok] at h
    obtain ⟨⟨isOldEpoch, snapshot⟩, entered, henter, h⟩ := h
    rw [bind_eq_ok] at h
    obtain ⟨metadata, _, hmeta, h⟩ := h
    obtain ⟨hmeta, rfl⟩ := reads_eq_ok.mp (onError_eq_ok.mp hmeta)
    rw [get_bind_run, bind_eq_ok] at h
    obtain ⟨key, keyed, htake, h⟩ := h
    rw [bind_eq_ok] at h
    obtain ⟨plaintext, _, hopen, h⟩ := h
    obtain ⟨hopen, rfl⟩ := reads_eq_ok.mp (onError_eq_ok.mp hopen)
    cases h
    exact ⟨⟨_, _, _, _, _, key, _, hcheck, enterEnvelopeEpoch_eq_ok.mp henter, hmeta,
      onError_eq_ok.mp htake, hopen, rfl⟩⟩
  · rintro ⟨r⟩
    rw [decrypt, reads_bind_of_ok r.check, bind_of_ok (enterEnvelopeEpoch_eq_ok.mpr r.isEntered),
      bind_of_ok (onError_eq_ok.mpr (reads_eq_ok.mpr ⟨r.metadata, rfl⟩)), get_bind_run,
      bind_of_ok (onError_eq_ok.mpr r.take),
      bind_of_ok (onError_eq_ok.mpr (reads_eq_ok.mpr ⟨r.payload, rfl⟩))]
    exact congrArg (EStateM.Result.ok result) r.final_eq.symm

/-! ## What a failing call does -/

/-- A snapshot brings back everything a receive ratchet may have written. -/
theorem rollbackRatchet_capture (h : RatchetFrame s s') :
    rollbackRatchet (some (RatchetSnapshot.capture s)) s' = s := by
  rw [rollbackRatchet, h.pendingKyberSharedSecret, h.seenPayloadNonces, h.seenPayloadNonceOrder,
    h.isInitiator, h.dhPrivateHandle, h.kyberSecretHandle, h.messagesSinceLastDhRatchet]
  rfl

theorem enterEnvelopeEpoch_eq_error (h : (enterEnvelopeEpoch c envelope).run s = .error e s') :
    s' = s := by
  rw [enterEnvelopeEpoch] at h
  split_ifs at h with hheader
  · obtain h | ⟨_, -, h⟩ := reads_bind_eq_error.mp h
    · exact h.2
    rw [get_bind_run, bind_eq_error] at h
    rcases h with h | ⟨_, _, -, h⟩
    · obtain ⟨s₁, herr, rfl⟩ := onError_eq_error.mp h
      exact rollbackRatchet_capture ((applyRecvRatchet_keeps c envelope).of_error herr)
    · cases h
  · obtain h | ⟨_, -, h⟩ := reads_bind_eq_error.mp h
    · exact h.2
    · cases h

theorem Entered.rollback {s₁ : SessionInner} (h : Entered c envelope s isOldEpoch snapshot s₁) :
    rollbackRatchet snapshot s₁ = s := by
  cases h with
  | ratchet _ _ happly =>
    exact rollbackRatchet_capture ((applyRecvRatchet_keeps c envelope).of_ok happly)
  | current => rfl
  | old => rfl

theorem takeMessageKey_eq_error (h : (takeMessageKey c envelope isOldEpoch i).run s = .error e s') :
    s' = s := by
  cases isOldEpoch with
  | true => exact trySkippedKey_eq_error h
  | false => exact getRecvMessageKey_eq_error h

/-- Taking a current-epoch key only writes the cache and the receiving chain. -/
theorem getRecvMessageKey_frame (h : (getRecvMessageKey c i).run s = .ok key s') :
    RatchetFrame s s' := by
  obtain ⟨rc, -, ⟨-, -, rfl⟩ | ⟨-, -, -, rfl⟩⟩ := getRecvMessageKey_eq_ok.mp h
  · exact ⟨rfl, rfl, rfl, rfl, rfl, rfl, rfl⟩
  · exact ⟨rfl, rfl, rfl, rfl, rfl, rfl, rfl⟩

/-- Writing back the chain position that was there changes nothing. -/
theorem setRecvChain_of_recvChain (h : s.state.recvChain = some rc) :
    s.setRecvChain rc.chainKey rc.messageIndex = s := by
  rcases s with ⟨state, _⟩
  rcases state with ⟨⟩
  simp only at h
  subst h
  rfl

/-- An envelope without a ratchet header, of the current epoch, whose metadata opens to an index
at or ahead of the receiving chain, within the reach of the cache. -/
structure AheadOfChain (c : Crypto) (w : Wire) (clock : Clock) (envelope : SecureEnvelope)
    (s : SessionInner) (metadata : EnvelopeMetadata) (rc : ChainState) : Prop where
  check : ∃ r, checkDecrypt clock envelope s = .ok r
  noHeader : envelope.hasRatchetHeader = false
  epoch : envelope.ratchetEpoch = s.state.recvRatchetEpoch
  previousChainLength : envelope.previousChainLength = none
  opens : readMetadata c w envelope false s = .ok metadata
  chain : checkRecvMessageIndex metadata.messageIndex s = .ok rc
  ahead : rc.messageIndex ≤ metadata.messageIndex
  gap : metadata.messageIndex - rc.messageIndex ≤ maxSkippedMessageKeys

/-- The cache after a walk of `count` steps was made and taken back. -/
def walkedBack (c : Crypto) (rc : ChainState) (count : ℕ) (s : SessionInner) : OrdMap Slot Bytes :=
  eraseKeys s.state.recvRatchetEpoch count rc.messageIndex
    (insertKeys c s.state.recvRatchetEpoch count rc.messageIndex rc.chainKey (roomFor count s))

/-- Undoing a walk along the chain restores the chain, but the cache has been through
`reserve_skipped_capacity`. -/
theorem undoMessageKey_walk (hrc : s.state.recvChain = some rc) (hle : rc.messageIndex ≤ i)
    (hnext : Bytes) :
    undoMessageKey none false epoch i key (savedRecvChain false s)
        ((cacheAhead c rc (i - rc.messageIndex) s).setRecvChain hnext (i + 1)) =
      s.withSkipped (walkedBack c rc (i - rc.messageIndex) s) := by
  have hsaved : savedRecvChain false s = some (rc.chainKey, rc.messageIndex) := by
    rw [savedRecvChain, if_neg Bool.false_ne_true, hrc]
    rfl
  rw [hsaved]
  simp only [undoMessageKey, Bool.false_eq_true, if_false, if_neg (not_lt.mpr hle)]
  conv_rhs => rw [← setRecvChain_of_recvChain hrc]
  rcases s with ⟨state, _⟩
  rcases state with ⟨⟩
  simp only at hrc
  subst hrc
  rfl

/-- Undoing the removal of a cached key of the current epoch restores the session. -/
theorem undoMessageKey_cached (hrc : s.state.recvChain = some rc) (hlt : i < rc.messageIndex)
    (hkey : s.skippedMessageKeys.get? (slot s.state.recvRatchetEpoch i) = some key) :
    undoMessageKey none false epoch i key (savedRecvChain false s)
        (s.withSkipped (s.skippedMessageKeys.erase (slot s.state.recvRatchetEpoch i))) = s := by
  have hsaved : savedRecvChain false s = some (rc.chainKey, rc.messageIndex) := by
    rw [savedRecvChain, if_neg Bool.false_ne_true, hrc]
    rfl
  rw [hsaved]
  simp only [undoMessageKey, Bool.false_eq_true, if_false, if_pos hlt,
    withSkipped_state, withSkipped_skippedMessageKeys,
    withSkipped_withSkipped, OrdMap.insert_erase_of_get?_eq_some hkey,
    withSkipped_self, setRecvChain_of_recvChain hrc]

theorem undoMessageKey_old (hkey : s.skippedMessageKeys.get? (slot epoch i) = some key) :
    undoMessageKey none true epoch i key (savedRecvChain true s)
        (s.withSkipped (s.skippedMessageKeys.erase (slot epoch i))) = s := by
  simp only [undoMessageKey, if_true, withSkipped_skippedMessageKeys,
    withSkipped_withSkipped, OrdMap.insert_erase_of_get?_eq_some hkey,
    withSkipped_self]

/-- If the payload fails after a walk along the chain, the cache is what the walk left of it. -/
theorem AheadOfChain.decrypt_eq_error {metadata : EnvelopeMetadata}
    (ha : AheadOfChain c w clock envelope s metadata rc)
    (h : (decrypt c w clock envelope).run s = .error e s') :
    s' = s.withSkipped (walkedBack c rc (metadata.messageIndex - rc.messageIndex) s) := by
  obtain ⟨r, hcheck⟩ := ha.check
  have henter := enterEnvelopeEpoch_eq_ok.mpr
    (Entered.current (c := c) ha.noHeader ha.epoch ha.previousChainLength)
  have htake : (takeMessageKey c envelope false metadata.messageIndex).run s = .ok _ _ :=
    getRecvMessageKey_eq_ok.mpr ⟨rc, ha.chain, .inr ⟨ha.ahead, ha.gap, rfl, rfl⟩⟩
  rw [decrypt, reads_bind_of_ok hcheck, bind_of_ok henter,
    bind_of_ok (onError_eq_ok.mpr (reads_eq_ok.mpr ⟨ha.opens, rfl⟩)), get_bind_run,
    bind_of_ok (onError_eq_ok.mpr htake), bind_eq_error] at h
  rcases h with h | ⟨_, _, _, h⟩
  · obtain ⟨_, hopen, rfl⟩ := onError_eq_error.mp h
    obtain ⟨-, rfl⟩ := reads_eq_error.mp hopen
    exact undoMessageKey_walk (checkRecvMessageIndex_eq_ok.mp ha.chain).1 ha.ahead _
  · cases h

/-- A failing payload restores the session, unless its key came from a walk along the chain. -/
theorem undoMessageKey_of_entered {entered keyed : SessionInner}
    (henter : Entered c envelope s isOldEpoch snapshot entered)
    (htake : (takeMessageKey c envelope isOldEpoch i).run entered = .ok key keyed) :
    undoMessageKey snapshot isOldEpoch envelope.ratchetEpoch i key
        (savedRecvChain isOldEpoch entered) keyed = s ∨
      isOldEpoch = false ∧ snapshot = none ∧ entered = s ∧ ∃ rc,
        checkRecvMessageIndex i s = .ok rc ∧ rc.messageIndex ≤ i ∧
          i - rc.messageIndex ≤ maxSkippedMessageKeys := by
  cases henter with
  | ratchet _ _ happly =>
    exact .inl (rollbackRatchet_capture
      (((applyRecvRatchet_keeps c envelope).of_ok happly).trans (getRecvMessageKey_frame htake)))
  | current =>
    obtain ⟨rc, hrc, ⟨hlt, hkey, rfl⟩ | ⟨hle, hgap, -, -⟩⟩ := getRecvMessageKey_eq_ok.mp htake
    · exact .inl (undoMessageKey_cached (checkRecvMessageIndex_eq_ok.mp hrc).1 hlt hkey)
    · exact .inr ⟨rfl, rfl, rfl, rc, hrc, hle, hgap⟩
  | old =>
    obtain ⟨hkey, rfl⟩ := trySkippedKey_eq_ok.mp htake
    exact .inl (undoMessageKey_old hkey)

/-- A failing `decrypt` leaves the session as it was, unless the payload failed after a walk
along the chain. -/
theorem decrypt_eq_error (h : (decrypt c w clock envelope).run s = .error e s') :
    s' = s ∨ ∃ metadata rc, AheadOfChain c w clock envelope s metadata rc := by
  obtain h | ⟨r, hcheck, h⟩ := reads_bind_eq_error.mp h
  · exact .inl h.2
  rw [bind_eq_error] at h
  rcases h with h | ⟨⟨isOldEpoch, snapshot⟩, entered, henter, h⟩
  · exact .inl (enterEnvelopeEpoch_eq_error h)
  have hentered := enterEnvelopeEpoch_eq_ok.mp henter
  rw [bind_eq_error] at h
  rcases h with h | ⟨metadata, _, hmeta, h⟩
  · obtain ⟨_, herr, rfl⟩ := onError_eq_error.mp h
    obtain ⟨-, rfl⟩ := reads_eq_error.mp herr
    exact .inl hentered.rollback
  obtain ⟨hread, rfl⟩ := reads_eq_ok.mp (onError_eq_ok.mp hmeta)
  rw [get_bind_run, bind_eq_error] at h
  rcases h with h | ⟨key, keyed, htake, h⟩
  · obtain ⟨_, herr, rfl⟩ := onError_eq_error.mp h
    obtain rfl := takeMessageKey_eq_error herr
    exact .inl hentered.rollback
  rw [bind_eq_error] at h
  rcases h with h | ⟨_, _, -, h⟩
  · obtain ⟨_, herr, rfl⟩ := onError_eq_error.mp h
    obtain ⟨-, rfl⟩ := reads_eq_error.mp herr
    rcases undoMessageKey_of_entered hentered (onError_eq_ok.mp htake) with
      hundo | ⟨rfl, rfl, rfl, rc, hrc, hle, hgap⟩
    · exact .inl hundo
    · cases hentered with
      | current hheader hepoch hpcl =>
        exact .inr ⟨metadata, rc, ⟨r, hcheck⟩, hheader, hepoch, hpcl, hread, hrc, hle, hgap⟩
  · cases h

end AuraProtocol.Session
