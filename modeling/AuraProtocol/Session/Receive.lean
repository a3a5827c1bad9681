import AuraProtocol.Session.Keys

/-!
# The receiving side of the ratchet

How a session finds the key of an incoming message: the cache of skipped message
keys with its evictions, the walk along the current receiving chain, and the
hybrid ratchet step that a ratchet envelope triggers.

Each function comes with what it does as a function of the state.  A chain walk
cannot fail half-way (`cacheSkippedKeys_eq`), so `getRecvMessageKey` and
`skipOldChainKeys` either fail at once and leave the state alone or succeed with
a state given in closed form (`cacheAhead`).
-/

namespace AuraProtocol.Session

open Fallible

variable {c : Crypto} {i pcl : ℕ} {s s' : SessionInner} {e : ProtocolError} {u : Unit}
  {missing : ProtocolError} {messageIndex : ℕ}

/-! ## Skipped message keys -/

/-- `evict_aged_skipped_keys`: pops slots of epochs too far behind the receive epoch. -/
def evictAgedSkippedKeys (s : SessionInner) : SessionInner :=
  let minAllowedEpoch := s.state.recvRatchetEpoch - maxSkippedKeyEpochAge
  s.withSkipped (s.skippedMessageKeys.popWhile fun k => decide ((ofLex k).1 < minAllowedEpoch))

/-- `reserve_skipped_capacity`: evicts oldest-first until `needed` more keys fit. -/
def reserveSkippedCapacity (needed : ℕ) : SessionM Unit := do
  lift (require (needed ≤ maxSkippedMessageKeys) (.invalidState "Message key cache overflow"))
  modify evictAgedSkippedKeys
  modify fun s => s.withSkipped (s.skippedMessageKeys.popTo (maxSkippedMessageKeys - needed))

def enforceCacheLimit (s : SessionInner) : SessionInner :=
  let s := evictAgedSkippedKeys s
  s.withSkipped (s.skippedMessageKeys.popTo maxSkippedMessageKeys)

/-- `try_skipped_key`: takes a key out of the cache, or fails with the caller's error. -/
def trySkippedKey (epoch messageIndex : ℕ) (missing : ProtocolError) : SessionM Bytes := do
  let key ← reads fun s => orError (s.skippedMessageKeys.get? (slot epoch messageIndex)) missing
  modify fun s => s.withSkipped (s.skippedMessageKeys.erase (slot epoch messageIndex))
  pure key

/-- The loop that walks a chain `count` steps from `index` on, caching the keys it passes.
It returns the chain key it arrives at. -/
def cacheSkippedKeys (c : Crypto) (epoch : ℕ) : ℕ → ℕ → Bytes → SessionM Bytes
  | 0, _, chainKey => pure chainKey
  | count + 1, index, chainKey => do
    let (messageKey, nextChainKey) ← lift (deriveMessageAndChainKey c chainKey)
    modify fun s => s.withSkipped (s.skippedMessageKeys.insert (slot epoch index) messageKey)
    cacheSkippedKeys c epoch count (index + 1) nextChainKey

/-- The checks of `skip_old_chain_keys`; the result is the receiving chain. -/
def checkSkipOldChain (previousChainLength : ℕ) (s : SessionInner) :
    Except ProtocolError ChainState := do
  let recvChain ← orError s.state.recvChain (.invalidState "Recv chain not initialized")
  require (recvChain.chainKey.length = chainKeyBytes) (.invalidState "Receiving chain key missing")
  require (s.state.maxMessagesPerChain ≠ 0 ∧
      s.state.maxMessagesPerChain ≤ AuraProtocol.maxMessagesPerChain)
    (.invalidState "Invalid max messages per chain")
  require (previousChainLength ≤ s.state.maxMessagesPerChain)
    (.invalidInput "Previous chain length exceeds per-chain limit")
  .ok recvChain

/-- `skip_old_chain_keys`: caches what is left of the chain that a ratchet ends. -/
def skipOldChainKeys (c : Crypto) (previousChainLength : ℕ) : SessionM Unit := do
  let recvChain ← reads (checkSkipOldChain previousChainLength)
  let epoch := (← get).state.recvRatchetEpoch
  if previousChainLength ≤ recvChain.messageIndex then pure ()
  else do
    reserveSkippedCapacity (previousChainLength - recvChain.messageIndex)
    let chainKey ← cacheSkippedKeys c epoch (previousChainLength - recvChain.messageIndex)
      recvChain.messageIndex recvChain.chainKey
    modify fun s => s.setRecvChain chainKey previousChainLength

/-- The checks of `get_recv_message_key`; the result is the receiving chain. -/
def checkRecvMessageIndex (messageIndex : ℕ) (s : SessionInner) :
    Except ProtocolError ChainState := do
  let chain ← orError s.state.recvChain (.invalidState "Recv chain not initialized")
  require (chain.chainKey.length = chainKeyBytes) (.invalidState "Receiving chain key missing")
  require (messageIndex ≤ maxMessageIndex) (.invalidInput "Message index exceeds maximum")
  .ok chain

/-- `get_recv_message_key`: from the cache for an index behind the chain, else by walking the
chain up to the index. -/
def getRecvMessageKey (c : Crypto) (messageIndex : ℕ) : SessionM Bytes := do
  let chain ← reads (checkRecvMessageIndex messageIndex)
  let epoch := (← get).state.recvRatchetEpoch
  if messageIndex < chain.messageIndex then
    trySkippedKey epoch messageIndex
      (.replayAttack "Replay attack detected: message index already processed")
  else do
    reserveSkippedCapacity (messageIndex - chain.messageIndex)
    let chainKey ← cacheSkippedKeys c epoch (messageIndex - chain.messageIndex)
      chain.messageIndex chain.chainKey
    let (messageKey, nextChainKey) ← lift (deriveMessageAndChainKey c chainKey)
    modify fun s => s.setRecvChain nextChainKey (messageIndex + 1)
    pure messageKey

/-! ### What they do to the state -/

/-- The cache after room for `needed` keys was made. -/
def roomFor (needed : ℕ) (s : SessionInner) : OrdMap Slot Bytes :=
  (evictAgedSkippedKeys s).skippedMessageKeys.popTo (maxSkippedMessageKeys - needed)

/-- A cache with the keys of `count` chain steps from `index` on added. -/
def insertKeys (c : Crypto) (epoch : ℕ) :
    ℕ → ℕ → Bytes → OrdMap Slot Bytes → OrdMap Slot Bytes
  | 0, _, _, m => m
  | count + 1, index, chainKey, m =>
    insertKeys c epoch count (index + 1) (nextChainKeyOf c chainKey)
      (m.insert (slot epoch index) (messageKeyOf c chainKey))

/-- The state after `count` keys of the receiving chain were moved to the cache; the chain's
own position is not written yet. -/
def cacheAhead (c : Crypto) (recvChain : ChainState) (count : ℕ) (s : SessionInner) :
    SessionInner :=
  s.withSkipped (insertKeys c s.state.recvRatchetEpoch count recvChain.messageIndex
    recvChain.chainKey (roomFor count s))

theorem get?_insertKeys (c : Crypto) (epoch count index : ℕ) (chainKey : Bytes)
    (m : OrdMap Slot Bytes) (e i : ℕ) :
    (insertKeys c epoch count index chainKey m).get? (slot e i) =
      if e = epoch ∧ index ≤ i ∧ i < index + count then
        some (messageKeyOf c (chainKeyAt c chainKey (i - index)))
      else m.get? (slot e i) := by
  induction count generalizing index chainKey m with
  | zero =>
    rw [insertKeys, if_neg]
    omega
  | succ count ih =>
    rw [insertKeys, ih, OrdMap.get?_insert]
    simp only [slot_inj]
    by_cases hnew : e = epoch ∧ i = index
    · obtain ⟨rfl, rfl⟩ := hnew
      rw [if_neg (by omega), if_pos ⟨rfl, rfl⟩, if_pos (by omega), Nat.sub_self, chainKeyAt_zero]
    · rw [if_neg hnew]
      by_cases hin : e = epoch ∧ index + 1 ≤ i ∧ i < index + 1 + count
      · have hsub : i - index = i - (index + 1) + 1 := by omega
        rw [if_pos hin, if_pos (by omega), hsub, chainKeyAt_succ']
      · rw [if_neg hin, if_neg (by omega)]

/-- The walk along a chain always arrives, and caches exactly the keys it passes. -/
theorem cacheSkippedKeys_run (c : Crypto) (epoch count index : ℕ) (chainKey : Bytes)
    (s : SessionInner) :
    (cacheSkippedKeys c epoch count index chainKey).run s =
      .ok (chainKeyAt c chainKey count)
        (s.withSkipped (insertKeys c epoch count index chainKey s.skippedMessageKeys)) := by
  induction count generalizing index chainKey s with
  | zero => rfl
  | succ count ih =>
    rw [cacheSkippedKeys, lift_bind_of_ok (deriveMessageAndChainKey_eq c chainKey),
      modify_bind_run, ih, chainKeyAt_succ']
    rfl

theorem reserveSkippedCapacity_eq_ok {needed : ℕ} :
    (reserveSkippedCapacity needed).run s = .ok u s' ↔
      needed ≤ maxSkippedMessageKeys ∧ s' = s.withSkipped (roomFor needed s) := by
  simp only [reserveSkippedCapacity, require_bind_eq_ok, modify_bind_run, modify_run,
    EStateM.Result.ok.injEq, true_and, @eq_comm _ s']
  rfl

theorem reserveSkippedCapacity_eq_error {needed : ℕ}
    (h : (reserveSkippedCapacity needed).run s = .error e s') : s' = s := by
  obtain h | ⟨_, -, h⟩ := lift_bind_eq_error.mp h
  · exact h.2
  · cases h

theorem trySkippedKey_eq_ok {epoch : ℕ} {key : Bytes} :
    (trySkippedKey epoch i missing).run s = .ok key s' ↔
      s.skippedMessageKeys.get? (slot epoch i) = some key ∧
        s' = s.withSkipped (s.skippedMessageKeys.erase (slot epoch i)) := by
  simp only [trySkippedKey, reads_bind_eq_ok, orError_eq_ok, modify_bind_run, pure_run,
    EStateM.Result.ok.injEq, existsAndEq, true_and, @eq_comm _ s']

theorem trySkippedKey_eq_error {epoch : ℕ} (h : (trySkippedKey epoch i missing).run s = .error e s') :
    s' = s := by
  obtain h | ⟨_, -, h⟩ := reads_bind_eq_error.mp h
  · exact h.2
  · cases h

theorem checkRecvMessageIndex_eq_ok {rc : ChainState} :
    checkRecvMessageIndex i s = .ok rc ↔
      s.state.recvChain = some rc ∧ rc.chainKey.length = chainKeyBytes ∧ i ≤ maxMessageIndex := by
  simp only [checkRecvMessageIndex, except_bind_eq_ok, require_eq_ok, orError_eq_ok,
    Except.ok.injEq, exists_const, existsAndEq, and_true]

/-- `get_recv_message_key` succeeds in one of two ways: with a cached key behind the chain
position, or by a walk to an index at most a cache ahead. -/
theorem getRecvMessageKey_eq_ok {key : Bytes} :
    (getRecvMessageKey c messageIndex).run s = .ok key s' ↔
      ∃ rc, checkRecvMessageIndex messageIndex s = .ok rc ∧
        ((messageIndex < rc.messageIndex ∧
            s.skippedMessageKeys.get? (slot s.state.recvRatchetEpoch messageIndex) = some key ∧
            s' = s.withSkipped
              (s.skippedMessageKeys.erase (slot s.state.recvRatchetEpoch messageIndex))) ∨
          (rc.messageIndex ≤ messageIndex ∧
            messageIndex - rc.messageIndex ≤ maxSkippedMessageKeys ∧
            key = messageKeyOf c (chainKeyAt c rc.chainKey (messageIndex - rc.messageIndex)) ∧
            s' = (cacheAhead c rc (messageIndex - rc.messageIndex) s).setRecvChain
              (chainKeyAt c rc.chainKey (messageIndex - rc.messageIndex + 1))
              (messageIndex + 1))) := by
  simp only [getRecvMessageKey, reads_bind_eq_ok, get_bind_run]
  refine exists_congr fun rc => and_congr_right fun _ => ?_
  split_ifs with hlt
  · simp [trySkippedKey_eq_ok, hlt, hlt.not_ge]
  · simp only [bind_eq_ok, reserveSkippedCapacity_eq_ok, cacheSkippedKeys_run, modify_bind_run,
      lift_bind_of_ok (deriveMessageAndChainKey_eq _ _)]
    simp [hlt, not_lt.mp hlt, cacheAhead, chainKeyAt_succ, eq_comm]

/-- A failing `get_recv_message_key` has not touched the state. -/
theorem getRecvMessageKey_eq_error (h : (getRecvMessageKey c messageIndex).run s = .error e s') :
    s' = s := by
  obtain h | ⟨rc, -, h⟩ := reads_bind_eq_error.mp h
  · exact h.2
  · rw [get_bind_run] at h
    split_ifs at h with hlt
    · exact trySkippedKey_eq_error h
    · obtain h | ⟨_, _, -, h⟩ := bind_eq_error.mp h
      · exact reserveSkippedCapacity_eq_error h
      · rw [bind_of_ok (cacheSkippedKeys_run _ _ _ _ _ _),
          lift_bind_of_ok (deriveMessageAndChainKey_eq _ _)] at h
        cases h

theorem checkSkipOldChain_eq_ok {rc : ChainState} :
    checkSkipOldChain pcl s = .ok rc ↔
      s.state.recvChain = some rc ∧ rc.chainKey.length = chainKeyBytes ∧
        (s.state.maxMessagesPerChain ≠ 0 ∧
          s.state.maxMessagesPerChain ≤ AuraProtocol.maxMessagesPerChain) ∧
        pcl ≤ s.state.maxMessagesPerChain := by
  simp only [checkSkipOldChain, except_bind_eq_ok, require_eq_ok, orError_eq_ok, Except.ok.injEq,
    exists_const, existsAndEq, and_true]

theorem skipOldChainKeys_eq_error (h : (skipOldChainKeys c pcl).run s = .error e s') : s' = s := by
  obtain h | ⟨rc, -, h⟩ := reads_bind_eq_error.mp h
  · exact h.2
  · rw [get_bind_run] at h
    split_ifs at h with hle
    · cases h
    · obtain h | ⟨_, _, -, h⟩ := bind_eq_error.mp h
      · exact reserveSkippedCapacity_eq_error h
      · rw [bind_of_ok (cacheSkippedKeys_run _ _ _ _ _ _)] at h
        cases h

theorem skipOldChainKeys_eq_ok :
    (skipOldChainKeys c pcl).run s = .ok u s' ↔
      ∃ rc, checkSkipOldChain pcl s = .ok rc ∧
        ((pcl ≤ rc.messageIndex ∧ s' = s) ∨
          (rc.messageIndex < pcl ∧ pcl - rc.messageIndex ≤ maxSkippedMessageKeys ∧
            s' = (cacheAhead c rc (pcl - rc.messageIndex) s).setRecvChain
              (chainKeyAt c rc.chainKey (pcl - rc.messageIndex)) pcl)) := by
  simp only [skipOldChainKeys, reads_bind_eq_ok, get_bind_run]
  refine exists_congr fun rc => and_congr_right fun _ => ?_
  split_ifs with hle
  · simp [hle, not_lt.mpr hle, eq_comm]
  · simp only [bind_eq_ok, reserveSkippedCapacity_eq_ok, cacheSkippedKeys_run, modify_run]
    simp [hle, not_le.mp hle, cacheAhead, eq_comm]

/-! ## The receiving ratchet -/

/-- `enforce_metadata_cache_limit`: by age, then by count. -/
def enforceMetadataCacheLimit (s : SessionInner) : SessionInner :=
  let minAllowedEpoch := s.state.recvRatchetEpoch - maxMetadataKeyEpochAge
  { s with
    cachedMetadataKeys :=
      (s.cachedMetadataKeys.popWhile fun epoch => decide (epoch < minAllowedEpoch)).popTo
        maxCachedMetadataKeys }

/-- The three keys a ratchet step derives. -/
structure RatchetOutput where
  rootKey : Bytes
  chainKey : Bytes
  metadataKey : Bytes
  deriving DecidableEq

/-- The derivation both sides of a ratchet step make from the shared secrets. -/
def deriveRatchet (c : Crypto) (rootKey dhSecret kyberSecret newKyberPublic : Bytes) :
    Except ProtocolError RatchetOutput := do
  let out ← HkdfSha256.deriveKeyBytes c (dhSecret ++ kyberSecret) ratchetOutputBytes rootKey
    (hybridRatchetInfo ++ newKyberPublic)
  require (out.length = ratchetOutputBytes) (.invalidState "Ratchet output size mismatch")
  .ok { rootKey := out.take rootKeyBytes
        chainKey := (out.drop rootKeyBytes).take chainKeyBytes
        metadataKey := out.drop (rootKeyBytes + chainKeyBytes) }

/-- The ratchet header of an envelope. -/
structure RatchetHeader where
  dhPublic : Bytes
  kyberCiphertext : Bytes
  newKyberPublic : Bytes
  deriving DecidableEq

/-- The checks of `apply_recv_ratchet` before it derives anything. -/
def checkRatchetHeader (c : Crypto) (envelope : SecureEnvelope) (s : SessionInner) :
    Except ProtocolError RatchetHeader := do
  let dhPublic ← orError envelope.dhPublicKey (.invalidInput "Ratchet header missing")
  let kyberCt ← orError envelope.kyberCiphertext (.invalidInput "Ratchet header missing")
  let newKyberPk ← orError envelope.newKyberPublic
    (.invalidInput "Ratchet message missing new Kyber public key")
  require (dhPublic.length = x25519PublicKeyBytes ∧ kyberCt.length = kyberCiphertextBytes)
    (.invalidInput "Invalid ratchet header sizes")
  require (newKyberPk.length = kyberPublicKeyBytes)
    (.invalidInput "Invalid new Kyber public key size")
  DhValidator.validateX25519PublicKey dhPublic
  KyberInterop.validateCiphertext kyberCt
  KyberInterop.validatePublicKey c newKyberPk
  require (s.state.rootKey.length = rootKeyBytes) (.invalidState "Missing ratchet key material")
  .ok { dhPublic := dhPublic, kyberCiphertext := kyberCt, newKyberPublic := newKyberPk }

/-- The key derivation of `apply_recv_ratchet`. -/
def recvRatchetOutput (c : Crypto) (header : RatchetHeader) (s : SessionInner) :
    Except ProtocolError RatchetOutput := do
  let dhHandle ← orError s.dhPrivateHandle (.invalidState "DH private key handle missing")
  let dhPrivate ← readBytes dhHandle x25519PrivateKeyBytes
  let dhSecret ← computeDh c dhPrivate header.dhPublic
  let skHandle ← orError s.kyberSecretHandle (.invalidState "Kyber secret key handle missing")
  let kyberSs ← KyberInterop.decapsulate c header.kyberCiphertext skHandle
  deriveRatchet c s.state.rootKey dhSecret kyberSs header.newKyberPublic

/-- Keeps the metadata key of the epoch that ends, for late envelopes. -/
def retireMetadataKey (s : SessionInner) : SessionInner :=
  enforceMetadataCacheLimit { s with
    cachedMetadataKeys :=
      s.cachedMetadataKeys.insert s.state.recvRatchetEpoch s.state.metadataKey }

/-- Installs the keys of the new receiving epoch. -/
def installRecvKeys (out : RatchetOutput) (s : SessionInner) : SessionInner :=
  { s with
    state := { s.state with
      rootKey := out.rootKey
      metadataKey := out.metadataKey
      recvChain := some { messageIndex := 0, chainKey := out.chainKey, skippedMessageKeys := [] } } }

/-- Enters the new receiving epoch: from here on the peer's new public keys are in use. -/
def enterRecvEpoch (epoch : ℕ) (header : RatchetHeader) (s : SessionInner) : SessionInner :=
  let s := enforceCacheLimit { s with
    state := { s.state with
      recvRatchetEpoch := epoch
      dhRemotePublic := header.dhPublic
      kyberRemotePublic := header.newKyberPublic }
    replayEpoch := epoch }
  { s with sendRatchetPending := true, state := { s.state with sendRatchetPending := true } }

/-- The catch-up of `apply_recv_ratchet` with the chain that ends, if its length is given. -/
def skipPreviousChain (c : Crypto) : Option ℕ → SessionM Unit
  | some pcl => skipOldChainKeys c pcl
  | none => pure ()

def applyRecvRatchet (c : Crypto) (envelope : SecureEnvelope) : SessionM Unit := do
  let header ← reads (checkRatchetHeader c envelope)
  skipPreviousChain c envelope.previousChainLength
  let out ← reads (recvRatchetOutput c header)
  modify retireMetadataKey
  modify (installRecvKeys out)
  let epoch ← reads fun s => orError (checkedAdd s.state.recvRatchetEpoch 1)
    (.invalidState "Recv ratchet epoch overflow")
  modify (enterRecvEpoch epoch header)

/-- A receive ratchet, when it succeeds: the checks, the catch-up with the old chain, the
derivation, and the entry into the next epoch. -/
theorem applyRecvRatchet_eq_ok {envelope : SecureEnvelope} :
    (applyRecvRatchet c envelope).run s = .ok u s' ↔
      ∃ header s₁ out, checkRatchetHeader c envelope s = .ok header ∧
        (skipPreviousChain c envelope.previousChainLength).run s = .ok () s₁ ∧
        recvRatchetOutput c header s₁ = .ok out ∧ s₁.state.recvRatchetEpoch + 1 ≤ u64Max ∧
        s' = enterRecvEpoch (s₁.state.recvRatchetEpoch + 1) header
          (installRecvKeys out (retireMetadataKey s₁)) := by
  simp only [applyRecvRatchet, bind_eq_ok, reads_eq_ok, modify_bind_run, modify_run, orError_eq_ok,
    checkedAdd_eq_some, EStateM.Result.ok.injEq, true_and, and_assoc, existsAndEq, exists_and_left,
    Unique.exists_iff, @eq_comm _ s']
  rfl

/-! ### What a receive ratchet does not write -/

/-- The parts of a session that a receive ratchet leaves alone, also when it fails. -/
structure RatchetFrame (s s' : SessionInner) : Prop where
  pendingKyberSharedSecret : s'.pendingKyberSharedSecret = s.pendingKyberSharedSecret
  seenPayloadNonces : s'.seenPayloadNonces = s.seenPayloadNonces
  seenPayloadNonceOrder : s'.seenPayloadNonceOrder = s.seenPayloadNonceOrder
  isInitiator : s'.isInitiator = s.isInitiator
  dhPrivateHandle : s'.dhPrivateHandle = s.dhPrivateHandle
  kyberSecretHandle : s'.kyberSecretHandle = s.kyberSecretHandle
  messagesSinceLastDhRatchet : s'.messagesSinceLastDhRatchet = s.messagesSinceLastDhRatchet

theorem RatchetFrame.refl (s : SessionInner) : RatchetFrame s s :=
  ⟨rfl, rfl, rfl, rfl, rfl, rfl, rfl⟩

theorem RatchetFrame.trans {s₁ s₂ s₃ : SessionInner} (h : RatchetFrame s₁ s₂)
    (h' : RatchetFrame s₂ s₃) : RatchetFrame s₁ s₃ :=
  ⟨h'.1.trans h.1, h'.2.trans h.2, h'.3.trans h.3, h'.4.trans h.4, h'.5.trans h.5,
    h'.6.trans h.6, h'.7.trans h.7⟩

instance : IsPreorder SessionInner RatchetFrame where
  refl := .refl
  trans _ _ _ := .trans

theorem skipPreviousChain_keeps (c : Crypto) (pcl : Option ℕ) :
    Keeps RatchetFrame (skipPreviousChain c pcl) := by
  intro s
  cases pcl with
  | none => exact RatchetFrame.refl s
  | some pcl =>
    cases h : (skipOldChainKeys c pcl).run s with
    | error e s' =>
      obtain rfl := skipOldChainKeys_eq_error h
      rw [skipPreviousChain, h]
      exact RatchetFrame.refl s'
    | ok u s' =>
      rw [skipPreviousChain, h]
      obtain ⟨rc, -, ⟨-, rfl⟩ | ⟨-, -, rfl⟩⟩ := skipOldChainKeys_eq_ok.mp h
      · exact RatchetFrame.refl s'
      · exact ⟨rfl, rfl, rfl, rfl, rfl, rfl, rfl⟩

theorem applyRecvRatchet_keeps (c : Crypto) (envelope : SecureEnvelope) :
    Keeps RatchetFrame (applyRecvRatchet c envelope) := by
  refine .bind (.reads _) fun header => ?_
  refine .bind (skipPreviousChain_keeps c _) fun _ => ?_
  refine .bind (.reads _) fun out => ?_
  refine .bind (.modify fun s => ⟨rfl, rfl, rfl, rfl, rfl, rfl, rfl⟩) fun _ => ?_
  refine .bind (.modify fun s => ⟨rfl, rfl, rfl, rfl, rfl, rfl, rfl⟩) fun _ => ?_
  refine .bind (.reads _) fun epoch => ?_
  exact .modify fun s => ⟨rfl, rfl, rfl, rfl, rfl, rfl, rfl⟩

end AuraProtocol.Session
