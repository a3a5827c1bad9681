import AuraProtocol.Session.State

/-!
# Key derivation, associated data and nonces

The helper functions of `session.rs` and `nonce.rs` that a session's operations
call: one step of a symmetric chain, the associated data that binds an envelope
to its session, epoch and index, and the payload nonces
`prefix ‖ counter ‖ index` with their 16-bit fields.
-/

namespace AuraProtocol.Session

open Fallible List

/-! ## Chain steps -/

/-- The message key of a chain key. -/
def messageKeyOf (c : Crypto) (chainKey : Bytes) : Bytes :=
  c.hkdfExpand (HkdfSha256.extract c [] chainKey) messageInfo messageKeyBytes

/-- The next chain key of a chain key. -/
def nextChainKeyOf (c : Crypto) (chainKey : Bytes) : Bytes :=
  c.hkdfExpand (HkdfSha256.extract c [] chainKey) chainInfo chainKeyBytes

def deriveMessageAndChainKey (c : Crypto) (chainKey : Bytes) :
    Except ProtocolError (Bytes × Bytes) := do
  let messageKey ← HkdfSha256.deriveKeyBytes c chainKey messageKeyBytes [] messageInfo
  let nextChainKey ← HkdfSha256.deriveKeyBytes c chainKey chainKeyBytes [] chainInfo
  .ok (messageKey, nextChainKey)

/-- A chain step cannot fail: both outputs are within the HKDF limit. -/
theorem deriveMessageAndChainKey_eq (c : Crypto) (chainKey : Bytes) :
    deriveMessageAndChainKey c chainKey =
      .ok (messageKeyOf c chainKey, nextChainKeyOf c chainKey) := by
  rw [deriveMessageAndChainKey,
    HkdfSha256.deriveKeyBytes_eq c (by decide : messageKeyBytes ≠ 0) (by decide),
    HkdfSha256.deriveKeyBytes_eq c (by decide : chainKeyBytes ≠ 0) (by decide)]
  rfl

@[simp] theorem length_nextChainKeyOf (c : Crypto) (chainKey : Bytes) :
    (nextChainKeyOf c chainKey).length = chainKeyBytes := c.length_hkdfExpand _ _ _

/-- The chain key `n` steps after `chainKey`. -/
def chainKeyAt (c : Crypto) (chainKey : Bytes) (n : ℕ) : Bytes := (nextChainKeyOf c)^[n] chainKey

@[simp] theorem chainKeyAt_zero (c : Crypto) (chainKey : Bytes) :
    chainKeyAt c chainKey 0 = chainKey := rfl

theorem chainKeyAt_succ (c : Crypto) (chainKey : Bytes) (n : ℕ) :
    chainKeyAt c chainKey (n + 1) = nextChainKeyOf c (chainKeyAt c chainKey n) :=
  Function.iterate_succ_apply' _ _ _

theorem chainKeyAt_succ' (c : Crypto) (chainKey : Bytes) (n : ℕ) :
    chainKeyAt c chainKey (n + 1) = chainKeyAt c (nextChainKeyOf c chainKey) n := rfl

theorem length_chainKeyAt (c : Crypto) {chainKey : Bytes} (h : chainKey.length = chainKeyBytes)
    (n : ℕ) : (chainKeyAt c chainKey n).length = chainKeyBytes := by
  cases n with
  | zero => exact h
  | succ n => rw [chainKeyAt_succ, length_nextChainKeyOf]

/-! ## Associated data -/

/-- `write_previous_chain_length_aad`: a presence byte and the little-endian value. -/
def previousChainLengthAad : Option ℕ → Bytes
  | some value => 1 :: leBytes 8 value
  | none => List.replicate 9 0

/-- The size checks of `build_metadata_aad` and `build_payload_aad`. -/
def checkAadSizes (state : ProtocolState) : Except ProtocolError Unit := do
  require (state.sessionId.length = sessionIdBytes) (.invalidInput "Invalid session id size")
  require (state.identityBindingHash.length = identityBindingHashBytes)
    (.invalidInput "Invalid identity binding hash size")

def buildMetadataAad (state : ProtocolState) (ratchetEpoch : ℕ) (previousChainLength : Option ℕ) :
    Except ProtocolError Bytes := do
  checkAadSizes state
  .ok (state.sessionId ++ state.identityBindingHash ++ leBytes 8 ratchetEpoch ++
    leBytes 4 protocolVersion ++ previousChainLengthAad previousChainLength)

def buildPayloadAad (state : ProtocolState) (ratchetEpoch messageIndex : ℕ)
    (previousChainLength : Option ℕ) : Except ProtocolError Bytes := do
  checkAadSizes state
  .ok (state.sessionId ++ state.identityBindingHash ++ leBytes 8 ratchetEpoch ++
    leBytes 8 messageIndex ++ leBytes 4 protocolVersion ++
    previousChainLengthAad previousChainLength)

/-- The associated data only depends on the session id and the identity binding. -/
theorem buildMetadataAad_congr {s s' : ProtocolState} (hid : s.sessionId = s'.sessionId)
    (hbind : s.identityBindingHash = s'.identityBindingHash) (epoch : ℕ) (pcl : Option ℕ) :
    buildMetadataAad s epoch pcl = buildMetadataAad s' epoch pcl := by
  rw [buildMetadataAad, buildMetadataAad, checkAadSizes, checkAadSizes, hid, hbind]

theorem buildPayloadAad_congr {s s' : ProtocolState} (hid : s.sessionId = s'.sessionId)
    (hbind : s.identityBindingHash = s'.identityBindingHash) (epoch index : ℕ) (pcl : Option ℕ) :
    buildPayloadAad s epoch index pcl = buildPayloadAad s' epoch index pcl := by
  rw [buildPayloadAad, buildPayloadAad, checkAadSizes, checkAadSizes, hid, hbind]

/-- `compute_identity_binding_hash`: both kinds of keys are sorted before hashing. -/
def computeIdentityBindingHash (c : Crypto)
    (localEd25519 localX25519 peerEd25519 peerX25519 : Bytes) : Except ProtocolError Bytes := do
  require (localEd25519.length = ed25519PublicKeyBytes ∧ peerEd25519.length = ed25519PublicKeyBytes)
    (.invalidInput "Invalid Ed25519 identity key sizes for binding")
  require (localX25519.length = x25519PublicKeyBytes ∧ peerX25519.length = x25519PublicKeyBytes)
    (.invalidInput "Invalid X25519 identity key sizes for binding")
  let edKeys := if peerEd25519 < localEd25519 then peerEd25519 ++ localEd25519
    else localEd25519 ++ peerEd25519
  let xKeys := if peerX25519 < localX25519 then peerX25519 ++ localX25519
    else localX25519 ++ peerX25519
  .ok (c.sha256 (identityBindingInfo ++ edKeys ++ xKeys))

/-! ## Payload nonces -/

/-- The limit a nonce generator enforces: zero means the default. -/
def nonceLimit (state : ProtocolState) : ℕ :=
  if state.maxNonceCounter = 0 then AuraProtocol.maxNonceCounter else state.maxNonceCounter

/-- The clamp of `from_state_with_limit` and `create_with_limit`. -/
def clampNonceLimit (limit : ℕ) : ℕ :=
  if limit = 0 ∨ AuraProtocol.maxNonceCounter < limit then AuraProtocol.maxNonceCounter else limit

/-- `load_nonce_generator`: the nonce state, and the limit of its generator. -/
def loadNonceGenerator (state : ProtocolState) : Except ProtocolError (NonceState × ℕ) := do
  let ng ← orError state.nonceGenerator (.invalidInput "Missing nonce generator state")
  require (ng.noncePrefix.length = noncePrefixBytes) (.invalidInput "Invalid nonce prefix size")
  require (ng.counter < AuraProtocol.maxNonceCounter) (.invalidState "Nonce counter exceeds maximum")
  let limit := clampNonceLimit (nonceLimit state)
  require (ng.counter < limit) (.invalidState "Nonce counter exceeds maximum")
  .ok (ng, limit)

/-- The nonce made of a prefix, a counter and a message index. -/
def payloadNonce (noncePrefix : Bytes) (counter index : ℕ) : Bytes :=
  noncePrefix ++ leBytes nonceCounterBytes counter ++ leBytes nonceIndexBytes index

/-- `NonceGenerator::next`: the nonce and the state after it. -/
def nextNonce (ns : NonceState) (limit messageIndex : ℕ) :
    Except ProtocolError (Bytes × NonceState) := do
  require (messageIndex < maxMessageIndex)
    (.invalidInput "Message index exceeds nonce encoding limits")
  require (ns.counter < limit) (.invalidState "Nonce counter overflow - rotate keys")
  require (ns.counter < 2 ^ 16) (.invalidState "Nonce counter does not fit 16-bit encoding")
  require (messageIndex < 2 ^ 16)
    (.invalidInput "Message index does not fit 16-bit nonce encoding")
  .ok (payloadNonce ns.noncePrefix ns.counter messageIndex, { ns with counter := ns.counter + 1 })

def extractNonceIndex (nonce : Bytes) : Except ProtocolError ℕ := do
  require (nonce.length = aesGcmNonceBytes) (.invalidInput "Invalid nonce size")
  .ok (leNat ((nonce.drop (noncePrefixBytes + nonceCounterBytes)).take nonceIndexBytes))

/-- `reset_nonce_generator`, with the prefix drawn by `create_with_limit`. -/
def resetNonceGenerator (state : ProtocolState) (random : Bytes) :
    Except ProtocolError ProtocolState := do
  require (random.length = noncePrefixBytes) (.generic "Failed to generate nonce prefix")
  .ok { state with nonceGenerator := some { noncePrefix := random, counter := 0 } }

theorem length_payloadNonce {noncePrefix : Bytes} (h : noncePrefix.length = noncePrefixBytes)
    (counter index : ℕ) : (payloadNonce noncePrefix counter index).length = aesGcmNonceBytes := by
  rw [payloadNonce, length_append, length_append, length_leBytes, length_leBytes, h]
  rfl

/-- The index field of a payload nonce is the index it was made with. -/
theorem extractNonceIndex_payloadNonce {noncePrefix : Bytes}
    (h : noncePrefix.length = noncePrefixBytes) (counter : ℕ) {index : ℕ} (hi : index < 2 ^ 16) :
    extractNonceIndex (payloadNonce noncePrefix counter index) = .ok index := by
  have hdrop : (payloadNonce noncePrefix counter index).drop
      (noncePrefixBytes + nonceCounterBytes) = leBytes nonceIndexBytes index := by
    rw [payloadNonce]
    refine drop_left' ?_
    rw [length_append, length_leBytes, h]
  rw [extractNonceIndex, except_seq_eq_ok]
  refine ⟨require_eq_ok.mpr (length_payloadNonce h counter index), ?_⟩
  rw [hdrop, take_of_length_le (by rw [length_leBytes]),
    leNat_leBytes nonceIndexBytes index (by simpa [nonceIndexBytes] using hi)]

/-- Payload nonces of different prefixes or of different indices differ. -/
theorem payloadNonce_inj {p p' : Bytes} (hp : p.length = noncePrefixBytes)
    (hp' : p'.length = noncePrefixBytes) {ctr ctr' i i' : ℕ} (hi : i < 2 ^ 16) (hi' : i' < 2 ^ 16)
    (h : payloadNonce p ctr i = payloadNonce p' ctr' i') : p = p' ∧ i = i' := by
  rw [payloadNonce, payloadNonce] at h
  have hlen : (p ++ leBytes nonceCounterBytes ctr).length =
      (p' ++ leBytes nonceCounterBytes ctr').length := by
    rw [length_append, length_append, length_leBytes, length_leBytes, hp, hp']
  obtain ⟨hleft, hright⟩ := append_inj h hlen
  refine ⟨(append_inj hleft (hp.trans hp'.symm)).1, ?_⟩
  exact leBytes_injective (by simpa [nonceIndexBytes] using hi) (by simpa [nonceIndexBytes] using hi')
    hright

theorem loadNonceGenerator_eq_ok {state : ProtocolState} {ns : NonceState} {limit : ℕ}
    (h : loadNonceGenerator state = .ok (ns, limit)) :
    state.nonceGenerator = some ns ∧ ns.noncePrefix.length = noncePrefixBytes := by
  rw [loadNonceGenerator, except_bind_eq_ok] at h
  obtain ⟨ng, hng, h⟩ := h
  rw [except_seq_eq_ok, except_seq_eq_ok, except_seq_eq_ok] at h
  obtain ⟨hlen, -, -, h⟩ := h
  cases h
  exact ⟨orError_eq_ok.mp hng, require_eq_ok.mp hlen⟩

theorem nextNonce_eq_ok {ns ns' : NonceState} {limit index : ℕ} {nonce : Bytes}
    (h : nextNonce ns limit index = .ok (nonce, ns')) :
    index < maxMessageIndex ∧ nonce = payloadNonce ns.noncePrefix ns.counter index ∧
      ns' = { ns with counter := ns.counter + 1 } := by
  rw [nextNonce, except_seq_eq_ok, except_seq_eq_ok, except_seq_eq_ok, except_seq_eq_ok] at h
  obtain ⟨hidx, -, -, -, h⟩ := h
  cases h
  exact ⟨require_eq_ok.mp hidx, rfl, rfl⟩

end AuraProtocol.Session
