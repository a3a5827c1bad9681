import AuraProtocol.Group.KeyPackage

/-!
# The key schedule of an epoch

The security policy of `protocol/group/mod.rs` and `protocol/group/key_schedule.rs`.
All secrets of an epoch come from the previous init secret and the commit secret
through HKDF.  The extraction makes 32 bytes of whatever it is given, so from
there on no expansion can fail (`exists_deriveEpochKeys`).
-/

namespace AuraProtocol.Group

open Fallible HkdfSha256

/-! ## Security policy -/

namespace GroupSecurityPolicy

def shield : GroupSecurityPolicy where
  maxMessagesPerEpoch := shieldMaxMessagesPerEpoch
  maxSkippedKeysPerSender := shieldMaxSkippedKeysPerSender
  blockExternalJoin := true
  enhancedKeySchedule := true
  mandatoryFranking := true

def standard : GroupSecurityPolicy where
  maxMessagesPerEpoch := shieldMaxMessagesPerEpoch
  maxSkippedKeysPerSender := standardMaxSkippedKeysPerSender
  blockExternalJoin := true
  enhancedKeySchedule := true
  mandatoryFranking := true

def policyBytes (wire : Wire) (p : GroupSecurityPolicy) : Bytes := wire.policy.encode p

def fromProtoBytes (wire : Wire) (bytes : Bytes) : Except ProtocolError GroupSecurityPolicy := do
  require (bytes ≠ []) (.invalidInput "Missing group security policy bytes")
  (wire.policy.decode bytes).mapError fun e => .decode s!"GroupSecurityPolicy decode: {e}"

def effectiveMaxMessagesPerEpoch (p : GroupSecurityPolicy) : ℕ :=
  if p.maxMessagesPerEpoch = 0 then maxSenderKeyGeneration else p.maxMessagesPerEpoch

def effectiveMaxSkippedPerSender (p : GroupSecurityPolicy) : ℕ :=
  if p.maxSkippedKeysPerSender = 0 then maxSkippedSenderKeysPerSender
  else p.maxSkippedKeysPerSender

def validate (p : GroupSecurityPolicy) : Except ProtocolError Unit := do
  require (p.enhancedKeySchedule = true) (.invalidInput "enhanced_key_schedule must be enabled")
  let maxMsg := p.effectiveMaxMessagesPerEpoch
  require (shieldMinMessagesPerEpoch ≤ maxMsg) (.invalidInput
    s!"max_messages_per_epoch too low: {maxMsg} (minimum {shieldMinMessagesPerEpoch})")
  require (maxMsg ≤ maxSenderKeyGeneration) (.invalidInput
    s!"max_messages_per_epoch too high: {maxMsg} (maximum {maxSenderKeyGeneration})")
  let maxSkip := p.effectiveMaxSkippedPerSender
  require (shieldMinSkippedPerSender ≤ maxSkip) (.invalidInput
    s!"max_skipped_keys_per_sender too low: {maxSkip} (minimum {shieldMinSkippedPerSender})")
  require (maxSkip ≤ maxSkippedSenderKeysPerSender) (.invalidInput
    s!"max_skipped_keys_per_sender too high: {maxSkip} (maximum {maxSkippedSenderKeysPerSender})")

/-- Both presets pass the check of a policy. -/
theorem validate_presets : validate shield = .ok () ∧ validate standard = .ok () :=
  ⟨rfl, rfl⟩

end GroupSecurityPolicy

/-! ## Framing -/

/-- A byte string after its length, as a little-endian `u32`. -/
def lenPrefixed (bytes : Bytes) : Bytes := leBytes 4 bytes.length ++ bytes

/-! ## Epoch keys -/

structure EpochKeys where
  epochSecret : Bytes
  metadataKey : Bytes
  welcomeKey : Bytes
  confirmationKey : Bytes
  initSecret : Bytes
  deriving DecidableEq, Repr

/-- A pair of key pairs, as `derive_external_keypairs` and `derive_node_keypairs` give it. -/
structure HybridKeyPair (c : Crypto) where
  x25519 : X25519KeyPair c
  kyber : KyberKeyPair c

namespace GroupKeySchedule

variable (c : Crypto)

def deriveSubKey (epochSecret info : Bytes) (len : ℕ) (enhanced : Bool) :
    Except ProtocolError Bytes :=
  if enhanced then do
    let intermediate ← expand c epochSecret (info ++ groupEnhancedKdfPass1) len
    expand c intermediate (info ++ groupEnhancedKdfPass2) len
  else expand c epochSecret info len

def deriveSubKeysFromEpochSecretEx (epochSecret : Bytes) (enhanced : Bool) :
    Except ProtocolError EpochKeys := do
  let metadataKey ← deriveSubKey c epochSecret groupMetadataKeyInfo metadataKeyBytes enhanced
  let welcomeKey ← deriveSubKey c epochSecret groupWelcomeKeyInfo welcomeKeyBytes enhanced
  let confirmationKey ←
    deriveSubKey c epochSecret groupConfirmKeyInfo confirmationKeyBytes enhanced
  let initSecret ← deriveSubKey c epochSecret groupInitSecretInfo initSecretBytes enhanced
  .ok { epochSecret, metadataKey, welcomeKey, confirmationKey, initSecret }

def deriveJoinerSecret (prevInitSecret commitSecret : Bytes) : Bytes :=
  extract c prevInitSecret commitSecret

def deriveEpochKeys (prevInitSecret commitSecret groupContextHash : Bytes) (enhanced : Bool) :
    Except ProtocolError EpochKeys := do
  let joinerSecret := extract c prevInitSecret commitSecret
  let epochSecret ←
    expand c joinerSecret (groupEpochSecretInfo ++ groupContextHash) epochSecretBytes
  deriveSubKeysFromEpochSecretEx c epochSecret enhanced

def deriveSenderKeyBase (epochSecret : Bytes) (leafIndex : ℕ) (groupContextHash : Bytes) :
    Except ProtocolError Bytes :=
  expand c epochSecret (groupSenderKeyInfo ++ leBytes 4 leafIndex ++ groupContextHash)
    senderKeyBaseBytes

def computeGroupContextHash (groupId : Bytes) (epoch : ℕ) (treeHash policyBytes : Bytes) : Bytes :=
  c.sha256 (lenPrefixed groupId ++ leBytes 8 epoch ++ lenPrefixed treeHash ++
    lenPrefixed policyBytes)

def deriveExternalKeypairs (initSecret : Bytes) : Except ProtocolError (HybridKeyPair c) := do
  let x25519Seed ←
    expand c initSecret groupExternalPubX25519Info x25519PrivateKeyBytes
  let x25519 ← X25519KeyPair.ofSeed c x25519Seed
    (.groupProtocol "External X25519 seed has wrong length")
  let kyberSeed ← expand c initSecret groupExternalPubKyberInfo kyberSeedKeyBytes
  let kyber ← KyberKeyPair.generateFromSeed c kyberSeed
  .ok { x25519, kyber }

def injectPsk (epochSecret psk pskNonce : Bytes) : Except ProtocolError Bytes := do
  let pskInput := extract c pskNonce psk
  let extracted := extract c epochSecret pskInput
  let intermediate ← expand c extracted groupPskExtractInfo epochSecretBytes
  expand c intermediate groupPskSecretInfo epochSecretBytes

/-- `compute_confirmation_mac`: HMAC takes a key of any length. -/
def computeConfirmationMac (confirmationKey groupContextHash : Bytes) : Bytes :=
  c.hmacSha256 confirmationKey groupContextHash

/-! ### Totality -/

variable {c}

/-- A derivation of 32 bytes from a key of 32 bytes cannot fail. -/
theorem expand32 {prk : Bytes} (h : prk.length = 32) (info : Bytes) :
    expand c prk info 32 = .ok (c.hkdfExpand prk info 32) :=
  expand_eq c (by decide) (by decide) h.ge info

theorem exists_deriveSubKey {epochSecret : Bytes} (h : epochSecret.length = 32) (info : Bytes)
    (enhanced : Bool) :
    ∃ k, deriveSubKey c epochSecret info 32 enhanced = .ok k ∧ k.length = 32 := by
  cases enhanced with
  | false => exact ⟨_, expand32 h info, c.length_hkdfExpand _ _ _⟩
  | true =>
    refine ⟨_, except_bind_eq_ok.mpr ⟨_, expand32 h _, expand32 (c.length_hkdfExpand _ _ _) _⟩, ?_⟩
    exact c.length_hkdfExpand _ _ _

/-- The keys of an epoch whose secrets all have 32 bytes. -/
structure FullSize (k : EpochKeys) : Prop where
  epochSecret : k.epochSecret.length = 32
  metadataKey : k.metadataKey.length = 32
  initSecret : k.initSecret.length = 32

theorem exists_deriveSubKeys {epochSecret : Bytes} (h : epochSecret.length = 32)
    (enhanced : Bool) :
    ∃ k, deriveSubKeysFromEpochSecretEx c epochSecret enhanced = .ok k ∧ FullSize k := by
  obtain ⟨metadataKey, hmetadata, hlenM⟩ := exists_deriveSubKey (c := c) h groupMetadataKeyInfo
    enhanced
  obtain ⟨welcomeKey, hwelcome, -⟩ := exists_deriveSubKey (c := c) h groupWelcomeKeyInfo enhanced
  obtain ⟨confirmationKey, hconfirm, -⟩ := exists_deriveSubKey (c := c) h groupConfirmKeyInfo
    enhanced
  obtain ⟨initSecret, hinit, hlenI⟩ := exists_deriveSubKey (c := c) h groupInitSecretInfo enhanced
  refine ⟨⟨epochSecret, metadataKey, welcomeKey, confirmationKey, initSecret⟩, ?_, h, hlenM, hlenI⟩
  simp only [deriveSubKeysFromEpochSecretEx, except_bind_eq_ok]
  exact ⟨_, hmetadata, _, hwelcome, _, hconfirm, _, hinit, rfl⟩

/-- The keys of the next epoch can always be derived. -/
theorem exists_deriveEpochKeys (prevInitSecret commitSecret groupContextHash : Bytes)
    (enhanced : Bool) :
    ∃ k, deriveEpochKeys c prevInitSecret commitSecret groupContextHash enhanced = .ok k ∧
      FullSize k := by
  obtain ⟨k, hk, hfull⟩ := exists_deriveSubKeys (c := c)
    (c.length_hkdfExpand (extract c prevInitSecret commitSecret)
      (groupEpochSecretInfo ++ groupContextHash) 32) enhanced
  refine ⟨k, ?_, hfull⟩
  simp only [deriveEpochKeys, except_bind_eq_ok]
  exact ⟨_, expand32 (length_extract c _ _) _, hk⟩

/-- External key pairs can be derived from every init secret of full size. -/
theorem exists_deriveExternalKeypairs {initSecret : Bytes} (h : initSecret.length = 32) :
    ∃ k, deriveExternalKeypairs c initSecret = .ok k := by
  have hseed : (c.hkdfExpand initSecret groupExternalPubX25519Info 32).length =
      x25519PrivateKeyBytes := c.length_hkdfExpand _ _ _
  have hkyber : (c.hkdfExpand initSecret groupExternalPubKyberInfo 32).length =
      kyberSeedKeyBytes := c.length_hkdfExpand _ _ _
  have hgen : KyberInterop.generateKeypairFromSeed c
      (c.hkdfExpand initSecret groupExternalPubKyberInfo 32) = .ok _ := if_neg hkyber.not_lt
  simp only [deriveExternalKeypairs, except_bind_eq_ok]
  exact ⟨_, _, expand32 h _, _, dif_pos hseed, _, expand32 h _, _,
    except_bind_eq_ok.mpr ⟨_, hgen, rfl⟩, rfl⟩

/-- A pre-shared key can be mixed into every epoch secret. -/
theorem exists_injectPsk (epochSecret psk pskNonce : Bytes) :
    ∃ k, injectPsk c epochSecret psk pskNonce = .ok k ∧ k.length = 32 := by
  refine ⟨_, ?_, c.length_hkdfExpand (c.hkdfExpand (extract c epochSecret
    (extract c pskNonce psk)) groupPskExtractInfo 32) groupPskSecretInfo 32⟩
  simp only [injectPsk, except_bind_eq_ok]
  exact ⟨_, expand32 (length_extract c _ _) _, expand32 (c.length_hkdfExpand _ _ _) _⟩

end GroupKeySchedule

end AuraProtocol.Group
