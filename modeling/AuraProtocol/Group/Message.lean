import AuraProtocol.Crypto.Padding
import AuraProtocol.Group.Session

/-!
# Group messages

`encrypt_internal`, the encrypt functions around it and `decrypt` of
`protocol/group/mod.rs`.  A message has two layers: the sender data (leaf and
generation) under the epoch's metadata key, and the padded plaintext under the
message key of that generation.

`decrypt` works in three parts: `openHeader` reads the state only, then the
message key is taken from the sender store, and `openPayload` reads the plaintext
with it.  What fails after the key was taken does not put it back.
-/

namespace AuraProtocol.Group

open Fallible

variable {now : Option ℕ}

/-! ## Content types -/

inductive ContentType where
  | normal
  | sealed
  | disappearing
  | sealedDisappearing
  | edit
  | delete
  | reaction
  | readReceipt
  | typing
  deriving DecidableEq, Repr

namespace ContentType

def toU32 : ContentType → ℕ
  | normal => 0
  | sealed => 1
  | disappearing => 2
  | sealedDisappearing => 3
  | edit => 4
  | delete => 5
  | reaction => 6
  | readReceipt => 7
  | typing => 8

def tryFromWire (v : ℤ) : Except ProtocolError ContentType :=
  match v with
  | 0 => .ok normal
  | 1 => .ok sealed
  | 2 => .ok disappearing
  | 3 => .ok sealedDisappearing
  | 4 => .ok edit
  | 5 => .ok delete
  | 6 => .ok reaction
  | 7 => .ok readReceipt
  | 8 => .ok typing
  | v => .error (.invalidInput s!"Unsupported group content_type {v}")

def isSealed : ContentType → Bool
  | sealed | sealedDisappearing => true
  | _ => false

def isDisappearing : ContentType → Bool
  | disappearing | sealedDisappearing => true
  | _ => false

/-- `is_edit() || is_delete()`. -/
def isEditOrDelete : ContentType → Bool
  | edit | delete => true
  | _ => false

def validateTtl (t : ContentType) (ttlSeconds : ℕ) : Except ProtocolError Unit :=
  if t.isDisappearing then
    require (ttlSeconds ≠ 0 ∧ ttlSeconds ≤ maxTtlSeconds) (.invalidInput
      s!"Disappearing message TTL must be 1..{maxTtlSeconds}, got {ttlSeconds}")
  else
    require (ttlSeconds = 0) (.invalidInput
      s!"Non-disappearing message TTL must be 0, got {ttlSeconds}")

theorem tryFromWire_toU32 (t : ContentType) : tryFromWire t.toU32 = .ok t := by
  cases t <;> rfl

end ContentType

structure MessagePolicy where
  contentType : ContentType := .normal
  ttlSeconds : ℕ := 0
  frankable : Bool := false
  referencedMessageId : Bytes := []
  mentions : List GroupMention := []
  replyContext : Option GroupReplyContext := none
  deriving DecidableEq, Repr

structure SealedPayload where
  hint : Bytes
  encryptedContent : Bytes
  nonce : Bytes
  sealKey : Bytes
  deriving DecidableEq, Repr

structure FrankingData where
  frankingTag : Bytes
  frankingKey : Bytes
  content : Bytes
  sealedContent : Bytes
  contentType : ℕ
  sealedNonce : Bytes
  sealKey : Bytes
  deriving DecidableEq, Repr

structure GroupDecryptResult where
  plaintext : Bytes
  senderLeafIndex : ℕ
  generation : UInt32
  contentType : ContentType
  sealedPayload : Option SealedPayload
  frankingData : Option FrankingData
  ttlSeconds : ℕ
  sentTimestamp : ℕ
  prevMessageHash : Bytes
  messageId : Bytes
  referencedMessageId : Bytes
  mentions : List GroupMention
  replyContext : Option GroupReplyContext
  deriving DecidableEq, Repr

variable {result : GroupDecryptResult}

/-! ## Checks of the annotations -/

def u32Max : ℕ := 2 ^ 32 - 1

def validateReaction (reaction : GroupReaction) : Except ProtocolError Unit := do
  require (reaction.messageId.length = messageIdBytes)
    (.invalidInput "Reaction message_id must be 32 bytes")
  require (reaction.emoji ≠ "") (.invalidInput "Reaction emoji must not be empty")
  require (reaction.emoji.length ≤ maxReactionEmojiChars)
    (.invalidInput s!"Reaction emoji exceeds {maxReactionEmojiChars} chars")

def validateReadReceipt (receipt : GroupReadReceipt) : Except ProtocolError Unit := do
  require (receipt.messageIds.length ≤ maxReadReceiptMessageIds)
    (.invalidInput s!"Read receipt exceeds {maxReadReceiptMessageIds} message_ids")
  receipt.messageIds.forM fun id => require (id.length = messageIdBytes)
    (.invalidInput "Read receipt message_id must be 32 bytes")

def validateReplyContext (ctx : GroupReplyContext) : Except ProtocolError Unit := do
  require (ctx.replyToMessageId.length = messageIdBytes)
    (.invalidInput "reply_to_message_id must be 32 bytes")
  require (∀ root ∈ ctx.threadRootId, root.length = messageIdBytes)
    (.invalidInput "thread_root_id must be 32 bytes")
  match ctx.depth with
  | none => return
  | some depth =>
    require (depth ≤ maxThreadDepth)
      (.invalidInput s!"Thread depth {depth} exceeds maximum {maxThreadDepth}")
    require (¬(0 < depth ∧ ctx.threadRootId = none)) (.invalidInput
      "thread_root_id is required when thread depth is greater than zero")

/-- The first loop of `validate_mentions_for_content`: the span of a mention. -/
def mentionSpan (contentLen : ℕ) (mention : GroupMention) : Except ProtocolError (ℕ × ℕ) := do
  require (mention.length ≠ 0) (.invalidInput "Mention length must be greater than zero")
  require (mention.offset + mention.length ≤ u32Max) (.invalidInput "Mention offset overflow")
  require (mention.offset + mention.length ≤ contentLen)
    (.invalidInput "Mention range exceeds message content length")
  return (mention.offset, mention.offset + mention.length)

/-- The second loop of `validate_mentions_for_content`, over the sorted spans. -/
def checkOverlap : List (ℕ × ℕ) → Except ProtocolError Unit
  | a :: b :: rest => do
    require (a.2 ≤ b.1) (.invalidInput "Mention ranges must not overlap")
    checkOverlap (b :: rest)
  | _ => .ok ()

/-- The order of `sort_unstable` on spans. -/
def spanLe (a b : ℕ × ℕ) : Bool := a.1 < b.1 || (a.1 == b.1 && a.2 ≤ b.2)

/-- `validate_mentions_for_content`, with the check of `validate_mentions`. -/
def validateMentionsForContent (mentions : List GroupMention) (content : Bytes) :
    Except ProtocolError Unit := do
  require (mentions.length ≤ maxMentionsPerMessage)
    (.invalidInput s!"Mentions exceed {maxMentionsPerMessage} per message")
  require (content.length ≤ u32Max) (.invalidInput "Message content too large")
  let spans ← mapEach (mentionSpan content.length) mentions
  checkOverlap (spans.1.mergeSort spanLe)

def validateAnnotationsAgainstTree (t : RatchetTree) (content : Bytes)
    (mentions : List GroupMention) (replyContext : Option GroupReplyContext) :
    Except ProtocolError Unit := do
  validateMentionsForContent mentions content
  mentions.forM fun mention => require ((t.getLeafData mention.leafIndex).isSome = true)
    (.invalidInput "Mention leaf_index must reference an active group member")
  match replyContext with
  | some ctx => validateReplyContext ctx
  | none => return

/-! ## Bytes -/

namespace GroupSession

variable (c : Crypto) (wire : Wire)

def buildSenderAad (groupId : Bytes) (epoch : ℕ) : Except ProtocolError Bytes := do
  require (groupId.length = groupIdBytes) (.invalidInput
    s!"group_id length must be exactly {groupIdBytes} bytes, got {groupId.length}")
  return groupId ++ leBytes 8 epoch

def buildPayloadAad (groupId : Bytes) (epoch leafIdx generation : ℕ) :
    Except ProtocolError Bytes := do
  require (groupId.length = groupIdBytes) (.invalidInput
    s!"group_id length must be exactly {groupIdBytes} bytes, got {groupId.length}")
  return groupId ++ leBytes 8 epoch ++ leBytes 4 leafIdx ++ leBytes 4 generation ++
    leBytes 4 groupProtocolVersion

def buildFrankingInput (contentType : ℕ) (content sealedContent sealedNonce sealKey : Bytes) :
    Bytes :=
  groupFrankingTagInfo ++ leBytes 4 groupProtocolVersion ++ leBytes 4 contentType ++
    lenPrefixed content ++ lenPrefixed sealedContent ++ lenPrefixed sealedNonce ++
    lenPrefixed sealKey

def buildAppSignatureInput (groupId : Bytes) (epoch : ℕ) (appMsg : GroupApplicationMessage) :
    Bytes :=
  groupMessageSignatureInfo ++ leBytes 4 groupProtocolVersion ++ leBytes 8 epoch ++
    lenPrefixed groupId ++ lenPrefixed appMsg.encryptedSenderData ++
    lenPrefixed appMsg.senderDataNonce ++ lenPrefixed appMsg.encryptedPayload ++
    lenPrefixed appMsg.payloadNonce ++ lenPrefixed appMsg.frankingTag

def computeMessageId (groupId : Bytes) (epoch senderLeaf generation : ℕ) : Bytes :=
  c.sha256 (groupMsgIdInfo ++ groupId ++ leBytes 8 epoch ++ leBytes 4 senderLeaf ++
    leBytes 4 generation)

def ed25519VerifyGroupMessage (publicKey signature message : Bytes) : Except ProtocolError Unit :=
  ed25519VerifyGroupMessageWithContext c publicKey signature message
    "Group sender signature verification failed"

/-! ## Encrypting -/

/-- The randomness of a message. -/
structure MessageEntropy where
  sealedNonce : { b : Bytes // b.length = aesGcmNonceBytes }
  frankingKey : { b : Bytes // b.length = frankingKeyBytes }
  payloadNonce : { b : Bytes // b.length = aesGcmNonceBytes }
  reuseGuard : { b : Bytes // b.length = reuseGuardBytes }
  senderDataNonce : { b : Bytes // b.length = aesGcmNonceBytes }

/-- The checks of a message policy that need no state. -/
def checkMessagePolicy (policy : MessagePolicy) : Except ProtocolError Unit := do
  policy.contentType.validateTtl policy.ttlSeconds
  if policy.contentType.isEditOrDelete then
    require (policy.referencedMessageId.length = messageIdBytes)
      (.invalidInput "Edit/Delete requires a 32-byte referenced_message_id")
  else
    require (policy.referencedMessageId = [])
      (.invalidInput "referenced_message_id must be empty for non-Edit/Delete messages")

/-- The policy a message is sent under: the group may demand franking. -/
def effectivePolicy (group : GroupSecurityPolicy) (policy : MessagePolicy) : MessagePolicy :=
  if group.mandatoryFranking && !policy.frankable then { policy with frankable := true }
  else policy

def computeRotationThreshold (maxMessages percent : ℕ) : Except ProtocolError ℕ := do
  require (percent ≠ 0 ∧ percent ≤ 100)
    (.invalidInput "Rotation threshold percent must be in 1..=100")
  let threshold := (maxMessages * percent + 99) / 100
  require (threshold ≤ u32Max) (.invalidState "Rotation threshold overflow")
  return threshold

/-- The seal key of a message key. -/
def sealKeyOf (messageKey : Bytes) : Except ProtocolError Bytes :=
  HkdfSha256.expand c messageKey groupSealKeyInfo sealKeyBytes

/-- The sealed part of `build_group_plaintext`: the seal key, the ciphertext and its nonce. -/
def sealContent (contentType : ContentType) (messageKey : Bytes) (actualPlaintext : Option Bytes)
    (nonce : Bytes) : Except ProtocolError (Bytes × Bytes × Bytes) :=
  if contentType.isSealed then do
    let realPt ← orError actualPlaintext
      (.invalidInput "Sealed message requires actual_plaintext")
    let sealKey ← sealKeyOf c messageKey
    let sealedCt ← AesGcm.encrypt c sealKey nonce realPt sealedAadSuffix
    return (sealKey, sealedCt, nonce)
  else return ([], [], [])

/-- The franking tag over a message. -/
def frankingMac (frankingKey : Bytes) (contentType : ContentType)
    (content sealedContent sealedNonce sealKey : Bytes) : Bytes :=
  c.hmacSha256 frankingKey
    (buildFrankingInput contentType.toU32 content sealedContent sealedNonce sealKey)

def buildGroupPlaintext (content : Bytes) (policy : MessagePolicy) (messageKey : Bytes)
    (actualPlaintext : Option Bytes) (now : Option ℕ) (entropy : MessageEntropy) :
    Except ProtocolError (GroupPlaintext × Bytes) := do
  let now ← nowUnixSecs now
  let (sealKey, sealedContent, sealedNonce) ← sealContent c policy.contentType messageKey
    actualPlaintext entropy.sealedNonce.1
  let gpt : GroupPlaintext :=
    { content := content
      policy := some ⟨policy.contentType.toU32, policy.ttlSeconds, now⟩
      frankingKey := if policy.frankable then entropy.frankingKey.1 else []
      sealedContent := sealedContent
      sealedNonce := sealedNonce
      prevMessageHash := []
      referencedMessageId := policy.referencedMessageId
      mentions := policy.mentions
      replyContext := policy.replyContext }
  let frankingTag :=
    if policy.frankable then
      frankingMac c entropy.frankingKey.1 policy.contentType content sealedContent sealedNonce
        sealKey
    else []
  return (gpt, frankingTag)

/-- The nonce of the sender data: the first bytes are masked with the reuse guard. -/
def guardNonce (nonce reuseGuard : Bytes) : Bytes :=
  (nonce.take reuseGuardBytes).zipWith (· ^^^ ·) reuseGuard ++ nonce.drop reuseGuardBytes

/-- The check of the message limit in `encrypt_internal`. -/
def checkEpochLimit (s : GroupSession) : Except ProtocolError Unit :=
  match s.senderStore.getChain s.myLeafIdx with
  | some chain => require (chain.generation < s.securityPolicy.effectiveMaxMessagesPerEpoch)
      (.groupProtocol "Epoch rotation required: message limit reached by security policy")
  | none => .ok ()

/-- The last part of `encrypt_internal`: the sender data and the signature around an encrypted
payload. -/
def sealMessage (s : GroupSession) (generation : ℕ) (encryptedPayload frankingTag : Bytes)
    (entropy : MessageEntropy) : Except ProtocolError Bytes := do
  let senderData : GroupSenderData :=
    ⟨s.myLeafIdx, UInt32.ofNat generation, entropy.reuseGuard.1⟩
  let senderDataNonce := guardNonce entropy.senderDataNonce.1 entropy.reuseGuard.1
  let senderAad ← buildSenderAad s.groupId s.epoch
  let encryptedSenderData ← AesGcm.encrypt c s.epochKeys.metadataKey senderDataNonce
    (wire.senderData.encode senderData) senderAad
  let appMsg : GroupApplicationMessage :=
    { encryptedSenderData := encryptedSenderData
      senderDataNonce := senderDataNonce
      encryptedPayload := encryptedPayload
      payloadNonce := entropy.payloadNonce.1
      frankingTag := frankingTag
      senderSignature := [] }
  let signature ← ed25519SignGroupMessage c s.myEd25519Secret.1
    (buildAppSignatureInput s.groupId s.epoch appMsg)
  return wire.message.encode
    { version := groupProtocolVersion
      groupId := s.groupId
      epoch := s.epoch
      content := some (.application { appMsg with senderSignature := signature }) }

/-- Runs an operation on the session's sender store. -/
def onStore {α : Type} (x : StoreM α) : SessionM α :=
  zoom (·.senderStore) (fun s senderStore => { s with senderStore }) x

def encryptInternal (content : Bytes) (policy : MessagePolicy) (actualPlaintext : Option Bytes)
    (now : Option ℕ) (entropy : MessageEntropy) : SessionM Bytes := do
  reads (ensureNoPendingReinit "encrypt")
  lift (checkMessagePolicy policy)
  let s ← get
  let policy := effectivePolicy s.securityPolicy policy
  lift (validateAnnotationsAgainstTree s.tree content policy.mentions policy.replyContext)
  lift (checkEpochLimit s)
  let (generation, messageKey) ← onStore (SenderKeyStore.nextOwnMessageKey c s.myLeafIdx)
  let _ ← lift (computeRotationThreshold s.securityPolicy.effectiveMaxMessagesPerEpoch
    senderKeyExhaustionWarningPercent)
  let (gpt, frankingTag) ← lift (buildGroupPlaintext c content policy messageKey actualPlaintext
    now entropy)
  let padded := MessagePadding.pad
    (wire.plaintext.encode { gpt with prevMessageHash := s.lastSentMessageHash })
  let aad ← lift (buildPayloadAad s.groupId s.epoch s.myLeafIdx generation)
  let encryptedPayload ← lift (AesGcm.encrypt c messageKey entropy.payloadNonce.1 padded aad)
  modify fun s =>
    { s with lastSentMessageHash := c.sha256 (encryptedPayload ++ entropy.payloadNonce.1) }
  lift (sealMessage c wire s generation encryptedPayload frankingTag entropy)

def encrypt (plaintext : Bytes) (now : Option ℕ) (entropy : MessageEntropy) : SessionM Bytes :=
  encryptInternal c wire plaintext {} none now entropy

def encryptSealed (plaintext hint : Bytes) (now : Option ℕ) (entropy : MessageEntropy) :
    SessionM Bytes :=
  encryptInternal c wire hint { contentType := .sealed } (some plaintext) now entropy

/-- The check of the lifetime in the two functions for disappearing messages. -/
def checkTtl (ttlSeconds : ℕ) : Except ProtocolError Unit :=
  require (ttlSeconds ≠ 0 ∧ ttlSeconds ≤ maxTtlSeconds)
    (.invalidInput s!"TTL must be 1..{maxTtlSeconds}, got {ttlSeconds}")

def encryptDisappearing (plaintext : Bytes) (ttlSeconds : ℕ) (now : Option ℕ)
    (entropy : MessageEntropy) : SessionM Bytes := do
  lift (checkTtl ttlSeconds)
  encryptInternal c wire plaintext { contentType := .disappearing, ttlSeconds := ttlSeconds } none
    now entropy

def encryptSealedDisappearing (plaintext hint : Bytes) (ttlSeconds : ℕ) (now : Option ℕ)
    (entropy : MessageEntropy) : SessionM Bytes := do
  lift (checkTtl ttlSeconds)
  encryptInternal c wire hint { contentType := .sealedDisappearing, ttlSeconds := ttlSeconds }
    (some plaintext) now entropy

def encryptFrankable (plaintext : Bytes) (now : Option ℕ) (entropy : MessageEntropy) :
    SessionM Bytes :=
  encryptInternal c wire plaintext { frankable := true } none now entropy

def encryptWithPolicy (plaintext : Bytes) (policy : MessagePolicy) (now : Option ℕ)
    (entropy : MessageEntropy) : SessionM Bytes :=
  if policy.contentType.isSealed then encryptInternal c wire [] policy (some plaintext) now entropy
  else encryptInternal c wire plaintext policy none now entropy

def encryptEdit (newContent targetMessageId : Bytes) (now : Option ℕ) (entropy : MessageEntropy) :
    SessionM Bytes :=
  encryptInternal c wire newContent
    { contentType := .edit, referencedMessageId := targetMessageId } none now entropy

def encryptDelete (targetMessageId : Bytes) (now : Option ℕ) (entropy : MessageEntropy) :
    SessionM Bytes :=
  encryptInternal c wire [] { contentType := .delete, referencedMessageId := targetMessageId } none
    now entropy

def encryptReaction (messageId : Bytes) (emoji : String) (remove : Bool) (now : Option ℕ)
    (entropy : MessageEntropy) : SessionM Bytes := do
  lift (validateReaction ⟨messageId, emoji, remove⟩)
  encryptWithPolicy c wire (wire.reaction.encode ⟨messageId, emoji, remove⟩)
    { contentType := .reaction } now entropy

def encryptReadReceipt (messageIds : List Bytes) (timestamp : ℕ) (now : Option ℕ)
    (entropy : MessageEntropy) : SessionM Bytes := do
  lift (validateReadReceipt ⟨messageIds, timestamp⟩)
  encryptWithPolicy c wire (wire.readReceipt.encode ⟨messageIds, timestamp⟩)
    { contentType := .readReceipt } now entropy

def encryptTyping (isTyping : Bool) (now : Option ℕ) (entropy : MessageEntropy) : SessionM Bytes :=
  encryptWithPolicy c wire (wire.typingIndicator.encode ⟨isTyping⟩) { contentType := .typing } now
    entropy

def shouldRotateEpochWithThreshold (percent : ℕ) (s : GroupSession) :
    Except ProtocolError Bool := do
  let policyMax := s.securityPolicy.effectiveMaxMessagesPerEpoch
  let threshold ← computeRotationThreshold policyMax percent
  let chain ← orError (s.senderStore.getChain s.myLeafIdx)
    (.invalidState "Missing local sender key chain")
  return decide (policyMax - chain.generation ≤ threshold)

def rotateEpochIfNeeded (entropy : PathEntropy) : SessionM (Option Bytes) := do
  let rotate ← reads (shouldRotateEpochWithThreshold senderKeyExhaustionWarningPercent)
  if rotate then some <$> update c wire entropy else return none

def encryptWithAutoRotate (plaintext : Bytes) (now : Option ℕ) (path : PathEntropy)
    (entropy : MessageEntropy) : SessionM (Option Bytes × Bytes) := do
  let rotationCommit ← rotateEpochIfNeeded c wire path
  let ciphertext ← encrypt c wire plaintext now entropy
  return (rotationCommit, ciphertext)

/-! ## Decrypting -/

def validateSealedPayloadFields (contentType : ContentType) (sealedContent sealedNonce : Bytes) :
    Except ProtocolError Unit :=
  if contentType.isSealed then do
    require (aesGcmTagBytes ≤ sealedContent.length) (.invalidInput
      ("Sealed message encrypted content must contain at least the " ++
        s!"{aesGcmTagBytes}-byte authentication tag"))
    require (sealedNonce.length = aesGcmNonceBytes) (.invalidInput
      s!"Sealed message nonce must be {aesGcmNonceBytes} bytes, got {sealedNonce.length}")
  else return

/-- The check of the clock for disappearing messages in `parse_group_plaintext`. -/
def checkExpiry (contentType : ContentType) (ttlSeconds sentTimestamp : ℕ) (now : Option ℕ) :
    Except ProtocolError Unit :=
  if contentType.isDisappearing then do
    let now ← nowUnixSecs now
    require (sentTimestamp ≤ saturatingAdd now maxFutureTimestampSkewSecs) (.invalidInput
      s!"sent_timestamp {sentTimestamp} is too far in the future (now {now})")
    let expiry := saturatingAdd sentTimestamp ttlSeconds
    require (now ≤ expiry) (.messageExpired
      s!"TTL {ttlSeconds}s expired (sent {sentTimestamp}, now {now})")
  else return

/-- The franking part of `parse_group_plaintext`. -/
def checkFranking (contentType : ContentType) (gpt : GroupPlaintext)
    (sealKey frankingTagWire : Bytes) (mandatoryFranking : Bool) :
    Except ProtocolError (Option FrankingData) := do
  require (¬(mandatoryFranking = true ∧ gpt.frankingKey = []))
    (.frankingFailed "Group security policy requires franking on every message")
  require (¬(gpt.frankingKey ≠ [] ∧ frankingTagWire = []))
    (.frankingFailed "Message contains franking_key but franking_tag is missing on wire")
  if gpt.frankingKey = [] then return none
  else
    let sealedSealKey := if contentType.isSealed then sealKey else []
    require (frankingMac c gpt.frankingKey contentType gpt.content gpt.sealedContent
        gpt.sealedNonce sealedSealKey = frankingTagWire)
      (.frankingFailed "Franking tag mismatch on decrypt")
    return some
      { frankingTag := frankingTagWire
        frankingKey := gpt.frankingKey
        content := gpt.content
        sealedContent := gpt.sealedContent
        contentType := contentType.toU32
        sealedNonce := gpt.sealedNonce
        sealKey := sealedSealKey }

/-- What `parse_group_plaintext` returns. -/
structure ParsedPlaintext where
  contentType : ContentType
  sealedPayload : Option SealedPayload
  frankingData : Option FrankingData
  ttlSeconds : ℕ
  sentTimestamp : ℕ

def parseGroupPlaintext (gpt : GroupPlaintext) (sealKey frankingTagWire : Bytes)
    (mandatoryFranking : Bool) (now : Option ℕ) : Except ProtocolError ParsedPlaintext := do
  let contentType ← ContentType.tryFromWire (gpt.policy.elim 0 (·.contentType))
  let ttlSeconds := gpt.policy.elim 0 (·.ttlSeconds)
  let sentTimestamp := gpt.policy.elim 0 (·.sentTimestamp)
  validateSealedPayloadFields contentType gpt.sealedContent gpt.sealedNonce
  contentType.validateTtl ttlSeconds
  checkExpiry contentType ttlSeconds sentTimestamp now
  let sealedPayload :=
    if contentType.isSealed ∧ gpt.sealedContent ≠ [] then
      some ⟨gpt.content, gpt.sealedContent, gpt.sealedNonce, sealKey⟩
    else none
  let frankingData ← checkFranking c contentType gpt sealKey frankingTagWire mandatoryFranking
  require (¬(contentType.isEditOrDelete = true ∧
      gpt.referencedMessageId.length ≠ messageIdBytes))
    (.invalidInput "Edit/Delete message missing valid referenced_message_id")
  return { contentType, sealedPayload, frankingData, ttlSeconds, sentTimestamp }

/-- The first part of `decrypt`: the application message and its sender data.  It only reads the
state. -/
def openHeader (s : GroupSession) (messageBytes : Bytes) :
    Except ProtocolError (GroupApplicationMessage × GroupSenderData) := do
  require (messageBytes.length ≤ maxGroupMessageSize) (.invalidInput
    s!"Group message too large: {messageBytes.length} bytes (max {maxGroupMessageSize})")
  let groupMsg ← (wire.message.decode messageBytes).mapError fun e =>
    .decode s!"GroupMessage decode: {e}"
  ensureNoPendingReinit "decrypt" s
  require (groupMsg.groupId = s.groupId) (.groupProtocol "Group ID mismatch")
  require (groupMsg.epoch = s.epoch) (.groupProtocol
    s!"Epoch mismatch: expected {s.epoch}, got {groupMsg.epoch}")
  match groupMsg.content with
  | some (.application appMsg) =>
    let senderAad ← buildSenderAad s.groupId s.epoch
    let senderDataBytes ← AesGcm.decrypt c s.epochKeys.metadataKey appMsg.senderDataNonce
      appMsg.encryptedSenderData senderAad
    let senderData ← (wire.senderData.decode senderDataBytes).mapError fun e =>
      .decode s!"SenderData decode: {e}"
    require (senderData.senderLeafIndex ≠ s.myLeafIdx)
      (.groupProtocol "Cannot decrypt own group message")
    let senderLeaf ← orError (s.tree.getLeafData senderData.senderLeafIndex) (.groupProtocol
      s!"Unknown sender leaf index {senderData.senderLeafIndex}")
    ed25519VerifyGroupMessage c senderLeaf.identityEd25519Public appMsg.senderSignature
      (buildAppSignatureInput s.groupId s.epoch { appMsg with senderSignature := [] })
    return (appMsg, senderData)
  | _ => throw (.groupProtocol "Expected application message")

/-- The last part of `decrypt`: the plaintext under the message key.  It only reads the state. -/
def openPayload (s : GroupSession) (appMsg : GroupApplicationMessage)
    (senderData : GroupSenderData) (messageKey : Bytes) (now : Option ℕ) :
    Except ProtocolError GroupDecryptResult := do
  let aad ← buildPayloadAad s.groupId s.epoch senderData.senderLeafIndex
    senderData.generation.toNat
  let paddedPlaintext ← AesGcm.decrypt c messageKey appMsg.payloadNonce appMsg.encryptedPayload aad
  let sealKey ← sealKeyOf c messageKey
  let ptBytes ← MessagePadding.unpad paddedPlaintext
  let gpt ← (wire.plaintext.decode ptBytes).mapError fun e => .decode s!"GroupPlaintext decode: {e}"
  validateAnnotationsAgainstTree s.tree gpt.content gpt.mentions gpt.replyContext
  let parsed ← parseGroupPlaintext c gpt sealKey appMsg.frankingTag
    s.securityPolicy.mandatoryFranking now
  return { plaintext := gpt.content
           senderLeafIndex := senderData.senderLeafIndex
           generation := senderData.generation
           contentType := parsed.contentType
           sealedPayload := parsed.sealedPayload
           frankingData := parsed.frankingData
           ttlSeconds := parsed.ttlSeconds
           sentTimestamp := parsed.sentTimestamp
           prevMessageHash := gpt.prevMessageHash
           messageId := computeMessageId c s.groupId s.epoch senderData.senderLeafIndex
             senderData.generation.toNat
           referencedMessageId := gpt.referencedMessageId
           mentions := gpt.mentions
           replyContext := gpt.replyContext }

/-- The window of a sender, a new one if it has none. -/
def windowOf (s : GroupSession) (leafIndex : ℕ) : SenderReplayWindow :=
  (s.replayWindows.get? leafIndex).getD .default

/-- Stores the window of a sender. -/
def setWindow (s : GroupSession) (leafIndex : ℕ) (window : SenderReplayWindow) : GroupSession :=
  { s with replayWindows := s.replayWindows.insert leafIndex window }

def decrypt (messageBytes : Bytes) (now : Option ℕ) : SessionM GroupDecryptResult := do
  let (appMsg, senderData) ← reads fun s => openHeader c wire s messageBytes
  let sender := senderData.senderLeafIndex
  -- `entry(..).or_default()` leaves a new window in the map even if the message is rejected
  modify fun s => s.setWindow sender (s.windowOf sender)
  reads fun s => require ((s.windowOf sender).isDuplicateOrTooOld senderData.generation = false)
    (.replayAttack "Duplicate group message")
  let messageKey ← onStore (SenderKeyStore.getMessageKey c sender senderData.generation.toNat)
  let result ← reads fun s => openPayload c wire s appMsg senderData messageKey now
  modify fun s => s.setWindow sender ((s.windowOf sender).markSeen senderData.generation)
  return result

def revealSealed (payload : SealedPayload) : Except ProtocolError Bytes :=
  AesGcm.decrypt c payload.sealKey payload.nonce payload.encryptedContent sealedAadSuffix

def decryptOpenSealed (messageBytes : Bytes) (now : Option ℕ) : SessionM GroupDecryptResult := do
  let result ← decrypt c wire messageBytes now
  match result.sealedPayload with
  | some payload =>
    let plaintext ← lift (revealSealed c payload)
    return { result with plaintext := plaintext, sealedPayload := none }
  | none => return result

def verifyFranking (data : FrankingData) : Bool :=
  decide (c.hmacSha256 data.frankingKey (buildFrankingInput data.contentType data.content
    data.sealedContent data.sealedNonce data.sealKey) = data.frankingTag)

/-! ## How decryption runs -/

variable {c wire}

@[simp] theorem windowOf_setWindow_self (s : GroupSession) (i : ℕ) (window : SenderReplayWindow) :
    (s.setWindow i window).windowOf i = window := by
  rw [windowOf, setWindow, OrdMap.get?_insert_self]
  rfl

/-- The session after the key of a message was looked up. -/
def lookedUp (s : GroupSession) (sender : ℕ) (store : SenderKeyStore) : GroupSession :=
  { s.setWindow sender (s.windowOf sender) with senderStore := store }

/-- `decrypt` in one piece: the header, the replay window, the message key, the payload. -/
theorem decrypt_run (messageBytes : Bytes) (now : Option ℕ) (s : GroupSession) :
    (decrypt c wire messageBytes now).run s =
      match openHeader c wire s messageBytes with
      | .error e => .error e s
      | .ok (appMsg, senderData) =>
        if (s.windowOf senderData.senderLeafIndex).isDuplicateOrTooOld senderData.generation = true
        then .error (.replayAttack "Duplicate group message")
          (s.lookedUp senderData.senderLeafIndex s.senderStore)
        else
          match (SenderKeyStore.getMessageKey c senderData.senderLeafIndex
              senderData.generation.toNat).run s.senderStore with
          | .error e store => .error e (s.lookedUp senderData.senderLeafIndex store)
          | .ok key store =>
            match openPayload c wire s appMsg senderData key now with
            | .error e => .error e (s.lookedUp senderData.senderLeafIndex store)
            | .ok result => .ok result
                ((s.lookedUp senderData.senderLeafIndex store).setWindow senderData.senderLeafIndex
                  ((s.windowOf senderData.senderLeafIndex).markSeen senderData.generation)) := by
  cases hheader : openHeader c wire s messageBytes with
  | error e =>
    exact reads_bind_of_error (g := fun s => openHeader c wire s messageBytes) hheader
  | ok header =>
    obtain ⟨appMsg, senderData⟩ := header
    rw [decrypt, reads_bind_of_ok (g := fun s => openHeader c wire s messageBytes) hheader]
    dsimp only
    rw [modify_bind_run]
    by_cases hdup : (s.windowOf senderData.senderLeafIndex).isDuplicateOrTooOld
        senderData.generation = true
    · rw [if_pos hdup]
      refine reads_bind_of_error (require_eq_error.mpr ⟨?_, rfl⟩)
      rw [windowOf_setWindow_self, hdup]
      decide
    · rw [if_neg hdup]
      refine (reads_bind_of_ok (a := ()) ?_).trans ?_
      · refine require_eq_ok.mpr ?_
        rw [windowOf_setWindow_self]
        exact Bool.eq_false_iff.mpr hdup
      cases hkey : (SenderKeyStore.getMessageKey c senderData.senderLeafIndex
          senderData.generation.toNat).run s.senderStore with
      | error e store => exact bind_of_error (zoom_eq_error.mpr ⟨store, hkey, rfl⟩)
      | ok key store =>
        have hlookup : (onStore (SenderKeyStore.getMessageKey c senderData.senderLeafIndex
            senderData.generation.toNat)).run (s.setWindow senderData.senderLeafIndex
              (s.windowOf senderData.senderLeafIndex)) =
            .ok key (s.lookedUp senderData.senderLeafIndex store) :=
          zoom_eq_ok.mpr ⟨store, hkey, rfl⟩
        rw [bind_of_ok hlookup]
        dsimp only
        -- the payload is opened with the parts of the session that the lookup leaves alone
        have hsame : openPayload c wire (s.lookedUp senderData.senderLeafIndex store) appMsg
            senderData key now = openPayload c wire s appMsg senderData key now := rfl
        cases hpayload : openPayload c wire s appMsg senderData key now with
        | error e =>
          exact reads_bind_of_error (g := fun s => openPayload c wire s appMsg senderData key now)
            (hsame.trans hpayload)
        | ok result =>
          rw [reads_bind_of_ok (g := fun s => openPayload c wire s appMsg senderData key now)
            (hsame.trans hpayload), modify_bind_run]
          have hwindow : (s.lookedUp senderData.senderLeafIndex store).windowOf
              senderData.senderLeafIndex = s.windowOf senderData.senderLeafIndex :=
            windowOf_setWindow_self s _ _
          rw [hwindow]
          rfl

/-- What a successful `decrypt` has done. -/
theorem decrypt_eq_ok {messageBytes : Bytes} {s s' : GroupSession}
    (h : (decrypt c wire messageBytes now).run s = .ok result s') :
    ∃ appMsg senderData key store, openHeader c wire s messageBytes = .ok (appMsg, senderData) ∧
      (s.windowOf senderData.senderLeafIndex).isDuplicateOrTooOld senderData.generation = false ∧
      (SenderKeyStore.getMessageKey c senderData.senderLeafIndex
        senderData.generation.toNat).run s.senderStore = .ok key store ∧
      openPayload c wire s appMsg senderData key now = .ok result ∧
      s' = (s.lookedUp senderData.senderLeafIndex store).setWindow senderData.senderLeafIndex
        ((s.windowOf senderData.senderLeafIndex).markSeen senderData.generation) := by
  rw [decrypt_run] at h
  split at h
  · cases h
  · rename_i appMsg senderData hheader
    split_ifs at h with hdup
    split at h
    · cases h
    · rename_i key store hkey
      split at h
      · cases h
      · rename_i hpayload
        cases h
        exact ⟨appMsg, senderData, key, store, hheader, Bool.eq_false_iff.mpr hdup, hkey, hpayload,
          rfl⟩

theorem openPayload_eq_ok {s : GroupSession} {appMsg : GroupApplicationMessage}
    {senderData : GroupSenderData} {key : Bytes}
    (h : openPayload c wire s appMsg senderData key now = .ok result) :
    result.senderLeafIndex = senderData.senderLeafIndex ∧
      result.generation = senderData.generation := by
  simp only [openPayload, except_bind_eq_ok] at h
  obtain ⟨_, -, _, -, _, -, _, -, _, -, _, -, _, -, hresult⟩ := h
  cases hresult
  exact ⟨rfl, rfl⟩

/-! ## How encryption runs -/

/-- What a successful `encrypt_internal` has done. -/
theorem encryptInternal_eq_ok {content message : Bytes} {policy : MessagePolicy}
    {actualPlaintext : Option Bytes} {entropy : MessageEntropy} {s s' : GroupSession}
    (h : (encryptInternal c wire content policy actualPlaintext now entropy).run s =
      .ok message s') :
    ∃ chain gpt frankingTag aad encryptedPayload,
      s.pendingReinit = none ∧ checkMessagePolicy policy = .ok () ∧
      validateAnnotationsAgainstTree s.tree content policy.mentions policy.replyContext = .ok () ∧
      s.senderStore.getChain s.myLeafIdx = some chain ∧
      chain.generation < s.securityPolicy.effectiveMaxMessagesPerEpoch ∧
      buildGroupPlaintext c content (effectivePolicy s.securityPolicy policy)
        (chain.messageKey c) actualPlaintext now entropy = .ok (gpt, frankingTag) ∧
      buildPayloadAad s.groupId s.epoch s.myLeafIdx chain.generation = .ok aad ∧
      AesGcm.encrypt c (chain.messageKey c) entropy.payloadNonce.1 (MessagePadding.pad
        (wire.plaintext.encode { gpt with prevMessageHash := s.lastSentMessageHash })) aad =
          .ok encryptedPayload ∧
      sealMessage c wire s chain.generation encryptedPayload frankingTag entropy = .ok message ∧
      s' = { s with
        senderStore := s.senderStore.setChain s.myLeafIdx (chain.walk c 1)
        lastSentMessageHash := c.sha256 (encryptedPayload ++ entropy.payloadNonce.1) } := by
  rw [encryptInternal] at h
  obtain ⟨_, hpending, h⟩ := reads_bind_eq_ok.mp h
  obtain ⟨_, hpolicy, h⟩ := lift_bind_eq_ok.mp h
  rw [get_bind_run] at h
  obtain ⟨_, hannotations, h⟩ := lift_bind_eq_ok.mp h
  obtain ⟨_, hlimit, h⟩ := lift_bind_eq_ok.mp h
  obtain ⟨⟨generation, messageKey⟩, s₁, honStore, h⟩ := bind_eq_ok.mp h
  obtain ⟨store, hkey, rfl⟩ := zoom_eq_ok.mp honStore
  rcases SenderKeyStore.nextOwnMessageKey_run (c := c) s.senderStore s.myLeafIdx with
    ⟨chain, hchain, -, hrun⟩ | ⟨-, e, hrun⟩
  · cases hkey.symm.trans hrun
    obtain ⟨_, -, h⟩ := lift_bind_eq_ok.mp h
    obtain ⟨⟨gpt, frankingTag⟩, hbuild, h⟩ := lift_bind_eq_ok.mp h
    obtain ⟨aad, haad, h⟩ := lift_bind_eq_ok.mp h
    obtain ⟨encryptedPayload, hencrypt, h⟩ := lift_bind_eq_ok.mp h
    rw [modify_bind_run] at h
    obtain ⟨hseal, rfl⟩ := lift_eq_ok.mp h
    rw [checkEpochLimit, hchain] at hlimit
    have hsame : (effectivePolicy s.securityPolicy policy).mentions = policy.mentions ∧
        (effectivePolicy s.securityPolicy policy).replyContext = policy.replyContext := by
      rw [effectivePolicy]
      split_ifs <;> exact ⟨rfl, rfl⟩
    rw [hsame.1, hsame.2] at hannotations
    exact ⟨chain, gpt, frankingTag, aad, encryptedPayload, require_eq_ok.mp hpending, hpolicy,
      hannotations, hchain, require_eq_ok.mp hlimit, hbuild, haad, hencrypt, hseal, rfl⟩
  · cases hkey.symm.trans hrun

/-! ## What messages change -/

section Keeps

variable {R : GroupSession → GroupSession → Prop} [IsPreorder GroupSession R]

/-- Sending changes the member's own chain and the hash of the last message. -/
theorem keeps_encryptInternal
    (hstore : ∀ i, Keeps R (onStore (SenderKeyStore.nextOwnMessageKey c i)))
    (hhash : ∀ s hash, R s { s with lastSentMessageHash := hash }) (content : Bytes)
    (policy : MessagePolicy) (actualPlaintext : Option Bytes) (now : Option ℕ)
    (entropy : MessageEntropy) :
    Keeps R (encryptInternal c wire content policy actualPlaintext now entropy) := by
  refine .bind (.reads _) fun _ => .bind (.lift _) fun _ => ?_
  refine .bind .get fun s => .bind (.lift _) fun _ => ?_
  refine .bind (.lift _) fun _ => .bind (hstore _) fun _ => ?_
  refine .bind (.lift _) fun _ => .bind (.lift _) fun _ => ?_
  refine .bind (.lift _) fun _ => .bind (.lift _) fun _ => ?_
  exact .bind (.modify fun s => hhash s _) fun _ => .lift _

/-- Receiving changes the sender's window and the sender store. -/
theorem keeps_decrypt (hstore : ∀ i g, Keeps R (onStore (SenderKeyStore.getMessageKey c i g)))
    (hwindow : ∀ s i window, R s (s.setWindow i window)) (messageBytes : Bytes)
    (now : Option ℕ) : Keeps R (decrypt c wire messageBytes now) := by
  refine .bind (.reads _) fun header => ?_
  refine .bind (.modify fun s => hwindow s _ _) fun _ => ?_
  refine .bind (.reads _) fun _ => .bind (hstore _ _) fun key => ?_
  refine .bind (.reads _) fun result => ?_
  exact .bind (.modify fun s => hwindow s _ _) fun _ => .pure _

end Keeps

end GroupSession

end AuraProtocol.Group
