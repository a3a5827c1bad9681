import AuraProtocol.Session.State

/-!
# The messages of the group protocol

`group.proto` and the constants of the group protocol.  As in the session, the
encoders and decoders that `prost` generates are parameters, one `Codec` for each
message that the code encodes or decodes.  Of the encoder of the security policy
one more thing is used: only the default message, all of whose fields are
omitted, is encoded as the empty string.
-/

namespace AuraProtocol.Group

open Session (Timestamp)

/-! ## Constants -/

def maxGroupMembers : ℕ := 1024
def maxTreeNodes : ℕ := 2 * maxGroupMembers - 1
def maxCredentialSize : ℕ := 4096
def maxProposalsPerCommit : ℕ := 64
def maxSenderKeyGeneration : ℕ := 100000
def maxSkippedSenderKeys : ℕ := 256
def maxSkippedSenderKeysPerSender : ℕ := 1024
def maxGroupMessageSize : ℕ := 1024 * 1024
def groupIdBytes : ℕ := 32
def epochSecretBytes : ℕ := 32
def initSecretBytes : ℕ := 32
def commitSecretBytes : ℕ := 32
def pathSecretBytes : ℕ := 32
def senderKeyBaseBytes : ℕ := 32
def welcomeKeyBytes : ℕ := 32
def confirmationKeyBytes : ℕ := 32
def reuseGuardBytes : ℕ := 4
def sha256HashBytes : ℕ := 32
def pskBytes : ℕ := 32
def sealKeyBytes : ℕ := 32
def frankingKeyBytes : ℕ := 32
def messageIdBytes : ℕ := 32
def groupProtocolVersion : ℕ := 2
def groupExternalJoinAuthFormatVersion : ℕ := 1
def groupSealedStateVersion : ℕ := 1
def maxReactionEmojiChars : ℕ := 16
def maxReadReceiptMessageIds : ℕ := 100
def maxMentionsPerMessage : ℕ := 50
def maxThreadDepth : ℕ := 100
def maxTtlSeconds : ℕ := 7 * 24 * 3600
def maxFutureTimestampSkewSecs : ℕ := 300
def externalJoinAuthValiditySecs : ℕ := 600
def senderKeyExhaustionWarningPercent : ℕ := 10
def shieldMaxMessagesPerEpoch : ℕ := 1000
def shieldMaxSkippedKeysPerSender : ℕ := 4
def standardMaxSkippedKeysPerSender : ℕ := 1000
def shieldMinMessagesPerEpoch : ℕ := 10
def shieldMinSkippedPerSender : ℕ := 1

def groupEpochSecretInfo : Bytes := ascii "Aura-Group-EpochSecret"
def groupSenderKeyInfo : Bytes := ascii "Aura-Group-SenderKey"
def groupMetadataKeyInfo : Bytes := ascii "Aura-Group-MetadataKey"
def groupWelcomeKeyInfo : Bytes := ascii "Aura-Group-WelcomeKey"
def groupConfirmKeyInfo : Bytes := ascii "Aura-Group-ConfirmKey"
def groupInitSecretInfo : Bytes := ascii "Aura-Group-InitSecret"
def groupChainInfo : Bytes := ascii "Aura-Group-Chain"
def groupMsgInfo : Bytes := ascii "Aura-Group-Msg"
def groupPathSecretInfo : Bytes := ascii "Aura-Group-PathSecret"
def groupNodeKeyInfo : Bytes := ascii "Aura-Group-NodeKey"
def groupHybridPathInfo : Bytes := ascii "Aura-Group-HybridPath"
def groupStateHmacInfo : Bytes := ascii "Aura-Group-StateHMAC"
def groupHybridSaltPrefix : Bytes := ascii "Aura-PQ-Group-Hybrid::"
def groupParentHashLabel : Bytes := ascii "Aura-Group-ParentHash-v2"
def groupLeafNodeHashLabel : Bytes := ascii "Aura-Group-LeafNodeHash-v2"
def groupParentNodeHashLabel : Bytes := ascii "Aura-Group-ParentNodeHash-v2"
def groupBlankNodeHashLabel : Bytes := ascii "Aura-Group-BlankNodeHash-v2"
def groupExternalPubX25519Info : Bytes := ascii "Aura-Group-ExternalPub-X25519"
def groupExternalPubKyberInfo : Bytes := ascii "Aura-Group-ExternalPub-Kyber"
def groupExternalInitSecretInfo : Bytes := ascii "Aura-Group-ExternalInitSecret"
def groupPskSecretInfo : Bytes := ascii "Aura-Group-PskSecret"
def groupPskExtractInfo : Bytes := ascii "Aura-Group-PskExtract"
def groupSealKeyInfo : Bytes := ascii "Aura-Group-SealKey"
def groupMessageSignatureInfo : Bytes := ascii "Aura-Group-MessageSignature"
def groupFrankingTagInfo : Bytes := ascii "Aura-Group-FrankingTag-v2"
def sealedAadSuffix : Bytes := ascii "sealed"
def groupMsgIdInfo : Bytes := ascii "Aura-Group-MsgId"
def groupEnhancedKdfPass1 : Bytes := ascii "Aura-Enhanced-Pass1"
def groupEnhancedKdfPass2 : Bytes := ascii "Aura-Enhanced-Pass2"
def groupBlake2bChainPersonalization : Bytes := ascii "Aura-B2Chain"
def welcomeProvenanceSignatureInfo : Bytes := ascii "Aura-Group-WelcomeProvenance-v1"

/-! ## Messages -/

structure GroupKeyPackage where
  version : ℕ
  identityEd25519Public : Bytes
  identityX25519Public : Bytes
  leafX25519Public : Bytes
  leafKyberPublic : Bytes
  signature : Bytes
  credential : Bytes
  createdAt : Option Timestamp
  identityKyberPublic : Bytes
  deriving DecidableEq, Repr

structure GroupTreeNode where
  nodeIndex : ℕ
  x25519Public : Bytes
  kyberPublic : Bytes
  x25519Private : Bytes
  kyberSecret : Bytes
  parentHash : Bytes
  keyPackage : Option GroupKeyPackage
  deriving DecidableEq, Repr

structure GroupExternalInitProposal where
  ephemeralX25519Public : Bytes
  kyberCiphertext : Bytes
  authorization : Bytes
  deriving DecidableEq, Repr

structure GroupExternalJoinAuthorization where
  groupId : Bytes
  epoch : ℕ
  joinerIdentityEd25519Public : Bytes
  joinerIdentityX25519Public : Bytes
  joinerCredential : Bytes
  authorizerLeafIndex : ℕ
  authorizerSignature : Bytes
  groupContextHash : Bytes
  externalX25519Public : Bytes
  externalKyberPublic : Bytes
  issuedAtUnix : ℕ
  expiresAtUnix : ℕ
  authFormatVersion : ℕ
  deriving DecidableEq, Repr

structure GroupPskProposal where
  pskId : Bytes
  pskNonce : Bytes
  deriving DecidableEq, Repr

structure GroupReInitProposal where
  newGroupId : Bytes
  newVersion : ℕ
  deriving DecidableEq, Repr

structure GroupUpdateProposal where
  leafX25519Public : Bytes
  leafKyberPublic : Bytes
  deriving DecidableEq, Repr

/-- `group_proposal::Proposal`. -/
inductive Proposal where
  | add (keyPackage : Option GroupKeyPackage)
  | remove (removedLeafIndex : ℕ)
  | update (u : GroupUpdateProposal)
  | externalInit (e : GroupExternalInitProposal)
  | psk (p : GroupPskProposal)
  | reInit (r : GroupReInitProposal)
  deriving DecidableEq, Repr

/-- `GroupProposal`: its `oneof` may be unset. -/
abbrev GroupProposal := Option Proposal

structure GroupHybridCiphertext where
  ephemeralX25519Public : Bytes
  kyberCiphertext : Bytes
  encryptedSecret : Bytes
  nonce : Bytes
  deriving DecidableEq, Repr

structure GroupUpdatePathNode where
  x25519Public : Bytes
  kyberPublic : Bytes
  encryptedPathSecrets : List GroupHybridCiphertext
  parentHash : Bytes
  deriving DecidableEq, Repr

structure GroupUpdatePath where
  leafX25519Public : Bytes
  leafKyberPublic : Bytes
  nodes : List GroupUpdatePathNode
  leafSignature : Bytes
  deriving DecidableEq, Repr

structure GroupCommit where
  committerLeafIndex : ℕ
  proposals : List GroupProposal
  updatePath : Option GroupUpdatePath
  confirmationMac : Bytes
  epoch : ℕ
  groupId : Bytes
  committerSignature : Bytes
  deriving DecidableEq, Repr

structure GroupWelcome where
  version : ℕ
  groupId : Bytes
  epoch : ℕ
  encryptedGroupInfo : Bytes
  welcomeNonce : Bytes
  encryptedJoinerSecret : Option GroupHybridCiphertext
  treeHash : Bytes
  targetLeafIndex : ℕ
  committerLeafIndex : ℕ
  committerSignature : Bytes
  deriving DecidableEq, Repr

structure GroupInfo where
  groupId : Bytes
  epoch : ℕ
  treeNodes : List GroupTreeNode
  groupContextHash : Bytes
  confirmationMac : Bytes
  securityPolicy : Bytes
  deriving DecidableEq, Repr

structure GroupApplicationMessage where
  encryptedSenderData : Bytes
  senderDataNonce : Bytes
  encryptedPayload : Bytes
  payloadNonce : Bytes
  frankingTag : Bytes
  senderSignature : Bytes
  deriving DecidableEq, Repr

/-- `group_message::Content`. -/
inductive Content where
  | application (m : GroupApplicationMessage)
  | commit (m : GroupCommit)
  | welcome (m : GroupWelcome)
  deriving DecidableEq, Repr

structure GroupMessage where
  version : ℕ
  groupId : Bytes
  epoch : ℕ
  content : Option Content
  deriving DecidableEq, Repr

structure GroupPublicState where
  version : ℕ
  groupId : Bytes
  epoch : ℕ
  treeNodes : List GroupTreeNode
  groupContextHash : Bytes
  confirmationMac : Bytes
  externalX25519Public : Bytes
  externalKyberPublic : Bytes
  securityPolicy : Bytes
  deriving DecidableEq, Repr

structure GroupSenderData where
  senderLeafIndex : ℕ
  generation : UInt32
  reuseGuard : Bytes
  deriving DecidableEq, Repr

structure GroupMessagePolicy where
  contentType : ℤ
  ttlSeconds : ℕ
  sentTimestamp : ℕ
  deriving DecidableEq, Repr

structure GroupMention where
  leafIndex : ℕ
  offset : ℕ
  length : ℕ
  deriving DecidableEq, Repr

structure GroupReplyContext where
  replyToMessageId : Bytes
  threadRootId : Option Bytes
  depth : Option ℕ
  deriving DecidableEq, Repr

structure GroupReaction where
  messageId : Bytes
  emoji : String
  remove : Bool
  deriving DecidableEq, Repr

structure GroupReadReceipt where
  messageIds : List Bytes
  timestamp : ℕ
  deriving DecidableEq, Repr

structure GroupTypingIndicator where
  isTyping : Bool
  deriving DecidableEq, Repr

structure GroupPlaintext where
  content : Bytes
  policy : Option GroupMessagePolicy
  frankingKey : Bytes
  sealedContent : Bytes
  sealedNonce : Bytes
  prevMessageHash : Bytes
  referencedMessageId : Bytes
  mentions : List GroupMention
  replyContext : Option GroupReplyContext
  deriving DecidableEq, Repr

structure GroupMemberSenderChain where
  leafIndex : ℕ
  chainKey : Bytes
  generation : ℕ
  deriving DecidableEq, Repr

/-- `GroupProtocolState`, without the member roles, which no call can set. -/
structure GroupProtocolState where
  version : ℕ
  groupId : Bytes
  epoch : ℕ
  myLeafIndex : ℕ
  treeNodes : List GroupTreeNode
  epochSecret : Bytes
  initSecret : Bytes
  metadataKey : Bytes
  confirmationKey : Bytes
  welcomeKey : Bytes
  senderChains : List GroupMemberSenderChain
  myIdentityEd25519Public : Bytes
  myIdentityX25519Public : Bytes
  groupContextHash : Bytes
  seenMessageIds : List Bytes
  stateHmac : Bytes
  stateCounter : ℕ
  nonceCounter : ℕ
  createdAt : Option Timestamp
  securityPolicy : Bytes
  deriving DecidableEq, Repr

structure SealedGroupState where
  version : ℕ
  dekNonce : Bytes
  stateNonce : Bytes
  encryptedDek : Bytes
  encryptedState : Bytes
  externalCounter : ℕ
  deriving DecidableEq, Repr

/-- `GroupSecurityPolicy`, the message and the structure of `group/mod.rs` with the same fields. -/
structure GroupSecurityPolicy where
  maxMessagesPerEpoch : ℕ
  maxSkippedKeysPerSender : ℕ
  blockExternalJoin : Bool
  enhancedKeySchedule : Bool
  mandatoryFranking : Bool
  deriving DecidableEq, Repr

/-- The codecs of the group's messages. -/
structure Wire where
  hybridCiphertext : Codec GroupHybridCiphertext
  authorization : Codec GroupExternalJoinAuthorization
  commit : Codec GroupCommit
  groupInfo : Codec GroupInfo
  welcome : Codec GroupWelcome
  message : Codec GroupMessage
  senderData : Codec GroupSenderData
  plaintext : Codec GroupPlaintext
  reaction : Codec GroupReaction
  readReceipt : Codec GroupReadReceipt
  typingIndicator : Codec GroupTypingIndicator
  publicState : Codec GroupPublicState
  protocolState : Codec GroupProtocolState
  sealedState : Codec SealedGroupState
  policy : Codec GroupSecurityPolicy
  /-- Only a message of default values is encoded as the empty string. -/
  policy_ne_nil : ∀ p : GroupSecurityPolicy, p.enhancedKeySchedule = true → policy.encode p ≠ []

end AuraProtocol.Group
