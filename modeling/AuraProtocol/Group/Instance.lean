import AuraProtocol.Group.Sealed
import AuraProtocol.Identity.Create
import AuraProtocol.Session.Instance

/-!
# An instance of the group's messages, and sample groups

Codecs for the group's messages over self-delimiting codes, and the sessions of a
group that one member creates and a second one joins by a Welcome.
-/

namespace AuraProtocol.Group

open Serial
open Session (serialTimestamp)

/-! ## Codes -/

/-- Code of a `u32`. -/
def serialUInt32 : Serial UInt32 := nat.iso UInt32.ofNat UInt32.toNat (fun _ => UInt32.ofNat_toNat)

/-- Code of a `GroupKeyPackage`. -/
def serialKeyPackage : Serial GroupKeyPackage :=
  (nat.prod (padded.prod (padded.prod (padded.prod (padded.prod (padded.prod (padded.prod
    ((option serialTimestamp).prod padded)))))))).iso
    (fun (a, b, c, d, e, f, g, h, i) => ⟨a, b, c, d, e, f, g, h, i⟩)
    (fun p => (p.version, p.identityEd25519Public, p.identityX25519Public, p.leafX25519Public,
      p.leafKyberPublic, p.signature, p.credential, p.createdAt, p.identityKyberPublic))
    (fun _ => rfl)

/-- Code of a `GroupTreeNode`. -/
def serialTreeNode : Serial GroupTreeNode :=
  (nat.prod (padded.prod (padded.prod (padded.prod (padded.prod (padded.prod
    (option serialKeyPackage))))))).iso
    (fun (a, b, c, d, e, f, g) => ⟨a, b, c, d, e, f, g⟩)
    (fun n => (n.nodeIndex, n.x25519Public, n.kyberPublic, n.x25519Private, n.kyberSecret,
      n.parentHash, n.keyPackage))
    (fun _ => rfl)

/-- Code of a `GroupExternalJoinAuthorization`. -/
def serialAuthorization : Serial GroupExternalJoinAuthorization :=
  (padded.prod (nat.prod (padded.prod (padded.prod (padded.prod (nat.prod (padded.prod (padded.prod
    (padded.prod (padded.prod (nat.prod (nat.prod nat)))))))))))).iso
    (fun (a, b, c, d, e, f, g, h, i, j, k, l, m) => ⟨a, b, c, d, e, f, g, h, i, j, k, l, m⟩)
    (fun x => (x.groupId, x.epoch, x.joinerIdentityEd25519Public, x.joinerIdentityX25519Public,
      x.joinerCredential, x.authorizerLeafIndex, x.authorizerSignature, x.groupContextHash,
      x.externalX25519Public, x.externalKyberPublic, x.issuedAtUnix, x.expiresAtUnix,
      x.authFormatVersion))
    (fun _ => rfl)

/-- Code of a `GroupHybridCiphertext`. -/
def serialHybridCiphertext : Serial GroupHybridCiphertext :=
  (padded.prod (padded.prod (padded.prod padded))).iso (fun (a, b, c, d) => ⟨a, b, c, d⟩)
    (fun x => (x.ephemeralX25519Public, x.kyberCiphertext, x.encryptedSecret, x.nonce))
    (fun _ => rfl)

/-- Code of a proposal. -/
def serialProposal : Serial Proposal :=
  (((option serialKeyPackage).sum nat).sum (((padded.prod padded).sum
    (padded.prod (padded.prod padded))).sum ((padded.prod padded).sum (padded.prod nat)))).iso
    (fun
      | .inl (.inl keyPackage) => .add keyPackage
      | .inl (.inr leafIdx) => .remove leafIdx
      | .inr (.inl (.inl (x, k))) => .update ⟨x, k⟩
      | .inr (.inl (.inr (x, k, a))) => .externalInit ⟨x, k, a⟩
      | .inr (.inr (.inl (i, n))) => .psk ⟨i, n⟩
      | .inr (.inr (.inr (g, v))) => .reInit ⟨g, v⟩)
    (fun
      | .add keyPackage => .inl (.inl keyPackage)
      | .remove leafIdx => .inl (.inr leafIdx)
      | .update u => .inr (.inl (.inl (u.leafX25519Public, u.leafKyberPublic)))
      | .externalInit e =>
        .inr (.inl (.inr (e.ephemeralX25519Public, e.kyberCiphertext, e.authorization)))
      | .psk p => .inr (.inr (.inl (p.pskId, p.pskNonce)))
      | .reInit r => .inr (.inr (.inr (r.newGroupId, r.newVersion))))
    (fun p => by cases p <;> rfl)

/-- Code of a `GroupUpdatePath`. -/
def serialUpdatePath : Serial GroupUpdatePath :=
  (padded.prod (padded.prod ((list serialPathNode).prod padded))).iso
    (fun (a, b, c, d) => ⟨a, b, c, d⟩)
    (fun x => (x.leafX25519Public, x.leafKyberPublic, x.nodes, x.leafSignature)) (fun _ => rfl)
where
  /-- Code of a `GroupUpdatePathNode`. -/
  serialPathNode : Serial GroupUpdatePathNode :=
    (padded.prod (padded.prod ((list serialHybridCiphertext).prod padded))).iso
      (fun (a, b, c, d) => ⟨a, b, c, d⟩)
      (fun x => (x.x25519Public, x.kyberPublic, x.encryptedPathSecrets, x.parentHash))
      (fun _ => rfl)

/-- Code of a `GroupCommit`. -/
def serialCommit : Serial GroupCommit :=
  (nat.prod ((list (option serialProposal)).prod ((option serialUpdatePath).prod (padded.prod
    (nat.prod (padded.prod padded)))))).iso
    (fun (a, b, c, d, e, f, g) => ⟨a, b, c, d, e, f, g⟩)
    (fun x => (x.committerLeafIndex, x.proposals, x.updatePath, x.confirmationMac, x.epoch,
      x.groupId, x.committerSignature))
    (fun _ => rfl)

/-- Code of a `GroupWelcome`. -/
def serialWelcome : Serial GroupWelcome :=
  (nat.prod (padded.prod (nat.prod (padded.prod (padded.prod ((option serialHybridCiphertext).prod
    (padded.prod (nat.prod (nat.prod padded))))))))).iso
    (fun (a, b, c, d, e, f, g, h, i, j) => ⟨a, b, c, d, e, f, g, h, i, j⟩)
    (fun x => (x.version, x.groupId, x.epoch, x.encryptedGroupInfo, x.welcomeNonce,
      x.encryptedJoinerSecret, x.treeHash, x.targetLeafIndex, x.committerLeafIndex,
      x.committerSignature))
    (fun _ => rfl)

/-- Code of a `GroupInfo`. -/
def serialGroupInfo : Serial GroupInfo :=
  (padded.prod (nat.prod ((list serialTreeNode).prod (padded.prod (padded.prod padded))))).iso
    (fun (a, b, c, d, e, f) => ⟨a, b, c, d, e, f⟩)
    (fun x => (x.groupId, x.epoch, x.treeNodes, x.groupContextHash, x.confirmationMac,
      x.securityPolicy))
    (fun _ => rfl)

/-- Code of a `GroupMessage`. -/
def serialMessage : Serial GroupMessage :=
  (nat.prod (padded.prod (nat.prod (option serialContent)))).iso (fun (a, b, c, d) => ⟨a, b, c, d⟩)
    (fun x => (x.version, x.groupId, x.epoch, x.content)) (fun _ => rfl)
where
  /-- Code of a `GroupApplicationMessage`. -/
  serialApplication : Serial GroupApplicationMessage :=
    (padded.prod (padded.prod (padded.prod (padded.prod (padded.prod padded))))).iso
      (fun (a, b, c, d, e, f) => ⟨a, b, c, d, e, f⟩)
      (fun x => (x.encryptedSenderData, x.senderDataNonce, x.encryptedPayload, x.payloadNonce,
        x.frankingTag, x.senderSignature))
      (fun _ => rfl)
  /-- Code of the content of a message. -/
  serialContent : Serial Content :=
    (serialApplication.sum (serialCommit.sum serialWelcome)).iso
      (fun
        | .inl m => .application m
        | .inr (.inl m) => .commit m
        | .inr (.inr m) => .welcome m)
      (fun
        | .application m => .inl m
        | .commit m => .inr (.inl m)
        | .welcome m => .inr (.inr m))
      (fun m => by cases m <;> rfl)

/-- Code of a `GroupSenderData`. -/
def serialSenderData : Serial GroupSenderData :=
  (nat.prod (serialUInt32.prod padded)).iso (fun (a, b, c) => ⟨a, b, c⟩)
    (fun x => (x.senderLeafIndex, x.generation, x.reuseGuard)) (fun _ => rfl)

/-- Code of a `GroupPlaintext`. -/
def serialPlaintext : Serial GroupPlaintext :=
  (padded.prod ((option serialMessagePolicy).prod (padded.prod (padded.prod (padded.prod (padded.prod
    (padded.prod ((list serialMention).prod (option serialReplyContext))))))))).iso
    (fun (a, b, c, d, e, f, g, h, i) => ⟨a, b, c, d, e, f, g, h, i⟩)
    (fun x => (x.content, x.policy, x.frankingKey, x.sealedContent, x.sealedNonce,
      x.prevMessageHash, x.referencedMessageId, x.mentions, x.replyContext))
    (fun _ => rfl)
where
  /-- Code of a `GroupMessagePolicy`. -/
  serialMessagePolicy : Serial GroupMessagePolicy :=
    (int.prod (nat.prod nat)).iso (fun (a, b, c) => ⟨a, b, c⟩)
      (fun x => (x.contentType, x.ttlSeconds, x.sentTimestamp)) (fun _ => rfl)
  /-- Code of a `GroupMention`. -/
  serialMention : Serial GroupMention :=
    (nat.prod (nat.prod nat)).iso (fun (a, b, c) => ⟨a, b, c⟩)
      (fun x => (x.leafIndex, x.offset, x.length)) (fun _ => rfl)
  /-- Code of a `GroupReplyContext`. -/
  serialReplyContext : Serial GroupReplyContext :=
    (padded.prod ((option padded).prod (option nat))).iso (fun (a, b, c) => ⟨a, b, c⟩)
      (fun x => (x.replyToMessageId, x.threadRootId, x.depth)) (fun _ => rfl)

/-- Code of a `GroupReaction`. -/
def serialReaction : Serial GroupReaction :=
  (padded.prod (text.prod bool)).iso (fun (a, b, c) => ⟨a, b, c⟩)
    (fun x => (x.messageId, x.emoji, x.remove)) (fun _ => rfl)

/-- Code of a `GroupReadReceipt`. -/
def serialReadReceipt : Serial GroupReadReceipt :=
  ((list padded).prod nat).iso (fun (a, b) => ⟨a, b⟩) (fun x => (x.messageIds, x.timestamp))
    (fun _ => rfl)

/-- Code of a `GroupPublicState`. -/
def serialPublicState : Serial GroupPublicState :=
  (nat.prod (padded.prod (nat.prod ((list serialTreeNode).prod (padded.prod (padded.prod (padded.prod
    (padded.prod padded)))))))).iso
    (fun (a, b, c, d, e, f, g, h, i) => ⟨a, b, c, d, e, f, g, h, i⟩)
    (fun x => (x.version, x.groupId, x.epoch, x.treeNodes, x.groupContextHash, x.confirmationMac,
      x.externalX25519Public, x.externalKyberPublic, x.securityPolicy))
    (fun _ => rfl)

/-- Code of a `GroupProtocolState`. -/
def serialProtocolState : Serial GroupProtocolState :=
  (serialEpoch.prod serialMember).iso
    (fun (⟨a, b, c, d, e, f, g, h, i, j⟩, k, l, m, n, o, p, q, r, s, t) =>
      ⟨a, b, c, d, e, f, g, h, i, j, k, l, m, n, o, p, q, r, s, t⟩)
    (fun x => ((x.version, x.groupId, x.epoch, x.myLeafIndex, x.treeNodes, x.epochSecret,
        x.initSecret, x.metadataKey, x.confirmationKey, x.welcomeKey),
      x.senderChains, x.myIdentityEd25519Public, x.myIdentityX25519Public, x.groupContextHash,
        x.seenMessageIds, x.stateHmac, x.stateCounter, x.nonceCounter, x.createdAt,
        x.securityPolicy))
    (fun _ => rfl)
where
  /-- The place in the group and the keys of the epoch. -/
  serialEpoch : Serial (ℕ × Bytes × ℕ × ℕ × List GroupTreeNode × Bytes × Bytes × Bytes × Bytes ×
      Bytes) :=
    nat.prod (padded.prod (nat.prod (nat.prod ((list serialTreeNode).prod (padded.prod (padded.prod
      (padded.prod (padded.prod padded))))))))
  /-- Code of a `GroupMemberSenderChain`. -/
  serialChain : Serial GroupMemberSenderChain :=
    (nat.prod (padded.prod nat)).iso (fun (a, b, c) => ⟨a, b, c⟩)
      (fun x => (x.leafIndex, x.chainKey, x.generation)) (fun _ => rfl)
  /-- The remaining fields. -/
  serialMember : Serial (List GroupMemberSenderChain × Bytes × Bytes × Bytes × List Bytes × Bytes ×
      ℕ × ℕ × Option Session.Timestamp × Bytes) :=
    (list serialChain).prod (padded.prod (padded.prod (padded.prod ((list padded).prod (padded.prod
      (nat.prod (nat.prod ((option serialTimestamp).prod padded))))))))

/-- Code of a `SealedGroupState`. -/
def serialSealedState : Serial SealedGroupState :=
  (nat.prod (padded.prod (padded.prod (padded.prod (padded.prod nat))))).iso
    (fun (a, b, c, d, e, f) => ⟨a, b, c, d, e, f⟩)
    (fun x => (x.version, x.dekNonce, x.stateNonce, x.encryptedDek, x.encryptedState,
      x.externalCounter))
    (fun _ => rfl)

/-- Code of a `GroupSecurityPolicy`. -/
def serialPolicy : Serial GroupSecurityPolicy :=
  (nat.prod (nat.prod (bool.prod (bool.prod bool)))).iso (fun (a, b, c, d, e) => ⟨a, b, c, d, e⟩)
    (fun x => (x.maxMessagesPerEpoch, x.maxSkippedKeysPerSender, x.blockExternalJoin,
      x.enhancedKeySchedule, x.mandatoryFranking))
    (fun _ => rfl)

/-- Codecs of the group's messages. -/
def Wire.plain : Wire where
  hybridCiphertext := .ofSerial serialHybridCiphertext
  authorization := .ofSerial serialAuthorization
  commit := .ofSerial serialCommit
  groupInfo := .ofSerial serialGroupInfo
  welcome := .ofSerial serialWelcome
  message := .ofSerial serialMessage
  senderData := .ofSerial serialSenderData
  plaintext := .ofSerial serialPlaintext
  reaction := .ofSerial serialReaction
  readReceipt := .ofSerial serialReadReceipt
  typingIndicator := .ofSerial (bool.iso (fun b => ⟨b⟩) (·.isTyping) fun _ => rfl)
  publicState := .ofSerial serialPublicState
  protocolState := .ofSerial serialProtocolState
  sealedState := .ofSerial serialSealedState
  policy := .ofSerial serialPolicy
  policy_ne_nil p _ h := by
    have hput : (nat.put p.maxMessagesPerEpoch).length = 0 :=
      Nat.eq_zero_of_add_eq_zero_right (List.length_append.symm.trans (congrArg List.length h))
    simp only [Serial.nat, List.length_append, List.length_cons] at hput
    omega

/-! ## A group of two -/

/-- A random string of one repeated byte. -/
def sampleBytes (n : ℕ) (b : UInt8) : { bs : Bytes // bs.length = n } :=
  ⟨List.replicate n b, List.length_replicate⟩

/-- Randomness of a leaf's keys, told apart by a byte. -/
def sampleKeyEntropy (b : UInt8) : KeyPackage.KeyEntropy where
  x25519 := sampleBytes 32 b
  kyberSeed := [b]
  kyberSelfTest := []

/-- Randomness of one encryption of a path secret. -/
def sampleSealEntropy (b : UInt8) : SealEntropy where
  ephemeral := sampleBytes 32 b
  kyber := [b]
  nonce := sampleBytes aesGcmNonceBytes b

/-- Randomness of a commit. -/
def samplePathEntropy (b : UInt8) : PathEntropy where
  commitSecret := sampleBytes 32 b
  leaf := sampleKeyEntropy b
  pathSecret := sampleBytes 32 b
  encryption _ _ := sampleSealEntropy b

/-- The members' identities. -/
def sampleMember (n : UInt8) : IdentityKeys Crypto.transparent :=
  sampleIdentity n 0 (Nat.zero_le _)

/-- The group as its creator, the member 1, starts it. -/
def sampleCreated? (policy : GroupSecurityPolicy) : Except ProtocolError GroupSession :=
  GroupSession.createWithPolicy Crypto.transparent Wire.plain (sampleMember 1) [1] policy
    { leaf := sampleKeyEntropy 11, groupId := sampleBytes 32 12, commitSecret := sampleBytes 32 13 }

theorem sampleCreated?_isSome : (sampleCreated? .standard).toOption.isSome = true := by
  decide +kernel

/-- The creator's session with the standard policy. -/
def sampleCreated : GroupSession := (sampleCreated? .standard).toOption.get sampleCreated?_isSome

/-- The creator's session after adding the member 2, and that member's session. -/
def samplePair? (policy : GroupSecurityPolicy) :
    Except ProtocolError (GroupSession × GroupSession) := do
  let created ← sampleCreated? policy
  let (keyPackage, x25519Private, kyberSecret) ← KeyPackage.createKeyPackage Crypto.transparent
    (sampleMember 2) [2] (sampleKeyEntropy 21)
  let ((_, welcome), creator) ← Fallible.onCopy (GroupSession.addMember Crypto.transparent
    Wire.plain keyPackage (samplePathEntropy 22)
    { nonce := sampleBytes aesGcmNonceBytes 23, joiner := sampleSealEntropy 24 }) created
  let joined ← GroupSession.fromWelcome Crypto.transparent Wire.plain welcome x25519Private
    kyberSecret (sampleMember 2).ed25519.publicKey (sampleMember 2).identityX25519.publicKey
    (sampleMember 2).ed25519.secretKey
  return (creator, joined)

end AuraProtocol.Group
