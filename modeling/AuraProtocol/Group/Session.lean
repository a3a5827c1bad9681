import AuraProtocol.Group.ReplayWindow
import AuraProtocol.Group.Welcome

/-!
# Group sessions

`GroupSession` of `protocol/group/mod.rs`: the state of one member and the calls
that change the membership.  A member that commits runs `create_commit` on its own
tree (`commitOwn`); a member that receives a commit runs `process_commit` on a
copy and takes the copy over only if that succeeded (`processCommit`).

The mutex around the state is not modelled, nor are the event handler and the
member roles, which no call can set.  The time provider is the argument `now`,
`none` where reading the clock fails.
-/

namespace AuraProtocol.Group

open Fallible
open Session (readBytes)

structure ReInitInfo where
  newGroupId : Bytes
  newVersion : ℕ
  deriving DecidableEq, Repr

/-- `GroupSessionInner`. -/
structure GroupSession where
  groupId : Bytes
  epoch : ℕ
  myLeafIdx : ℕ
  tree : RatchetTree
  epochKeys : EpochKeys
  initSecret : Bytes
  senderStore : SenderKeyStore
  groupContextHash : Bytes
  myIdentityEd25519Public : Bytes
  myIdentityX25519Public : Bytes
  myEd25519Secret : { b : Bytes // b.length = ed25519SecretKeyBytes }
  replayWindows : OrdMap ℕ SenderReplayWindow
  externalX25519Public : Bytes
  externalKyberPublic : Bytes
  pskResolver : Option PskResolver
  pendingReinit : Option ReInitInfo
  lastSentMessageHash : Bytes
  securityPolicy : GroupSecurityPolicy

/-- Calls on a session: a failing one hands back the state it failed in. -/
abbrev SessionM := EStateM ProtocolError GroupSession

def ensureNoPendingReinit (operation : String) (s : GroupSession) : Except ProtocolError Unit :=
  require (s.pendingReinit = none) (.groupProtocol
    s!"{operation} blocked: group has a pending reinit and is now read-only")

def ed25519SecretToHandle (raw : Bytes) :
    Except ProtocolError { b : Bytes // b.length = ed25519SecretKeyBytes } :=
  if h : raw.length = ed25519SecretKeyBytes then .ok ⟨raw, h⟩
  else .error (.invalidInput s!"Ed25519 secret key must be {ed25519SecretKeyBytes} bytes")

def nowUnixSecs (now : Option ℕ) : Except ProtocolError ℕ :=
  orError now (.groupProtocol "system clock is before UNIX epoch")

/-- `u64::saturating_add`. -/
def saturatingAdd (a b : ℕ) : ℕ := min (a + b) u64Max

namespace GroupSession

variable (c : Crypto) (wire : Wire)

/-! ## Creating and joining -/

/-- The randomness of a new group. -/
structure CreateEntropy where
  leaf : KeyPackage.KeyEntropy
  groupId : Random32
  commitSecret : Random32

/-- `create_with_policy_and_time_provider`. -/
def createWithPolicy (identity : IdentityKeys c) (credential : Bytes)
    (policy : GroupSecurityPolicy) (entropy : CreateEntropy) :
    Except ProtocolError GroupSession := do
  policy.validate
  let (kp, x25519Priv, kyberSec) ← KeyPackage.createKeyPackage c identity credential entropy.leaf
  let ed25519Secret ← ed25519SecretToHandle identity.ed25519.secretKey
  let tree ← RatchetTree.newSingle kp.leafX25519Public kp.leafKyberPublic x25519Priv kyberSec
    kp.identityEd25519Public kp.identityX25519Public kp.identityKyberPublic credential kp.signature
  let treeHash ← tree.treeHash c
  let groupContextHash := GroupKeySchedule.computeGroupContextHash c entropy.groupId.1 0 treeHash
    (policy.policyBytes wire)
  let epochKeys ← GroupKeySchedule.deriveEpochKeys c (List.replicate initSecretBytes 0)
    entropy.commitSecret.1 groupContextHash policy.enhancedKeySchedule
  let senderStore ← Commit.newSenderStore c tree epochKeys.epochSecret groupContextHash policy
  let external ← GroupKeySchedule.deriveExternalKeypairs c epochKeys.initSecret
  return { groupId := entropy.groupId.1
           epoch := 0
           myLeafIdx := 0
           tree := tree
           epochKeys := epochKeys
           initSecret := epochKeys.initSecret
           senderStore := senderStore
           groupContextHash := groupContextHash
           myIdentityEd25519Public := kp.identityEd25519Public
           myIdentityX25519Public := kp.identityX25519Public
           myEd25519Secret := ed25519Secret
           replayWindows := ∅
           externalX25519Public := external.x25519.publicKey
           externalKyberPublic := external.kyber.publicKey
           pskResolver := none
           pendingReinit := none
           lastSentMessageHash := zeroHash
           securityPolicy := policy }

def create (identity : IdentityKeys c) (credential : Bytes) (entropy : CreateEntropy) :
    Except ProtocolError GroupSession :=
  createWithPolicy c wire identity credential .standard entropy

/-- `from_welcome_with_time_provider`. -/
def fromWelcome (welcomeBytes x25519Private kyberSecret identityEd25519 identityX25519
    ed25519SecretRaw : Bytes) : Except ProtocolError GroupSession := do
  require (welcomeBytes.length ≤ maxGroupMessageSize) (.invalidInput "Welcome too large")
  let ed25519Secret ← ed25519SecretToHandle ed25519SecretRaw
  let welcomeMsg ← (wire.welcome.decode welcomeBytes).mapError fun e =>
    .decode s!"Welcome decode: {e}"
  let result ← Welcome.processWelcome c wire welcomeMsg x25519Private kyberSecret identityEd25519
    identityX25519
  let securityPolicy ← GroupSecurityPolicy.fromProtoBytes wire result.securityPolicyBytes
  securityPolicy.validate
  let external ← GroupKeySchedule.deriveExternalKeypairs c result.epochKeys.initSecret
  return { groupId := result.groupId
           epoch := result.epoch
           myLeafIdx := result.myLeafIdx
           tree := result.tree
           epochKeys := result.epochKeys
           initSecret := result.epochKeys.initSecret
           senderStore := result.senderStore
           groupContextHash := result.groupContextHash
           myIdentityEd25519Public := identityEd25519
           myIdentityX25519Public := identityX25519
           myEd25519Secret := ed25519Secret
           replayWindows := ∅
           externalX25519Public := external.x25519.publicKey
           externalKyberPublic := external.kyber.publicKey
           pskResolver := none
           pendingReinit := none
           lastSentMessageHash := zeroHash
           securityPolicy := securityPolicy }

/-- `from_welcome_with_min_epoch_and_time_provider`. -/
def fromWelcomeWithMinEpoch (welcomeBytes x25519Private kyberSecret identityEd25519 identityX25519
    ed25519SecretRaw : Bytes) (minEpoch : ℕ) : Except ProtocolError GroupSession := do
  require (welcomeBytes.length ≤ maxGroupMessageSize) (.invalidInput "Welcome too large")
  let welcomeMsg ← (wire.welcome.decode welcomeBytes).mapError fun e =>
    .decode s!"Welcome decode: {e}"
  require (minEpoch ≤ welcomeMsg.epoch) (.groupProtocol
    s!"Stale Welcome rejected: epoch {welcomeMsg.epoch} < min_epoch {minEpoch}")
  fromWelcome c wire welcomeBytes x25519Private kyberSecret identityEd25519 identityX25519
    ed25519SecretRaw

/-! ## Committing -/

/-- The assignments that follow an accepted commit. -/
def enterEpoch (s : GroupSession) (epoch : ℕ) (epochKeys : EpochKeys)
    (senderStore : SenderKeyStore) (groupContextHash : Bytes) : GroupSession :=
  { s with
    initSecret := epochKeys.initSecret
    epoch := epoch
    epochKeys := epochKeys
    senderStore := senderStore
    groupContextHash := groupContextHash
    replayWindows := ∅ }

/-- The last step of every commit: the external keys of the new init secret. -/
def refreshExternalKeys : SessionM Unit := do
  let external ← reads fun s => GroupKeySchedule.deriveExternalKeypairs c s.initSecret
  modify fun s =>
    { s with
      externalX25519Public := external.x25519.publicKey
      externalKyberPublic := external.kyber.publicKey }

/-- The call of `create_commit` that the committing functions make, on the session's own tree. -/
def commitOwn (proposals : List GroupProposal) (entropy : PathEntropy) : SessionM CommitOutput := do
  let s ← get
  zoom (·.tree) (fun s tree => { s with tree })
    (Commit.createCommit c wire proposals s.myLeafIdx s.initSecret s.groupId s.epoch
      s.myEd25519Secret.1 s.pskResolver s.securityPolicy entropy)

def addMember (keyPackage : GroupKeyPackage) (entropy : PathEntropy)
    (welcomeEntropy : WelcomeEntropy) : SessionM (Bytes × Bytes) := do
  lift (KeyPackage.validateKeyPackage c keyPackage)
  reads (ensureNoPendingReinit "add_member")
  let out ← commitOwn c wire [some (.add (some keyPackage))] entropy
  let newLeafIdx ← lift (orError out.addedLeafIndices.head? (.groupProtocol "No leaf added"))
  let welcome ← reads fun s => Welcome.createWelcome c wire s.tree newLeafIdx out.joinerSecret
    s.groupId out.commit.epoch out.commit.confirmationMac out.groupContextHash
    (s.securityPolicy.policyBytes wire) s.myLeafIdx s.myEd25519Secret.1 welcomeEntropy
  modify (·.enterEpoch out.commit.epoch out.epochKeys out.newSenderStore out.groupContextHash)
  refreshExternalKeys c
  return (wire.commit.encode out.commit, wire.welcome.encode welcome)

def removeMember (removedLeafIdx : ℕ) (entropy : PathEntropy) : SessionM Bytes := do
  reads (ensureNoPendingReinit "remove_member")
  let out ← commitOwn c wire [some (.remove removedLeafIdx)] entropy
  modify (·.enterEpoch out.commit.epoch out.epochKeys out.newSenderStore out.groupContextHash)
  refreshExternalKeys c
  return wire.commit.encode out.commit

def update (entropy : PathEntropy) : SessionM Bytes := do
  reads (ensureNoPendingReinit "update")
  let out ← commitOwn c wire [] entropy
  modify (·.enterEpoch out.commit.epoch out.epochKeys out.newSenderStore out.groupContextHash)
  refreshExternalKeys c
  return wire.commit.encode out.commit

/-- The new group id of the first ReInit proposal. -/
def findReinit (proposals : List GroupProposal) : Option Bytes :=
  proposals.findSome? fun
    | some (.reInit reinit) => some reinit.newGroupId
    | _ => none

def createReinitCommit (newGroupId : Bytes) (newVersion : ℕ) (entropy : PathEntropy) :
    SessionM Bytes := do
  lift (require (newGroupId.length = groupIdBytes) (.invalidInput
    (s!"create_reinit_commit: new_group_id must be {groupIdBytes} bytes, " ++
      s!"got {newGroupId.length}")))
  reads (ensureNoPendingReinit "create_reinit_commit")
  let out ← commitOwn c wire [some (.reInit ⟨newGroupId, newVersion⟩)] entropy
  modify (·.enterEpoch out.commit.epoch out.epochKeys out.newSenderStore out.groupContextHash)
  let reinitGroupId ← lift (orError (findReinit out.commit.proposals)
    (.groupProtocol "ReInit proposal missing"))
  modify fun s => { s with pendingReinit := some ⟨reinitGroupId, newVersion⟩ }
  refreshExternalKeys c
  return wire.commit.encode out.commit

/-! ## Receiving a commit -/

/-- The loop of `process_commit` over the proposals: the last ReInit proposal is pending. -/
def noteReinit (pending : Option ReInitInfo) : GroupProposal → Option ReInitInfo
  | some (.reInit reinit) => some ⟨reinit.newGroupId, reinit.newVersion⟩
  | _ => pending

/-- The decoding of a commit message. -/
def decodeCommit (commitBytes : Bytes) : Except ProtocolError GroupCommit := do
  require (commitBytes.length ≤ maxGroupMessageSize) (.invalidInput
    s!"Commit message too large: {commitBytes.length} bytes (max {maxGroupMessageSize})")
  (wire.commit.decode commitBytes).mapError fun e => .decode s!"Commit decode: {e}"

def processCommit (commitBytes : Bytes) : SessionM Unit := do
  let commit ← lift (decodeCommit wire commitBytes)
  reads (ensureNoPendingReinit "process_commit")
  let (processed, treeCandidate) ← reads fun s => onCopy (Commit.processCommit c wire commit
    s.myLeafIdx s.initSecret s.groupId s.epoch s.pskResolver s.securityPolicy) s.tree
  modify fun s => { s with tree := treeCandidate }
  modify fun s => { s with pendingReinit := commit.proposals.foldl noteReinit s.pendingReinit }
  modify (·.enterEpoch commit.epoch processed.epochKeys processed.newSenderStore
    processed.groupContextHash)
  modify fun s => { s with lastSentMessageHash := zeroHash }
  refreshExternalKeys c

/-! ## Joining from outside -/

def exportPublicState (s : GroupSession) : Bytes :=
  wire.publicState.encode
    { version := groupProtocolVersion
      groupId := s.groupId
      epoch := s.epoch
      treeNodes := s.tree.exportPublic
      groupContextHash := s.groupContextHash
      confirmationMac :=
        GroupKeySchedule.computeConfirmationMac c s.epochKeys.confirmationKey s.groupContextHash
      externalX25519Public := s.externalX25519Public
      externalKyberPublic := s.externalKyberPublic
      securityPolicy := s.securityPolicy.policyBytes wire }

def ed25519SignGroupMessage (secretKey message : Bytes) : Except ProtocolError Bytes :=
  signWith c (.invalidInput "Invalid Ed25519 secret key size") secretKey message

def ed25519VerifyGroupMessageWithContext (publicKey signature message : Bytes)
    (context : String) : Except ProtocolError Unit :=
  verifyWith c (.invalidInput "Invalid Ed25519 public key size")
    (.invalidInput "Invalid Ed25519 signature size")
    (.peerPubKey "Invalid sender Ed25519 public key") (.groupProtocol context) publicKey
    signature message

def authorizeExternalJoin (joinerIdentityEd25519Public joinerIdentityX25519Public
    joinerCredential : Bytes) (now : Option ℕ) (s : GroupSession) :
    Except ProtocolError Bytes := do
  require (joinerIdentityEd25519Public.length = ed25519PublicKeyBytes) (.invalidInput
    "authorize_external_join: invalid joiner Ed25519 public key size")
  require (joinerIdentityX25519Public.length = x25519PublicKeyBytes) (.invalidInput
    "authorize_external_join: invalid joiner X25519 public key size")
  require (joinerCredential.length ≤ maxCredentialSize) (.invalidInput
    s!"authorize_external_join: credential too large (max {maxCredentialSize})")
  ensureNoPendingReinit "authorize_external_join" s
  require (s.securityPolicy.blockExternalJoin = false)
    (.groupProtocol "External join blocked by group security policy")
  let issuedAtUnix ← nowUnixSecs now
  let auth : GroupExternalJoinAuthorization :=
    { authFormatVersion := groupExternalJoinAuthFormatVersion
      groupId := s.groupId
      epoch := s.epoch
      joinerIdentityEd25519Public := joinerIdentityEd25519Public
      joinerIdentityX25519Public := joinerIdentityX25519Public
      joinerCredential := joinerCredential
      authorizerLeafIndex := s.myLeafIdx
      authorizerSignature := []
      groupContextHash := s.groupContextHash
      externalX25519Public := s.externalX25519Public
      externalKyberPublic := s.externalKyberPublic
      issuedAtUnix := issuedAtUnix
      expiresAtUnix := saturatingAdd issuedAtUnix externalJoinAuthValiditySecs }
  let signature ← ed25519SignGroupMessage c s.myEd25519Secret.1 (wire.authorization.encode auth)
  return wire.authorization.encode { auth with authorizerSignature := signature }

def validateExternalJoinAuthTimeWindow (issuedAtUnix expiresAtUnix : ℕ) (now : Option ℕ) :
    Except ProtocolError Unit := do
  require (issuedAtUnix ≠ 0 ∧ expiresAtUnix ≠ 0)
    (.groupProtocol "External join authorization timestamps are required")
  require (issuedAtUnix ≤ expiresAtUnix)
    (.groupProtocol "External join authorization expiry is before issue time")
  require (expiresAtUnix - issuedAtUnix ≤ externalJoinAuthValiditySecs)
    (.groupProtocol "External join authorization validity window is too large")
  let now ← nowUnixSecs now
  require (issuedAtUnix ≤ saturatingAdd now maxFutureTimestampSkewSecs) (.groupProtocol
    (s!"External join authorization issued_at {issuedAtUnix} is too far in the future " ++
      s!"(now {now})"))
  require (now ≤ expiresAtUnix) (.groupProtocol
    s!"External join authorization expired at {expiresAtUnix} (now {now})")

def validateExternalJoinAuthorizationForPublicState (t : RatchetTree)
    (publicState : GroupPublicState) (authorizationBytes joinerIdentityEd25519Public
    joinerIdentityX25519Public joinerCredential : Bytes) (now : Option ℕ) :
    Except ProtocolError Unit := do
  let auth ← Commit.decodeAuthorization wire authorizationBytes
  Commit.validateExternalJoinAuthFormatVersion auth.authFormatVersion
  require (auth.groupId = publicState.groupId)
    (.groupProtocol "External join authorization group_id mismatch")
  require (auth.epoch = publicState.epoch) (.groupProtocol
    (s!"External join authorization epoch mismatch: expected {publicState.epoch}, " ++
      s!"got {auth.epoch}"))
  require (auth.joinerIdentityEd25519Public = joinerIdentityEd25519Public ∧
      auth.joinerIdentityX25519Public = joinerIdentityX25519Public ∧
      auth.joinerCredential = joinerCredential)
    (.groupProtocol "External join authorization does not match joiner identity")
  require (auth.groupContextHash = publicState.groupContextHash)
    (.groupProtocol "External join authorization group_context_hash mismatch")
  require (auth.externalX25519Public = publicState.externalX25519Public ∧
      auth.externalKyberPublic = publicState.externalKyberPublic)
    (.groupProtocol "External join authorization external init key mismatch")
  validateExternalJoinAuthTimeWindow auth.issuedAtUnix auth.expiresAtUnix now
  let authorizerLeaf ← orError (t.getLeafData auth.authorizerLeafIndex)
    (.groupProtocol "External join authorizer leaf is blank")
  ed25519VerifyGroupMessageWithContext c authorizerLeaf.identityEd25519Public
    auth.authorizerSignature (Commit.authorizationContent wire auth)
    "External join authorization signature verification failed"

/-- The randomness of an external join. -/
structure JoinEntropy where
  ephemeral : Random32
  kyber : Bytes
  leaf : KeyPackage.KeyEntropy
  path : PathEntropy

/-- The first part of `from_external_join`: the checks of the public state and of the
authorization.  Gives the tree and the policy. -/
def checkPublicState (publicState : GroupPublicState) (authorizationBytes : Bytes)
    (identity : IdentityKeys c) (credential : Bytes) (now : Option ℕ) :
    Except ProtocolError (RatchetTree × GroupSecurityPolicy) := do
  require (publicState.version = groupProtocolVersion) (.groupProtocol
    s!"External join: unsupported public state version {publicState.version}")
  let securityPolicy ← GroupSecurityPolicy.fromProtoBytes wire publicState.securityPolicy
  securityPolicy.validate
  require (securityPolicy.blockExternalJoin = false)
    (.groupProtocol "External join blocked by group security policy")
  require (authorizationBytes ≠ []) (.groupProtocol "External join authorization is required")
  require (authorizationBytes.length ≤ maxGroupMessageSize)
    (.invalidInput "External join authorization too large")
  let tree ← RatchetTree.fromProto c publicState.treeNodes
  let treeHash ← tree.treeHash c
  require (GroupKeySchedule.computeGroupContextHash c publicState.groupId publicState.epoch
      treeHash publicState.securityPolicy = publicState.groupContextHash)
    (.groupProtocol "External join: group_context_hash mismatch")
  validateExternalJoinAuthorizationForPublicState c wire tree publicState authorizationBytes
    identity.ed25519.publicKey identity.identityX25519.publicKey credential now
  DhValidator.validateX25519PublicKey publicState.externalX25519Public
  KyberInterop.validatePublicKey c publicState.externalKyberPublic
  return (tree, securityPolicy)

/-- The key encapsulation of `from_external_join`: the init secret it stands for, the ephemeral
public key and the ciphertext. -/
def externalInit (publicState : GroupPublicState) (ephemeral : Random32) (kyber : Bytes) :
    Except ProtocolError (Bytes × Bytes × Bytes) := do
  let eph := X25519KeyPair.generate c ephemeral
  let dhShared := c.x25519 eph.secretKey publicState.externalX25519Public
  require (isAllZero dhShared = false) (.groupProtocol
    "External join X25519 DH produced all-zero output (RFC 7748 section 6.1)")
  let (kyberCt, kyberSsHandle) ← KyberInterop.encapsulate c publicState.externalKyberPublic kyber
  let kyberSs ← readBytes kyberSsHandle kyberSharedSecretBytes
  let initSecretProxy ← HkdfSha256.expand c (HkdfSha256.extract c dhShared kyberSs)
    groupExternalInitSecretInfo initSecretBytes
  return (initSecretProxy, eph.publicKey, kyberCt)

/-- `from_external_join_with_time_provider`. -/
def fromExternalJoin (publicStateBytes authorizationBytes : Bytes) (identity : IdentityKeys c)
    (credential : Bytes) (now : Option ℕ) (entropy : JoinEntropy) :
    Except ProtocolError (GroupSession × Bytes) := do
  require (publicStateBytes.length ≤ maxGroupMessageSize) (.invalidInput "Public state too large")
  let publicState ← (wire.publicState.decode publicStateBytes).mapError fun e =>
    .decode s!"GroupPublicState decode: {e}"
  let (tree, securityPolicy) ← checkPublicState c wire publicState authorizationBytes identity
    credential now
  let (initSecretProxy, ephX25519Pub, kyberCt) ← externalInit c publicState entropy.ephemeral
    entropy.kyber
  let (kp, _, _) ← KeyPackage.createKeyPackage c identity credential entropy.leaf
  let myLeafIdx := tree.nextLeafIndex
  let proposals : List GroupProposal :=
    [some (.externalInit ⟨ephX25519Pub, kyberCt, authorizationBytes⟩), some (.add (some kp))]
  let (out, tree) ← onCopy (Commit.createCommit c wire proposals myLeafIdx initSecretProxy
    publicState.groupId publicState.epoch identity.ed25519.secretKey none securityPolicy
    entropy.path) tree
  let ed25519Secret ← ed25519SecretToHandle identity.ed25519.secretKey
  let external ← GroupKeySchedule.deriveExternalKeypairs c out.epochKeys.initSecret
  return ({ groupId := publicState.groupId
            epoch := out.commit.epoch
            myLeafIdx := myLeafIdx
            tree := tree
            epochKeys := out.epochKeys
            initSecret := out.epochKeys.initSecret
            senderStore := out.newSenderStore
            groupContextHash := out.groupContextHash
            myIdentityEd25519Public := kp.identityEd25519Public
            myIdentityX25519Public := kp.identityX25519Public
            myEd25519Secret := ed25519Secret
            replayWindows := ∅
            externalX25519Public := external.x25519.publicKey
            externalKyberPublic := external.kyber.publicKey
            pskResolver := none
            pendingReinit := none
            lastSentMessageHash := zeroHash
            securityPolicy := securityPolicy }, wire.commit.encode out.commit)

end GroupSession

end AuraProtocol.Group
