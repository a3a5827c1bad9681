import AuraProtocol.Group.SenderKey
import AuraProtocol.Group.TreeKem

/-!
# Proposals and commits

`protocol/group/membership.rs` and `protocol/group/commit.rs`.  A commit applies
its proposals to the tree, replaces the keys on the committer's direct path and
derives the keys of the next epoch.  `createCommit` changes the committer's own
tree as it goes, so where it fails decides which tree it leaves behind;
`processCommit` does the same at a receiver, who gives it a copy.
-/

namespace AuraProtocol.Group

open Fallible
open Session (readBytes)

variable {proposals : List GroupProposal}

/-! ## Proposals -/

namespace Membership

variable (c : Crypto)

/-- What `validate_proposal_shapes` has seen: the leaves to remove, the identities to add and the
number of ReInit proposals. -/
structure Seen where
  removedLeaves : List ℕ
  addedIdentityKeys : List Bytes
  reinitCount : ℕ

/-- The body of the loop of `validate_proposal_shapes`. -/
def checkShape (seen : Seen) : GroupProposal → Except ProtocolError Seen
  | some (.add keyPackage) => do
    let kp ← orError keyPackage (.groupMembership "Add proposal missing key package")
    KeyPackage.validateKeyPackage c kp
    require (kp.identityEd25519Public ∉ seen.addedIdentityKeys)
      (.groupMembership "Duplicate Add proposal: same identity key added twice")
    return { seen with addedIdentityKeys := kp.identityEd25519Public :: seen.addedIdentityKeys }
  | some (.remove removedLeafIndex) => do
    require (removedLeafIndex ∉ seen.removedLeaves)
      (.groupMembership s!"Duplicate Remove proposal for leaf {removedLeafIndex}")
    return { seen with removedLeaves := removedLeafIndex :: seen.removedLeaves }
  | some (.update u) => do
    (DhValidator.validateX25519PublicKey u.leafX25519Public).mapError fun error =>
      .groupMembership s!"Update proposal has invalid X25519 leaf key: {error.display}"
    KyberInterop.validatePublicKey c u.leafKyberPublic
    return seen
  | some (.externalInit ext) => do
    (DhValidator.validateX25519PublicKey ext.ephemeralX25519Public).mapError fun error =>
      .groupMembership s!"ExternalInit has invalid ephemeral X25519 key: {error.display}"
    KyberInterop.validateCiphertext ext.kyberCiphertext
    require (ext.authorization ≠ []) (.groupMembership "ExternalInit authorization is required")
    return seen
  | some (.psk p) => do
    require (p.pskId ≠ []) (.groupMembership "PSK proposal: empty psk_id")
    require (p.pskNonce.length = pskBytes) (.groupMembership
      s!"PSK proposal: psk_nonce must be {pskBytes} bytes, got {p.pskNonce.length}")
    return seen
  | some (.reInit r) => do
    require (r.newGroupId.length = groupIdBytes) (.groupMembership
      s!"ReInit: new_group_id must be {groupIdBytes} bytes, got {r.newGroupId.length}")
    return { seen with reinitCount := seen.reinitCount + 1 }
  | none => throw (.groupMembership "Empty proposal")

def validateProposalShapes (proposals : List GroupProposal) : Except ProtocolError Unit := do
  require (proposals.length ≤ maxProposalsPerCommit) (.groupMembership
    s!"Too many proposals: {proposals.length} (max {maxProposalsPerCommit})")
  let seen ← proposals.foldlM (checkShape c) ⟨[], [], 0⟩
  require (seen.reinitCount ≤ 1)
    (.groupMembership "ReInit proposal must appear at most once")
  require (¬(seen.reinitCount = 1 ∧ proposals.length ≠ 1))
    (.groupMembership "ReInit commit must not contain other proposal types")

/-- The body of the loop of `validate_proposals`. -/
def checkAgainstTree (t : RatchetTree) (committerLeafIdx : ℕ) :
    GroupProposal → Except ProtocolError Unit
  | some (.add keyPackage) => do
    let kp ← orError keyPackage (.groupMembership "Add proposal missing key package")
    require (∀ leaf ∈ t.leaves, ∀ ld ∈ leaf, ld.identityEd25519Public ≠ kp.identityEd25519Public)
      (.groupMembership "Add proposal: identity key already exists in group tree")
  | some (.remove leafIdx) => do
    require (leafIdx < t.leafCount)
      (.groupMembership s!"Remove: leaf index {leafIdx} out of range")
    require ((t.getLeafData leafIdx).isSome = true)
      (.groupMembership s!"Remove: leaf {leafIdx} is already blank")
    require (leafIdx ≠ committerLeafIdx) (.groupMembership "Cannot remove the committer")
  | some (.update _) | some (.externalInit _) | some (.psk _) | some (.reInit _) => .ok ()
  -- the check of the shapes has rejected empty proposals
  | none => .ok ()

def validateProposals (t : RatchetTree) (proposals : List GroupProposal) (committerLeafIdx : ℕ) :
    Except ProtocolError Unit := do
  validateProposalShapes c proposals
  proposals.forM (checkAgainstTree t committerLeafIdx)

def applyAdd (keyPackage : Option GroupKeyPackage) : TreeM ℕ := do
  let kp ← lift (orError keyPackage (.groupMembership "Add proposal missing key package"))
  RatchetTree.addLeaf kp.leafX25519Public kp.leafKyberPublic (.ofKeyPackage kp)

/-- The Remove proposals of a list, in order. -/
def removals (proposals : List GroupProposal) : List ℕ :=
  proposals.filterMap fun
    | some (.remove leafIdx) => some leafIdx
    | _ => none

/-- The Add proposals of a list, in order. -/
def additions (proposals : List GroupProposal) : List (Option GroupKeyPackage) :=
  proposals.filterMap fun
    | some (.add keyPackage) => some keyPackage
    | _ => none

/-- `apply_proposals`: first all removals, then all additions; the leaves added. -/
def applyProposals (proposals : List GroupProposal) : TreeM (List ℕ) := do
  (removals proposals).forM RatchetTree.blankLeaf
  (additions proposals).mapM applyAdd

end Membership

/-! ## Creating a commit -/

structure CommitOutput where
  commit : GroupCommit
  epochKeys : EpochKeys
  newSenderStore : SenderKeyStore
  addedLeafIndices : List ℕ
  groupContextHash : Bytes
  joinerSecret : Bytes

structure ProcessedCommit where
  epochKeys : EpochKeys
  newSenderStore : SenderKeyStore
  addedLeafIndices : List ℕ
  groupContextHash : Bytes

/-- A `PskResolver`: the pre-shared key of an id. -/
abbrev PskResolver := Bytes → Option Bytes

variable {pskResolver : Option PskResolver}

namespace Commit

variable (c : Crypto) (wire : Wire)

def ed25519SignCommit (secretKey message : Bytes) : Except ProtocolError Bytes :=
  signWith c (.invalidInput "Invalid Ed25519 secret key size for commit signing") secretKey message

def ed25519VerifyMessage (publicKey signature message : Bytes) (context : String) :
    Except ProtocolError Unit :=
  verifyWith c (.invalidInput "Invalid committer Ed25519 public key size")
    (.invalidInput "Invalid committer signature size")
    (.groupProtocol "Invalid committer Ed25519 public key") (.groupProtocol context) publicKey
    signature message

def ed25519VerifyCommit (publicKey signature message : Bytes) : Except ProtocolError Unit :=
  ed25519VerifyMessage c publicKey signature message
    "Committer Ed25519 signature verification failed"

/-- The loop of `apply_psk_proposals`: the epoch secret, and whether a PSK was mixed in. -/
def injectPsks (pskResolver : Option PskResolver) :
    Bytes × Bool → List GroupProposal → Except ProtocolError (Bytes × Bool)
  | acc, [] => .ok acc
  | (epochSecret, hasPsk), proposal :: rest =>
    match proposal with
    | some (.psk psk) => do
      let resolver ← orError pskResolver
        (.groupProtocol "PSK proposal present but no PSK resolver configured")
      let pskValue ← orError (resolver psk.pskId)
        (.groupProtocol s!"No PSK found for id {psk.pskId}")
      let epochSecret ← GroupKeySchedule.injectPsk c epochSecret pskValue psk.pskNonce
      injectPsks pskResolver (epochSecret, true) rest
    | _ => injectPsks pskResolver (epochSecret, hasPsk) rest

def applyPskProposals (epochKeys : EpochKeys) (proposals : List GroupProposal)
    (pskResolver : Option PskResolver) (enhancedKeySchedule : Bool) :
    Except ProtocolError EpochKeys := do
  let (epochSecret, hasPsk) ← injectPsks c pskResolver (epochKeys.epochSecret, false) proposals
  if hasPsk then
    GroupKeySchedule.deriveSubKeysFromEpochSecretEx c epochSecret enhancedKeySchedule
  else return epochKeys

/-- What the key schedule gives for a new epoch. -/
structure NewEpoch where
  groupContextHash : Bytes
  epochKeys : EpochKeys
  confirmationMac : Bytes

/-- The key schedule of a commit: the middle of `create_commit` and `process_commit`. -/
def deriveNewEpoch (groupId : Bytes) (newEpoch : ℕ) (treeHash initSecret commitSecret : Bytes)
    (proposals : List GroupProposal) (pskResolver : Option PskResolver)
    (policy : GroupSecurityPolicy) : Except ProtocolError NewEpoch := do
  let groupContextHash := GroupKeySchedule.computeGroupContextHash c groupId newEpoch treeHash
    (policy.policyBytes wire)
  let epochKeys ← GroupKeySchedule.deriveEpochKeys c initSecret commitSecret groupContextHash
    policy.enhancedKeySchedule
  let epochKeys ← applyPskProposals c epochKeys proposals pskResolver policy.enhancedKeySchedule
  return ⟨groupContextHash, epochKeys,
    GroupKeySchedule.computeConfirmationMac c epochKeys.confirmationKey groupContextHash⟩

/-- The sender store of a new epoch: a chain for every occupied leaf. -/
def newSenderStore (t : RatchetTree) (epochSecret groupContextHash : Bytes)
    (policy : GroupSecurityPolicy) : Except ProtocolError SenderKeyStore :=
  SenderKeyStore.newEpochWithPolicy c epochSecret t.populatedLeafIndices groupContextHash
    policy.enhancedKeySchedule policy.effectiveMaxMessagesPerEpoch
    policy.effectiveMaxSkippedPerSender

/-- `create_commit` up to the signed update path: it reads the tree only. -/
def signedUpdatePath (t : RatchetTree) (myLeafIdx : ℕ) (ed25519Secret : Bytes)
    (entropy : PathEntropy) : Except ProtocolError UpdatePathOutput := do
  let out ← TreeKem.createUpdatePath c t myLeafIdx entropy
  let myLeaf ← orError (t.getLeafData myLeafIdx) (.groupProtocol
    s!"Committer leaf {myLeafIdx} is blank before update path signing")
  let leafSignature ← KeyPackage.signExistingKeyPackage c ed25519Secret
    myLeaf.identityEd25519Public myLeaf.identityX25519Public myLeaf.identityKyberPublic
    out.updatePath.leafX25519Public out.updatePath.leafKyberPublic myLeaf.credential
  return { out with updatePath := { out.updatePath with leafSignature := leafSignature } }

/-- The part of `create_commit` that puts the new path into the committer's tree. -/
def installUpdatePath (myLeafIdx : ℕ) (out : UpdatePathOutput) : TreeM Unit := do
  let leafNode ← lift (Tree.checkedLeafToNode myLeafIdx)
  RatchetTree.setNodePublicKeys leafNode out.updatePath.leafX25519Public
    out.updatePath.leafKyberPublic
  RatchetTree.setLeafSignature myLeafIdx out.updatePath.leafSignature
  let directPath ← reads fun t => Tree.directPath myLeafIdx t.leafCount
  let path := directPath.zip out.updatePath.nodes
  path.forM fun (nodeIdx, node) =>
    RatchetTree.setNodePublicKeys nodeIdx node.x25519Public node.kyberPublic
  path.forM fun (nodeIdx, node) =>
    if node.parentHash = [] then pure () else RatchetTree.setNodeParentHash nodeIdx node.parentHash
  out.newPrivateKeys.forM fun (nodeIdx, x25519Private, kyberSecret) =>
    RatchetTree.setNodePrivateKeys nodeIdx x25519Private kyberSecret

/-- The part of `create_commit` after the new path is in the tree. -/
def finishCommit (t : RatchetTree) (proposals : List GroupProposal) (myLeafIdx : ℕ)
    (prevInitSecret groupId : Bytes) (epoch : ℕ) (ed25519Secret : Bytes)
    (pskResolver : Option PskResolver) (policy : GroupSecurityPolicy) (out : UpdatePathOutput)
    (addedLeafIndices : List ℕ) : Except ProtocolError CommitOutput := do
  let treeHash ← t.treeHash c
  let newEpoch ← orError (checkedAdd epoch 1) (.groupProtocol "Epoch counter overflow")
  let next ← deriveNewEpoch c wire groupId newEpoch treeHash prevInitSecret out.commitSecret
    proposals pskResolver policy
  let store ← newSenderStore c t next.epochKeys.epochSecret next.groupContextHash policy
  let commit : GroupCommit :=
    { committerLeafIndex := myLeafIdx
      proposals := proposals
      updatePath := some out.updatePath
      confirmationMac := next.confirmationMac
      epoch := newEpoch
      groupId := groupId
      committerSignature := [] }
  let signature ← ed25519SignCommit c ed25519Secret (wire.commit.encode commit)
  return { commit := { commit with committerSignature := signature }
           epochKeys := next.epochKeys
           newSenderStore := store
           addedLeafIndices := addedLeafIndices
           groupContextHash := next.groupContextHash
           joinerSecret :=
             GroupKeySchedule.deriveJoinerSecret c prevInitSecret out.commitSecret }

def createCommit (proposals : List GroupProposal) (myLeafIdx : ℕ) (prevInitSecret groupId : Bytes)
    (epoch : ℕ) (ed25519Secret : Bytes) (pskResolver : Option PskResolver)
    (policy : GroupSecurityPolicy) (entropy : PathEntropy) : TreeM CommitOutput := do
  reads fun t => Membership.validateProposals c t proposals myLeafIdx
  let addedLeafIndices ← Membership.applyProposals proposals
  let out ← reads fun t => signedUpdatePath c t myLeafIdx ed25519Secret entropy
  installUpdatePath myLeafIdx out
  reads fun t => finishCommit c wire t proposals myLeafIdx prevInitSecret groupId epoch
    ed25519Secret pskResolver policy out addedLeafIndices

/-! ## External joins -/

/-- The first ExternalInit proposal of a list. -/
def findExternalInit (proposals : List GroupProposal) : Option GroupExternalInitProposal :=
  proposals.findSome? fun
    | some (.externalInit ext) => some ext
    | _ => none

/-- The key package of the first Add proposal that has one. -/
def findAddKeyPackage (proposals : List GroupProposal) : Option GroupKeyPackage :=
  proposals.findSome? fun
    | some (.add keyPackage) => keyPackage
    | _ => none

/-- `find_and_process_external_init`: the init secret an ExternalInit proposal brings, if there is
one. -/
def findAndProcessExternalInit (proposals : List GroupProposal) (prevInitSecret : Bytes) :
    Except ProtocolError (Option Bytes) :=
  match findExternalInit proposals with
  | none => .ok none
  | some ext => do
    require (ext.ephemeralX25519Public.length = x25519PublicKeyBytes) (.groupProtocol
      (s!"ExternalInit ephemeral_x25519_public must be {x25519PublicKeyBytes} bytes, " ++
        s!"got {ext.ephemeralX25519Public.length}"))
    (DhValidator.validateX25519PublicKey ext.ephemeralX25519Public).mapError fun e =>
      .groupProtocol s!"ExternalInit ephemeral X25519 key rejected: {e.display}"
    require (ext.kyberCiphertext.length = kyberCiphertextBytes) (.groupProtocol
      (s!"ExternalInit kyber_ciphertext must be {kyberCiphertextBytes} bytes, " ++
        s!"got {ext.kyberCiphertext.length}"))
    let external ← GroupKeySchedule.deriveExternalKeypairs c prevInitSecret
    let dhShared := c.x25519 external.x25519.secretKey ext.ephemeralX25519Public
    require (isAllZero dhShared = false) (.groupProtocol
      "ExternalInit X25519 DH produced all-zero output (RFC 7748 section 6.1)")
    let kyberSsHandle ← KyberInterop.decapsulate c ext.kyberCiphertext external.kyber.secretKey
    let kyberSs ← readBytes kyberSsHandle kyberSharedSecretBytes
    some <$> HkdfSha256.expand c (HkdfSha256.extract c dhShared kyberSs)
      groupExternalInitSecretInfo initSecretBytes

/-- The loop of `validate_external_join_structure`: the numbers of ExternalInit and of Add
proposals. -/
def countExternalJoin (counts : ℕ × ℕ) : GroupProposal → Except ProtocolError (ℕ × ℕ)
  | some (.externalInit _) => .ok (counts.1 + 1, counts.2)
  | some (.add _) => .ok (counts.1, counts.2 + 1)
  | some (.remove _) => .error (forbidden "Remove")
  | some (.update _) => .error (forbidden "Update")
  | some (.psk _) => .error (forbidden "PSK")
  | some (.reInit _) => .error (forbidden "ReInit")
  | none => .error (forbidden "empty")
where
  forbidden (kind : String) : ProtocolError :=
    .groupProtocol s!"External join commit must not contain {kind} proposals"

def validateExternalJoinStructure (proposals : List GroupProposal) :
    Except ProtocolError Unit := do
  let (extInitCount, addCount) ← proposals.foldlM countExternalJoin (0, 0)
  require (extInitCount = 1) (.groupProtocol
    s!"External join commit must contain exactly 1 ExternalInit, got {extInitCount}")
  require (addCount = 1) (.groupProtocol
    s!"External join commit must contain exactly 1 Add proposal, got {addCount}")

def validateExternalJoinAuthFormatVersion (authFormatVersion : ℕ) : Except ProtocolError Unit :=
  require (authFormatVersion = groupExternalJoinAuthFormatVersion) (.groupProtocol
    (s!"Unsupported external join authorization format version: " ++
      s!"expected {groupExternalJoinAuthFormatVersion}, got {authFormatVersion}"))

/-- The decoding of an authorization. -/
def decodeAuthorization (bytes : Bytes) : Except ProtocolError GroupExternalJoinAuthorization :=
  (wire.authorization.decode bytes).mapError fun e => .decode s!"External join auth decode: {e}"

/-- The bytes an authorization's signature is over. -/
def authorizationContent (auth : GroupExternalJoinAuthorization) : Bytes :=
  wire.authorization.encode { auth with authorizerSignature := [] }

def validateExternalJoinAuthorization (t : RatchetTree) (groupId : Bytes) (currentEpoch : ℕ)
    (prevInitSecret : Bytes) (policy : GroupSecurityPolicy) (proposals : List GroupProposal) :
    Except ProtocolError Unit := do
  let externalInit ← orError (findExternalInit proposals)
    (.groupProtocol "External join commit missing ExternalInit proposal")
  let addKeyPackage ← orError (findAddKeyPackage proposals)
    (.groupProtocol "External join commit missing Add proposal with KeyPackage")
  require (externalInit.authorization ≠ [])
    (.groupProtocol "External join authorization is required")
  let auth ← decodeAuthorization wire externalInit.authorization
  validateExternalJoinAuthFormatVersion auth.authFormatVersion
  require (auth.groupId = groupId)
    (.groupProtocol "External join authorization group_id mismatch")
  require (auth.epoch = currentEpoch) (.groupProtocol
    (s!"External join authorization epoch mismatch: expected {currentEpoch}, " ++
      s!"got {auth.epoch}"))
  let treeHash ← t.treeHash c
  require (auth.groupContextHash = GroupKeySchedule.computeGroupContextHash c groupId currentEpoch
      treeHash (policy.policyBytes wire))
    (.groupProtocol "External join authorization group_context_hash mismatch")
  let external ← GroupKeySchedule.deriveExternalKeypairs c prevInitSecret
  require (auth.externalX25519Public = external.x25519.publicKey ∧
      auth.externalKyberPublic = external.kyber.publicKey)
    (.groupProtocol "External join authorization external init key mismatch")
  require (auth.joinerIdentityEd25519Public = addKeyPackage.identityEd25519Public ∧
      auth.joinerIdentityX25519Public = addKeyPackage.identityX25519Public ∧
      auth.joinerCredential = addKeyPackage.credential)
    (.groupProtocol "External join authorization does not match Add proposal identity")
  let authorizerLeaf ← orError (t.getLeafData auth.authorizerLeafIndex)
    (.groupProtocol "External join authorizer leaf is blank")
  ed25519VerifyMessage c authorizerLeaf.identityEd25519Public auth.authorizerSignature
    (authorizationContent wire auth) "External join authorization signature verification failed"

/-! ## Processing a commit -/

/-- Whether a commit joins a member from outside. -/
def isExternalJoin (proposals : List GroupProposal) : Bool := (findExternalInit proposals).isSome

def validateLeafUpdateSignature (committerLeaf : LeafData) (updatePath : GroupUpdatePath) :
    Except ProtocolError Unit :=
  KeyPackage.validateKeyPackage c
    { version := groupProtocolVersion
      identityEd25519Public := committerLeaf.identityEd25519Public
      identityX25519Public := committerLeaf.identityX25519Public
      leafX25519Public := updatePath.leafX25519Public
      leafKyberPublic := updatePath.leafKyberPublic
      signature := updatePath.leafSignature
      credential := committerLeaf.credential
      createdAt := none
      identityKyberPublic := committerLeaf.identityKyberPublic }

/-- The first part of `process_commit`: everything that is checked before a proposal is applied.
Gives the init secret of the new epoch. -/
def checkCommit (t : RatchetTree) (commit : GroupCommit) (prevInitSecret groupId : Bytes)
    (currentEpoch : ℕ) (policy : GroupSecurityPolicy) : Except ProtocolError Bytes := do
  let expectedEpoch ← orError (checkedAdd currentEpoch 1) (.groupProtocol "Epoch counter overflow")
  require (commit.epoch = expectedEpoch) (.groupProtocol
    s!"Commit epoch mismatch: expected {expectedEpoch}, got {commit.epoch}")
  require (commit.groupId = groupId)
    (.groupProtocol "Commit group_id does not match current group")
  if isExternalJoin commit.proposals then
    require (policy.blockExternalJoin = false)
      (.groupProtocol "External join blocked by group security policy")
    validateExternalJoinStructure commit.proposals
    validateExternalJoinAuthorization c wire t groupId currentEpoch prevInitSecret policy
      commit.proposals
  else
    require (commit.committerLeafIndex < t.leafCount) (.groupProtocol
      (s!"Committer leaf index {commit.committerLeafIndex} out of range " ++
        s!"(tree has {t.leafCount} leaves)"))
  let committerEd25519 ←
    if isExternalJoin commit.proposals then
      orError ((findAddKeyPackage commit.proposals).map (·.identityEd25519Public))
        (.groupProtocol "External join commit missing Add proposal with KeyPackage")
    else
      orError ((t.getLeafData commit.committerLeafIndex).map (·.identityEd25519Public))
        (.groupProtocol
          s!"Committer leaf {commit.committerLeafIndex} is blank — cannot verify signature")
  ed25519VerifyCommit c committerEd25519 commit.committerSignature
    (wire.commit.encode { commit with committerSignature := [] })
  let effectiveInitSecret ← findAndProcessExternalInit c commit.proposals prevInitSecret
  Membership.validateProposals c t commit.proposals commit.committerLeafIndex
  return effectiveInitSecret.getD prevInitSecret

/-- The checks of `process_commit` after the proposals are applied: the update path. -/
def checkApplied (t : RatchetTree) (commit : GroupCommit) (addedLeafIndices : List ℕ) :
    Except ProtocolError GroupUpdatePath := do
  require (isExternalJoin commit.proposals = false ∨
      commit.committerLeafIndex ∈ addedLeafIndices) (.groupProtocol
    (s!"External join committer_leaf_index {commit.committerLeafIndex} " ++
      "does not match the added leaf"))
  require (commit.committerLeafIndex < t.leafCount) (.groupProtocol
    (s!"Committer leaf index {commit.committerLeafIndex} out of range after proposal " ++
      s!"application (tree has {t.leafCount})"))
  let committerLeaf ← orError (t.getLeafData commit.committerLeafIndex) (.groupProtocol
    s!"Committer leaf {commit.committerLeafIndex} is blank after proposal application")
  let updatePath ← orError commit.updatePath (.groupProtocol "Commit missing update_path")
  validateLeafUpdateSignature c committerLeaf updatePath
  return updatePath

/-- The part of `process_commit` after the path is installed. -/
def finishProcess (t : RatchetTree) (commit : GroupCommit) (groupId initSecret commitSecret : Bytes)
    (pskResolver : Option PskResolver) (policy : GroupSecurityPolicy)
    (addedLeafIndices : List ℕ) : Except ProtocolError ProcessedCommit := do
  let treeHash ← t.treeHash c
  let next ← deriveNewEpoch c wire groupId commit.epoch treeHash initSecret commitSecret
    commit.proposals pskResolver policy
  require (next.confirmationMac = commit.confirmationMac)
    (.groupProtocol "Confirmation MAC verification failed")
  let store ← newSenderStore c t next.epochKeys.epochSecret next.groupContextHash policy
  return ⟨next.epochKeys, store, addedLeafIndices, next.groupContextHash⟩

def processCommit (commit : GroupCommit) (myLeafIdx : ℕ) (prevInitSecret groupId : Bytes)
    (currentEpoch : ℕ) (pskResolver : Option PskResolver) (policy : GroupSecurityPolicy) :
    TreeM ProcessedCommit := do
  let initSecret ← reads fun t =>
    checkCommit c wire t commit prevInitSecret groupId currentEpoch policy
  let addedLeafIndices ← Membership.applyProposals commit.proposals
  let updatePath ← reads fun t => checkApplied c t commit addedLeafIndices
  let commitSecret ← TreeKem.processUpdatePath c updatePath commit.committerLeafIndex myLeafIdx
  RatchetTree.setLeafSignature commit.committerLeafIndex updatePath.leafSignature
  reads fun t => finishProcess c wire t commit groupId initSecret commitSecret pskResolver policy
    addedLeafIndices

/-! ## Totality of the key schedule -/

variable {c wire}

/-- After PSKs are mixed in the epoch secret still has full size. -/
theorem length_injectPsks {acc out : Bytes × Bool} (hacc : acc.1.length = 32)
    (h : injectPsks c pskResolver acc proposals = .ok out) : out.1.length = 32 := by
  fun_induction injectPsks c pskResolver acc proposals with
  | case1 acc =>
    obtain rfl : acc = out := Except.ok.inj h
    exact hacc
  | case2 secret hasPsk rest p ih =>
    simp only [except_bind_eq_ok] at h
    obtain ⟨resolver, -, value, -, secret', hsecret, hrest⟩ := h
    obtain ⟨k, hk, hlen⟩ := GroupKeySchedule.exists_injectPsk (c := c) secret value p.pskNonce
    obtain rfl : secret' = k := Except.ok.inj (hsecret.symm.trans hk)
    exact ih secret' hlen hrest
  | case3 secret hasPsk proposal rest _ ih => exact ih hacc h

/-- The keys a commit derives have full size. -/
theorem fullSize_of_deriveNewEpoch {groupId : Bytes} {newEpoch : ℕ}
    {treeHash initSecret commitSecret : Bytes} {policy : GroupSecurityPolicy} {next : NewEpoch}
    (h : deriveNewEpoch c wire groupId newEpoch treeHash initSecret commitSecret proposals
      pskResolver policy = .ok next) : GroupKeySchedule.FullSize next.epochKeys := by
  simp only [deriveNewEpoch, except_bind_eq_ok] at h
  obtain ⟨keys, hkeys, keys', hpsk, hnext⟩ := h
  obtain ⟨k, hk, hfull⟩ := GroupKeySchedule.exists_deriveEpochKeys (c := c) initSecret commitSecret
    (GroupKeySchedule.computeGroupContextHash c groupId newEpoch treeHash (policy.policyBytes wire))
    policy.enhancedKeySchedule
  obtain rfl : keys = k := Except.ok.inj (hkeys.symm.trans hk)
  cases hnext
  simp only [applyPskProposals, except_bind_eq_ok] at hpsk
  obtain ⟨⟨secret, hasPsk⟩, hinject, hpsk⟩ := hpsk
  have hlen : secret.length = 32 := length_injectPsks hfull.epochSecret hinject
  cases hasPsk with
  | false =>
    obtain rfl : keys = keys' := Except.ok.inj hpsk
    exact hfull
  | true =>
    obtain ⟨k', hk', hfull'⟩ := GroupKeySchedule.exists_deriveSubKeys (c := c) hlen
      policy.enhancedKeySchedule
    obtain rfl : keys' = k' := Except.ok.inj (Eq.trans hpsk.symm hk')
    exact hfull'

end Commit

end AuraProtocol.Group
