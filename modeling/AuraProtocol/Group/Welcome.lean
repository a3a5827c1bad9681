import AuraProtocol.Group.Commit

/-!
# Welcome messages

`protocol/group/welcome.rs`.  The committer that adds a member sends it the joiner
secret, encrypted to the leaf of its key package, and the tree, encrypted under a
key from the joiner secret and the tree's hash.  The new member rebuilds the tree
and derives the epoch keys itself.
-/

namespace AuraProtocol.Group

open Fallible

structure WelcomeResult where
  tree : RatchetTree
  myLeafIdx : ℕ
  epoch : ℕ
  groupId : Bytes
  epochKeys : EpochKeys
  groupContextHash : Bytes
  senderStore : SenderKeyStore
  securityPolicyBytes : Bytes

/-- The randomness of a welcome: the nonce of the group info and the encryption of the joiner
secret. -/
structure WelcomeEntropy where
  nonce : { b : Bytes // b.length = aesGcmNonceBytes }
  joiner : SealEntropy

namespace Welcome

variable (c : Crypto) (wire : Wire)

/-- `append_len_prefixed`: a byte string after its length, as a little-endian `u64`. -/
def appendLenPrefixed (bytes : Bytes) : Bytes := leBytes 8 bytes.length ++ bytes

def welcomeSignatureInput (welcome : GroupWelcome) : Bytes :=
  let encryptedJoinerBytes :=
    (welcome.encryptedJoinerSecret.map wire.hybridCiphertext.encode).getD []
  welcomeProvenanceSignatureInfo ++ leBytes 4 welcome.version ++ leBytes 8 welcome.epoch ++
    leBytes 4 welcome.targetLeafIndex ++ leBytes 4 welcome.committerLeafIndex ++
    appendLenPrefixed welcome.groupId ++ appendLenPrefixed welcome.encryptedGroupInfo ++
    appendLenPrefixed welcome.welcomeNonce ++ appendLenPrefixed encryptedJoinerBytes ++
    appendLenPrefixed welcome.treeHash

def ed25519SignWelcome (secretKey message : Bytes) : Except ProtocolError Bytes :=
  signWith c (.invalidInput "Invalid Ed25519 secret key size") secretKey message

def ed25519VerifyWelcome (publicKey signature message : Bytes) : Except ProtocolError Unit :=
  verifyWith c (.welcomeError "Welcome committer Ed25519 public key has invalid size")
    (.welcomeError "Welcome committer signature has invalid size")
    (.welcomeError "Invalid Welcome committer Ed25519 key")
    (.welcomeError "Welcome committer signature verification failed") publicKey signature message

/-- The key the group info is encrypted under. -/
def welcomeKey (joinerSecret treeHash : Bytes) : Except ProtocolError Bytes := do
  let tempEpochSecret ←
    HkdfSha256.expand c joinerSecret (groupEpochSecretInfo ++ treeHash) epochSecretBytes
  HkdfSha256.expand c tempEpochSecret groupWelcomeKeyInfo welcomeKeyBytes

/-- The associated data of the encrypted group info. -/
def welcomeAad (groupId : Bytes) (epoch : ℕ) : Bytes := groupId ++ leBytes 8 epoch

def createWelcome (t : RatchetTree) (newMemberLeafIdx : ℕ) (joinerSecret groupId : Bytes)
    (epoch : ℕ) (confirmationMac groupContextHash securityPolicyBytes : Bytes)
    (committerLeafIndex : ℕ) (committerEd25519Secret : Bytes) (entropy : WelcomeEntropy) :
    Except ProtocolError GroupWelcome := do
  require (committerLeafIndex ≠ newMemberLeafIdx)
    (.welcomeError "Welcome committer cannot be the new member")
  require ((t.getLeafData committerLeafIndex).isSome = true)
    (.welcomeError "Welcome committer leaf is not present in tree")
  let treeHash ← t.treeHash c
  let key ← welcomeKey c joinerSecret treeHash
  let treeNodes ← t.exportForWelcome newMemberLeafIdx
  let groupInfoBytes := wire.groupInfo.encode
    { groupId, epoch, treeNodes, groupContextHash, confirmationMac
      securityPolicy := securityPolicyBytes }
  let encryptedGroupInfo ← AesGcm.encrypt c key entropy.nonce.1 groupInfoBytes
    (welcomeAad groupId epoch)
  let targetNode ← Tree.checkedLeafToNode newMemberLeafIdx
  let (targetX25519, targetKyber) ← orError (t.getNodePublicKeys targetNode)
    (.welcomeError "New member leaf is blank")
  let encryptedJoiner ← TreeKem.encryptPathSecret c joinerSecret targetX25519 targetKyber
    newMemberLeafIdx entropy.joiner
  let welcome : GroupWelcome :=
    { version := groupProtocolVersion
      groupId := groupId
      epoch := epoch
      encryptedGroupInfo := encryptedGroupInfo
      welcomeNonce := entropy.nonce.1
      encryptedJoinerSecret := some encryptedJoiner
      treeHash := treeHash
      targetLeafIndex := newMemberLeafIdx
      committerLeafIndex := committerLeafIndex
      committerSignature := [] }
  let signature ← ed25519SignWelcome c committerEd25519Secret (welcomeSignatureInput wire welcome)
  return { welcome with committerSignature := signature }

/-- The first part of `process_welcome`: the joiner secret and the group info it opens. -/
def openWelcome (welcome : GroupWelcome) (myX25519Private myKyberSecret : Bytes) :
    Except ProtocolError (Bytes × GroupInfo) := do
  require (welcome.version = groupProtocolVersion)
    (.welcomeError s!"Unsupported Welcome version: {welcome.version}")
  let encryptedJoiner ← orError welcome.encryptedJoinerSecret
    (.welcomeError "Missing encrypted joiner secret")
  let myLeafIdx := welcome.targetLeafIndex
  let joinerSecret ← (TreeKem.decryptPathSecret c encryptedJoiner myX25519Private myKyberSecret
    myLeafIdx).mapError fun e => .welcomeError
      s!"Failed to decrypt joiner secret at target leaf {myLeafIdx}: {e.display}"
  let key ← welcomeKey c joinerSecret welcome.treeHash
  let groupInfoBytes ← AesGcm.decrypt c key welcome.welcomeNonce welcome.encryptedGroupInfo
    (welcomeAad welcome.groupId welcome.epoch)
  require (groupInfoBytes.length ≤ maxGroupMessageSize)
    (.welcomeError "Decrypted GroupInfo too large")
  let groupInfo ← (wire.groupInfo.decode groupInfoBytes).mapError fun e =>
    .decode s!"GroupInfo decode: {e}"
  require (groupInfo.groupId = welcome.groupId)
    (.welcomeError "Welcome group_id mismatch between envelope and group_info")
  return (joinerSecret, groupInfo)

/-- The second part of `process_welcome`: the tree of the group info, with the member's own private
keys put into its leaf. -/
def rebuildTree (welcome : GroupWelcome) (groupInfo : GroupInfo)
    (myX25519Private myKyberSecret myIdentityEd25519 myIdentityX25519 : Bytes) :
    Except ProtocolError RatchetTree := do
  let myLeafIdx := welcome.targetLeafIndex
  let t ← RatchetTree.fromProto c groupInfo.treeNodes
  match t.getLeafData myLeafIdx with
  | some leafData =>
    require (leafData.identityEd25519Public = myIdentityEd25519 ∧
        leafData.identityX25519Public = myIdentityX25519)
      (.welcomeError "Identity mismatch: Welcome leaf does not match joiner identity keys")
  | none => throw (.welcomeError "My leaf is blank after Welcome reconstruction")
  let myNode ← Tree.checkedLeafToNode myLeafIdx
  Prod.snd <$> onCopy (RatchetTree.setNodePrivateKeys myNode myX25519Private myKyberSecret) t

/-- The third part of `process_welcome`: the signature of the committer. -/
def checkCommitter (t : RatchetTree) (welcome : GroupWelcome) (treeHash : Bytes) :
    Except ProtocolError Unit := do
  require (treeHash = welcome.treeHash) (.welcomeError "Tree hash mismatch")
  require (welcome.committerLeafIndex ≠ welcome.targetLeafIndex)
    (.welcomeError "Welcome committer cannot be the target member")
  let committer ← orError (t.getLeafData welcome.committerLeafIndex)
    (.welcomeError "Welcome committer leaf is not present")
  ed25519VerifyWelcome c committer.identityEd25519Public welcome.committerSignature
    (welcomeSignatureInput wire welcome)

def processWelcome (welcome : GroupWelcome)
    (myX25519Private myKyberSecret myIdentityEd25519 myIdentityX25519 : Bytes) :
    Except ProtocolError WelcomeResult := do
  let (joinerSecret, groupInfo) ← openWelcome c wire welcome myX25519Private myKyberSecret
  let t ← rebuildTree c welcome groupInfo myX25519Private myKyberSecret myIdentityEd25519
    myIdentityX25519
  let treeHash ← t.treeHash c
  checkCommitter c wire t welcome treeHash
  let groupContextHash := GroupKeySchedule.computeGroupContextHash c welcome.groupId welcome.epoch
    treeHash groupInfo.securityPolicy
  let policy ← GroupSecurityPolicy.fromProtoBytes wire groupInfo.securityPolicy
  policy.validate
  let epochSecret ←
    HkdfSha256.expand c joinerSecret (groupEpochSecretInfo ++ groupContextHash) epochSecretBytes
  let epochKeys ←
    GroupKeySchedule.deriveSubKeysFromEpochSecretEx c epochSecret policy.enhancedKeySchedule
  let expectedMac :=
    GroupKeySchedule.computeConfirmationMac c epochKeys.confirmationKey groupContextHash
  require (expectedMac = groupInfo.confirmationMac)
    (.welcomeError "Confirmation MAC verification failed")
  let senderStore ← Commit.newSenderStore c t epochKeys.epochSecret groupContextHash policy
  return { tree := t
           myLeafIdx := welcome.targetLeafIndex
           epoch := welcome.epoch
           groupId := welcome.groupId
           epochKeys := epochKeys
           groupContextHash := groupContextHash
           senderStore := senderStore
           securityPolicyBytes := groupInfo.securityPolicy }

end Welcome

end AuraProtocol.Group
