import AuraProtocol.Group.Tree

/-!
# Update paths

`TreeKem` of `protocol/group/tree_kem.rs`.  A committer draws a path secret for the
lowest node of its direct path, derives one for every node above and the node's
key pairs from it, and encrypts it to the resolution of the co-path node at that
level.  A receiver opens the one secret that is addressed to it and derives the
rest.

The committer only reads the tree; the receiver's `process_update_path` changes
it, and runs on a copy.
-/

namespace AuraProtocol.Group

open Fallible
open Session (readBytes)

/-- The randomness of one hybrid encryption. -/
structure SealEntropy where
  ephemeral : Random32
  kyber : Bytes
  nonce : { b : Bytes // b.length = aesGcmNonceBytes }

/-- The randomness of an update path: the commit secret of a group of one, the keys of the leaf, the
first path secret, and what each encryption draws, by level and place in the resolution. -/
structure PathEntropy where
  commitSecret : Random32
  leaf : KeyPackage.KeyEntropy
  pathSecret : Random32
  encryption : ℕ → ℕ → SealEntropy

/-- What `create_update_path` returns. -/
structure UpdatePathOutput where
  updatePath : GroupUpdatePath
  commitSecret : Bytes
  newPrivateKeys : List (ℕ × Bytes × Bytes)

namespace TreeKem

variable (c : Crypto)

/-! ## Hybrid encryption -/

/-- The key of a hybrid ciphertext. -/
def hybridKey (kyberSs dhShared : Bytes) : Except ProtocolError Bytes :=
  HkdfSha256.deriveKeyBytes c kyberSs aesKeyBytes (groupHybridSaltPrefix ++ dhShared)
    groupHybridPathInfo

def encryptPathSecret (pathSecret targetX25519Public targetKyberPublic : Bytes) (nodeIndex : ℕ)
    (entropy : SealEntropy) : Except ProtocolError GroupHybridCiphertext := do
  let eph := X25519KeyPair.generate c entropy.ephemeral
  require (targetX25519Public.length = x25519PublicKeyBytes)
    (.groupProtocol "Invalid X25519 public key size")
  let dhShared := c.x25519 eph.secretKey targetX25519Public
  require (isAllZero dhShared = false) (.groupProtocol
    "X25519 DH produced all-zero output in encrypt_path_secret (RFC 7748 section 6.1)")
  let (kyberCt, kyberSsHandle) ← KyberInterop.encapsulate c targetKyberPublic entropy.kyber
  let kyberSs ← readBytes kyberSsHandle kyberSharedSecretBytes
  let key ← hybridKey c kyberSs dhShared
  let encrypted ← AesGcm.encrypt c key entropy.nonce.1 pathSecret (leBytes 4 nodeIndex)
  return ⟨eph.publicKey, kyberCt, encrypted, entropy.nonce.1⟩

def decryptPathSecret (ciphertext : GroupHybridCiphertext) (x25519Private kyberSecret : Bytes)
    (nodeIndex : ℕ) : Except ProtocolError Bytes := do
  (DhValidator.validateX25519PublicKey ciphertext.ephemeralX25519Public).mapError fun e =>
    .groupProtocol s!"decrypt_path_secret: invalid ephemeral X25519 key: {e.display}"
  (KyberInterop.validateCiphertext ciphertext.kyberCiphertext).mapError fun e =>
    .groupProtocol s!"decrypt_path_secret: invalid Kyber ciphertext: {e.cryptoText}"
  let sk ← readBytes x25519Private x25519PrivateKeyBytes
  let dhShared := c.x25519 sk ciphertext.ephemeralX25519Public
  require (isAllZero dhShared = false) (.groupProtocol
    "X25519 DH produced all-zero output in decrypt_path_secret (RFC 7748 section 6.1)")
  let kyberSsHandle ← KyberInterop.decapsulate c ciphertext.kyberCiphertext kyberSecret
  let kyberSs ← readBytes kyberSsHandle kyberSharedSecretBytes
  let key ← hybridKey c kyberSs dhShared
  AesGcm.decrypt c key ciphertext.nonce ciphertext.encryptedSecret (leBytes 4 nodeIndex)

/-! ## Path secrets -/

def deriveNodeKeypairs (pathSecret : Bytes) : Except ProtocolError (HybridKeyPair c) := do
  let x25519Seed ← HkdfSha256.expand c pathSecret (groupNodeKeyInfo ++ ascii "x25519")
    x25519PrivateKeyBytes
  let x25519 ← X25519KeyPair.ofSeed c x25519Seed (.treeIntegrity "X25519 seed has wrong length")
  let kyberSeed ← HkdfSha256.expand c pathSecret (groupNodeKeyInfo ++ ascii "kyber")
    kyberSeedKeyBytes
  let kyber ← KyberKeyPair.generateFromSeed c kyberSeed
  return { x25519, kyber }

def deriveNextPathSecret (current : Bytes) (level : ℕ) : Except ProtocolError Bytes :=
  HkdfSha256.expand c current (groupPathSecretInfo ++ leBytes 4 level) pathSecretBytes

/-- A path secret and those derived from it for the next levels, the first of them `level`. -/
def pathSecretsFrom : ℕ → ℕ → Bytes → Except ProtocolError (List Bytes)
  | _, 0, secret => .ok [secret]
  | level, count + 1, secret => do
    let next ← deriveNextPathSecret c secret level
    let rest ← pathSecretsFrom (level + 1) count next
    return secret :: rest

/-! ## Creating -/

/-- The encryptions of a path secret to the nodes of a resolution, the first of them at place `j`. -/
def encryptToAll (t : RatchetTree) (pathSecret : Bytes) (nodeIdx : ℕ)
    (entropy : ℕ → SealEntropy) : ℕ → List ℕ → Except ProtocolError (List GroupHybridCiphertext)
  | _, [] => .ok []
  | j, resNode :: rest => do
    let target ← orError (t.getNodePublicKeys resNode)
      (.treeIntegrity s!"Resolution node {resNode} is blank")
    let ct ← encryptPathSecret c pathSecret target.1 target.2 nodeIdx (entropy j)
    let cts ← encryptToAll t pathSecret nodeIdx entropy (j + 1) rest
    return ct :: cts

/-- A node of a new path: its index, key pairs and encrypted path secrets. -/
structure PathNode where
  nodeIdx : ℕ
  keys : HybridKeyPair c
  encrypted : List GroupHybridCiphertext

/-- The loop of `create_update_path` over direct path, co-path and path secrets, from level `i`. -/
def pathNodes (t : RatchetTree) (entropy : ℕ → ℕ → SealEntropy) :
    ℕ → List (ℕ × ℕ × Bytes) → Except ProtocolError (List (PathNode c))
  | _, [] => .ok []
  | i, (nodeIdx, copathNode, secret) :: rest => do
    let keys ← deriveNodeKeypairs c secret
    let resolution ← t.resolution copathNode
    let encrypted ← encryptToAll c t secret nodeIdx (entropy i) 0 resolution
    let nodes ← pathNodes t entropy (i + 1) rest
    return ⟨nodeIdx, keys, encrypted⟩ :: nodes

/-- The parent hashes of a new path, computed from the root down: zero at the root, below it the
hash over the node above and the subtree beside. -/
def parentHashes (t : RatchetTree) : List (PathNode c) → Except ProtocolError (List Bytes)
  | [] => .ok []
  | [_] => .ok [zeroHash]
  | child :: parent :: above => do
    let hashes ← parentHashes t (parent :: above)
    let sibIdx ← Tree.sibling child.nodeIdx t.leafCount
    let hash ← t.computeParentHashValue c parent.keys.x25519.publicKey parent.keys.kyber.publicKey
      (hashes.headD []) sibIdx
    return hash :: hashes

def createUpdatePath (t : RatchetTree) (myLeafIdx : ℕ) (entropy : PathEntropy) :
    Except ProtocolError UpdatePathOutput := do
  let leafX25519 := X25519KeyPair.generate c entropy.leaf.x25519
  let leafKyber ← KyberKeyPair.generate c entropy.leaf.kyberSeed entropy.leaf.kyberSelfTest
  if t.leafCount ≤ 1 then
    let node ← Tree.checkedLeafToNode myLeafIdx
    return { updatePath := ⟨leafX25519.publicKey, leafKyber.publicKey, [], []⟩
             commitSecret := entropy.commitSecret.1
             newPrivateKeys := [(node, leafX25519.secretKey, leafKyber.secretKey)] }
  else
    let directPath ← Tree.directPath myLeafIdx t.leafCount
    let coPath ← Tree.copath myLeafIdx t.leafCount
    let pathSecrets ← pathSecretsFrom c 1 (directPath.length - 1) entropy.pathSecret.1
    let node ← Tree.checkedLeafToNode myLeafIdx
    let nodes ← pathNodes c t entropy.encryption 0 (directPath.zip (coPath.zip pathSecrets))
    let hashes ← parentHashes c t nodes
    return { updatePath :=
               ⟨leafX25519.publicKey, leafKyber.publicKey,
                 nodes.zipWith (fun node hash => ⟨node.keys.x25519.publicKey,
                   node.keys.kyber.publicKey, node.encrypted, hash⟩) hashes, []⟩
             commitSecret := pathSecrets.getLastD []
             newPrivateKeys := (node, leafX25519.secretKey, leafKyber.secretKey) ::
               nodes.map fun node =>
                 (node.nodeIdx, node.keys.x25519.secretKey, node.keys.kyber.secretKey) }

/-! ## Processing -/

/-- The check of the public keys of a path's nodes. -/
def validatePathKeys : ℕ → List GroupUpdatePathNode → Except ProtocolError Unit
  | _, [] => .ok ()
  | i, node :: rest => do
    (DhValidator.validateX25519PublicKey node.x25519Public).mapError fun e =>
      .treeIntegrity s!"UpdatePath node {i} X25519 key invalid: {e.display}"
    (KyberInterop.validatePublicKey c node.kyberPublic).mapError fun e =>
      .treeIntegrity s!"UpdatePath node {i} Kyber key invalid: {e.cryptoText}"
    validatePathKeys (i + 1) rest

/-- The check of the parent hashes of a path's nodes. -/
def validatePathHashes : ℕ → List GroupUpdatePathNode → Except ProtocolError Unit
  | _, [] => .ok ()
  | i, node :: rest => do
    require (node.parentHash.length = sha256HashBytes) (.treeIntegrity
      (s!"Invalid parent_hash length at node level {i}: expected {sha256HashBytes}, " ++
        s!"got {node.parentHash.length}"))
    require (rest = [] ∨ isAllZero node.parentHash = false)
      (.treeIntegrity s!"parent_hash is all-zero at non-root node level {i}")
    validatePathHashes (i + 1) rest

/-- Whether a resolution has a node whose private key the member at `myNode` should hold. -/
def addressedTo (myNode : ℕ) (myDirectPath resolution : List ℕ) : Bool :=
  resolution.any fun r => r == myNode || myDirectPath.contains r

/-- The loops that look for the level at which the member finds its path secret: the first level
from `i` on whose direct-path node passes `candidate` and whose co-path resolution is addressed to
the member. -/
def findLevel (t : RatchetTree) (myNode : ℕ) (myDirectPath : List ℕ) (candidate : ℕ → Bool) :
    ℕ → List (ℕ × ℕ) → Except ProtocolError (Option ℕ)
  | _, [] => .ok none
  | i, (dpNode, copathNode) :: rest =>
    if candidate dpNode then do
      let resolution ← t.resolution copathNode
      if addressedTo myNode myDirectPath resolution then return some i
      else findLevel t myNode myDirectPath candidate (i + 1) rest
    else findLevel t myNode myDirectPath candidate (i + 1) rest

/-- Installs a node of the committer's path at a member: the private keys too if the node is above
the member's own leaf. -/
def installNode (myDirectPath : List ℕ) (nodeIdx : ℕ) (node : GroupUpdatePathNode)
    (keys : HybridKeyPair c) : TreeM Unit := do
  RatchetTree.setNodePublicKeys nodeIdx node.x25519Public node.kyberPublic
  if myDirectPath.contains nodeIdx then
    RatchetTree.setNodePrivateKeys nodeIdx keys.x25519.secretKey keys.kyber.secretKey

/-- The check that derived keys are the announced ones; `place` names the level. -/
def matchKeys (place : String) (node : GroupUpdatePathNode) (keys : HybridKeyPair c) :
    Except ProtocolError Unit := do
  require (keys.x25519.publicKey = node.x25519Public)
    (.treeIntegrity s!"X25519 public key mismatch at {place}")
  require (keys.kyber.publicKey = node.kyberPublic)
    (.treeIntegrity s!"Kyber public key mismatch at {place}")

/-- The loop of `process_update_path` over the levels above the common ancestor: the path secret
it ends with is the commit secret. -/
def installAbove (myDirectPath : List ℕ) :
    ℕ → Bytes → List (ℕ × GroupUpdatePathNode) → TreeM Bytes
  | _, secret, [] => pure secret
  | i, secret, (nodeIdx, node) :: rest => do
    let next ← lift (deriveNextPathSecret c secret i)
    let keys ← lift (deriveNodeKeypairs c next)
    lift (matchKeys c s!"path level {i}" node keys)
    installNode c myDirectPath nodeIdx node keys
    installAbove myDirectPath (i + 1) next rest

/-- What a member finds in an update path: the level it meets the committer's path at, the node and
its index there, and the path secret. -/
structure OpenedPath where
  ancestorLevel : ℕ
  nodeIdx : ℕ
  node : GroupUpdatePathNode
  pathSecret : Bytes

/-- The search of `process_update_path` for the member's path secret and its decryption. -/
def openUpdatePath (t : RatchetTree) (updatePath : GroupUpdatePath) (myNode : ℕ)
    (myDirectPath committerDirectPath committerCopath : List ℕ) :
    Except ProtocolError OpenedPath := do
  let levels := committerDirectPath.zip committerCopath
  let found ← findLevel t myNode myDirectPath
    (fun dpNode => dpNode == myNode || myDirectPath.contains dpNode) 0 levels
  let found ← match found with
    | some level => .ok (some level)
    | none => findLevel t myNode myDirectPath (fun _ => true) 0 levels
  let ancestorLevel ← orError found
    (.treeIntegrity "Could not find common ancestor with committer")
  let pathNode ← orError updatePath.nodes[ancestorLevel]?
    (.treeIntegrity "UpdatePath too short for common ancestor")
  let resolution ← t.resolution (committerCopath[ancestorLevel]?.getD 0)
  let resIdx ← orError (resolution.findIdx? fun r => r == myNode || myDirectPath.contains r)
    (.treeIntegrity "Not found in co-path resolution")
  let ciphertext ← orError pathNode.encryptedPathSecrets[resIdx]?
    (.treeIntegrity "Missing encrypted path secret for my resolution index")
  let nodeKeys ← orError (t.getNodeKeys (resolution[resIdx]?.getD 0))
    (.treeIntegrity "Decrypt node is blank")
  let x25519Private ← orError nodeKeys.x25519Private
    (.treeIntegrity "No X25519 private key for decryption")
  let kyberSecret ← orError nodeKeys.kyberSecret
    (.treeIntegrity "No Kyber secret key for decryption")
  let nodeIdx := committerDirectPath[ancestorLevel]?.getD 0
  let pathSecret ← decryptPathSecret c ciphertext x25519Private kyberSecret nodeIdx
  return ⟨ancestorLevel, nodeIdx, pathNode, pathSecret⟩

/-- `process_update_path`: the commit secret. -/
def processUpdatePath (updatePath : GroupUpdatePath) (committerLeafIdx myLeafIdx : ℕ) :
    TreeM Bytes := do
  let t ← get
  let n := t.leafCount
  lift (require (1 < n)
    (.treeIntegrity "Cannot process UpdatePath in single-member group"))
  lift (require (committerLeafIdx < n) (.treeIntegrity
    s!"Committer leaf index {committerLeafIdx} out of range for tree with {n} leaves"))
  lift (require (myLeafIdx < n) (.treeIntegrity
    s!"My leaf index {myLeafIdx} out of range for tree with {n} leaves"))
  lift (DhValidator.validateX25519PublicKey updatePath.leafX25519Public)
  lift (KyberInterop.validatePublicKey c updatePath.leafKyberPublic)
  lift (validatePathKeys c 0 updatePath.nodes)
  let committerDirectPath ← lift (Tree.directPath committerLeafIdx n)
  let committerCopath ← lift (Tree.copath committerLeafIdx n)
  let myNode ← lift (Tree.checkedLeafToNode myLeafIdx)
  lift (require (updatePath.nodes.length = committerDirectPath.length) (.treeIntegrity
    (s!"UpdatePath node count mismatch: expected {committerDirectPath.length}, " ++
      s!"got {updatePath.nodes.length}")))
  lift (validatePathHashes 0 updatePath.nodes)
  let myDirectPath ← lift (Tree.directPath myLeafIdx n)
  let opened ← lift (openUpdatePath c t updatePath myNode myDirectPath committerDirectPath
    committerCopath)
  let keys ← lift (deriveNodeKeypairs c opened.pathSecret)
  lift (matchKeys c s!"ancestor path level {opened.ancestorLevel}" opened.node keys)
  installNode c myDirectPath opened.nodeIdx opened.node keys
  let path := committerDirectPath.zip updatePath.nodes
  let commitSecret ← installAbove c myDirectPath (opened.ancestorLevel + 1) opened.pathSecret
    (path.drop (opened.ancestorLevel + 1))
  (path.take opened.ancestorLevel).forM fun (nodeIdx, node) =>
    RatchetTree.setNodePublicKeys nodeIdx node.x25519Public node.kyberPublic
  let committerNode ← lift (Tree.checkedLeafToNode committerLeafIdx)
  RatchetTree.setNodePublicKeys committerNode updatePath.leafX25519Public
    updatePath.leafKyberPublic
  path.forM fun (nodeIdx, node) => RatchetTree.setNodeParentHash nodeIdx node.parentHash
  reads fun t => t.verifyParentHashChain c committerLeafIdx
  return commitSecret

end TreeKem

end AuraProtocol.Group
