import AuraProtocol.Group.KeySchedule
import AuraProtocol.Group.TreeIndex

/-!
# The ratchet tree

`RatchetTree` of `protocol/group/tree.rs`: an array of nodes, each blank or with a
hybrid key pair of which only the members below it hold the private half, and an
array of the members at the leaves.  The structure carries what ties the two
arrays to the leaf count; every operation keeps it, so the node arithmetic of
`TreeIndex` applies to every tree.

The operations that change the tree run in `TreeM`, where a failing operation
hands back the tree it failed in.  The tree hash and the resolution of a node
walk `LeftBalanced.shape` and never fail (`exists_treeHash`, `resolution_eq`).
-/

namespace AuraProtocol.Group

open Fallible Tree
open Session (readBytes secureHandle)

/-! ## Nodes and leaves -/

structure HybridNodeKeys where
  x25519Public : Bytes
  kyberPublic : Bytes
  x25519Private : Option Bytes
  kyberSecret : Option Bytes
  deriving DecidableEq, Repr

/-- `TreeNodeContent`. -/
inductive TreeNode where
  | blank
  | populated (keys : HybridNodeKeys) (parentHash : Bytes)
  deriving DecidableEq, Repr

structure LeafData where
  credential : Bytes
  identityEd25519Public : Bytes
  identityX25519Public : Bytes
  identityKyberPublic : Bytes
  signature : Bytes
  deriving DecidableEq, Repr

/-- The leaf data of a key package. -/
def LeafData.ofKeyPackage (kp : GroupKeyPackage) : LeafData where
  credential := kp.credential
  identityEd25519Public := kp.identityEd25519Public
  identityX25519Public := kp.identityX25519Public
  identityKyberPublic := kp.identityKyberPublic
  signature := kp.signature

/-- `vec![0u8; SHA256_HASH_BYTES]`. -/
def zeroHash : Bytes := List.replicate sha256HashBytes 0

/-- A node with public keys only, as a new leaf or a blank node on a path gets them. -/
def TreeNode.publicOnly (x25519Public kyberPublic : Bytes) : TreeNode :=
  .populated ⟨x25519Public, kyberPublic, none, none⟩ zeroHash

structure RatchetTree where
  nodes : List TreeNode
  leaves : List (Option LeafData)
  leafCount : ℕ
  leafCount_pos : 0 < leafCount
  leafCount_le : leafCount ≤ maxGroupMembers
  length_nodes : nodes.length = nodeCount leafCount
  length_leaves : leaves.length = leafCount

variable {t : RatchetTree}

/-- Operations on a tree: a failing one hands back the tree it failed in. -/
abbrev TreeM := EStateM ProtocolError RatchetTree

namespace RatchetTree

theorem ext_of_eq {t' : RatchetTree} (hnodes : t.nodes = t'.nodes) (hleaves : t.leaves = t'.leaves) :
    t = t' := by
  obtain ⟨nodes, leaves, n, _, _, _, hlen⟩ := t
  obtain ⟨nodes', leaves', n', _, _, _, hlen'⟩ := t'
  obtain rfl : nodes = nodes' := hnodes
  obtain rfl : leaves = leaves' := hleaves
  obtain rfl : n = n' := hlen.symm.trans hlen'
  rfl

theorem leafCount_le_depth (t : RatchetTree) : t.leafCount ≤ 2 ^ maxTreeDepth :=
  t.leafCount_le.trans (by decide)

/-- Replaces the content of a node. -/
def setNode (t : RatchetTree) (i : ℕ) (node : TreeNode) : RatchetTree :=
  { t with
    nodes := t.nodes.set i node
    length_nodes := List.length_set.trans t.length_nodes }

/-- Replaces the occupant of a leaf. -/
def setLeaf (t : RatchetTree) (i : ℕ) (leaf : Option LeafData) : RatchetTree :=
  { t with
    leaves := t.leaves.set i leaf
    length_leaves := List.length_set.trans t.length_leaves }

@[simp] theorem setNode_leaves (t : RatchetTree) (i : ℕ) (node : TreeNode) :
    (t.setNode i node).leaves = t.leaves := rfl

/-! ## Reading -/

def newSingle (x25519Public kyberPublic x25519Private kyberSecret identityEd25519 identityX25519
    identityKyber credential signature : Bytes) : Except ProtocolError RatchetTree := do
  require (x25519Public.length = x25519PublicKeyBytes)
    (.invalidInput "Invalid X25519 public key size")
  require (kyberPublic.length = kyberPublicKeyBytes)
    (.invalidInput "Invalid Kyber public key size")
  .ok { nodes := [.populated ⟨x25519Public, kyberPublic, x25519Private, kyberSecret⟩ zeroHash]
        leaves := [some ⟨credential, identityEd25519, identityX25519, identityKyber, signature⟩]
        leafCount := 1
        leafCount_pos := Nat.one_pos
        leafCount_le := by decide
        length_nodes := rfl
        length_leaves := rfl }

def memberCount (t : RatchetTree) : ℕ := t.leaves.countP Option.isSome

def getLeafData (t : RatchetTree) (leafIdx : ℕ) : Option LeafData := t.leaves[leafIdx]?.join

def populatedLeafIndices (t : RatchetTree) : List ℕ :=
  (List.range t.leaves.length).filter fun i => (t.getLeafData i).isSome

def getNodeKeys (t : RatchetTree) (nodeIdx : ℕ) : Option HybridNodeKeys :=
  match t.nodes[nodeIdx]? with
  | some (.populated keys _) => some keys
  | _ => none

def getNodePublicKeys (t : RatchetTree) (nodeIdx : ℕ) : Option (Bytes × Bytes) :=
  (t.getNodeKeys nodeIdx).map fun keys => (keys.x25519Public, keys.kyberPublic)

def getNodeParentHash (t : RatchetTree) (nodeIdx : ℕ) : Option Bytes :=
  match t.nodes[nodeIdx]? with
  | some (.populated _ parentHash) => some parentHash
  | _ => none

def isBlank (t : RatchetTree) (nodeIdx : ℕ) : Bool := (t.getNodeKeys nodeIdx).isNone

/-- `resolution_inner`, with the depths that are left instead of the depth reached. -/
def resolutionInner (t : RatchetTree) : ℕ → ℕ → Except ProtocolError (List ℕ)
  | 0, _ => .error (.treeIntegrity "resolution: exceeded MAX_TREE_DEPTH")
  | depth + 1, nodeIdx =>
    match t.nodes[nodeIdx]? with
    | none => .ok []
    | some (.populated _ _) => .ok [nodeIdx]
    | some .blank =>
      if isLeaf nodeIdx then .ok []
      else do
        let l ← left nodeIdx
        let r ← right nodeIdx t.leafCount
        let res ← resolutionInner t depth l
        let rest ← resolutionInner t depth r
        return res ++ rest

def resolution (t : RatchetTree) (nodeIdx : ℕ) : Except ProtocolError (List ℕ) :=
  t.resolutionInner (maxTreeDepth + 1) nodeIdx

def nextLeafIndex (t : RatchetTree) : ℕ := (t.leaves.findIdx? Option.isNone).getD t.leafCount

/-! ## Changing -/

/-- One more leaf brings two more nodes: the leaf and a parent. -/
theorem length_nodes_grow (t : RatchetTree) (parent leaf : TreeNode) :
    (t.nodes ++ [parent, leaf]).length = nodeCount (t.leafCount + 1) := by
  have := t.leafCount_pos
  rw [List.length_append, t.length_nodes, nodeCount, if_neg (by omega), nodeCount,
    if_neg (by omega)]
  simp only [List.length_cons, List.length_nil]
  omega

theorem length_leaves_grow (t : RatchetTree) (leafData : Option LeafData) :
    (t.leaves ++ [leafData]).length = t.leafCount + 1 := by
  rw [List.length_append, t.length_leaves]
  rfl

/-- The tree with one leaf more, the new one taken by `leafData`: the last branch of `add_leaf`. -/
def grow (t : RatchetTree) (x25519Public kyberPublic : Bytes) (leafData : LeafData)
    (h : t.leafCount < maxGroupMembers) : RatchetTree where
  nodes := t.nodes ++ [.blank, .publicOnly x25519Public kyberPublic]
  leaves := t.leaves ++ [some leafData]
  leafCount := t.leafCount + 1
  leafCount_pos := Nat.succ_pos _
  leafCount_le := h
  length_nodes := t.length_nodes_grow ..
  length_leaves := t.length_leaves_grow ..

theorem leafCount_lt_of_no_blank (hmembers : t.memberCount < maxGroupMembers)
    (hblank : t.leaves.findIdx? Option.isNone = none) : t.leafCount < maxGroupMembers := by
  have hall : ∀ leaf ∈ t.leaves, leaf.isSome = true := fun leaf hmem => by
    have := List.findIdx?_eq_none_iff.mp hblank leaf hmem
    cases leaf with
    | none => cases this
    | some d => rfl
  rwa [memberCount, List.countP_eq_length.mpr hall, t.length_leaves] at hmembers

/-- `add_leaf`: the first blank leaf is taken; without one the array grows by a blank inner node
and the new leaf. -/
def addLeaf (x25519Public kyberPublic : Bytes) (leafData : LeafData) : TreeM ℕ := fun t =>
  if hmembers : t.memberCount < maxGroupMembers then
    match hblank : t.leaves.findIdx? Option.isNone with
    | some idx =>
      .ok idx ((t.setNode (2 * idx) (.publicOnly x25519Public kyberPublic)).setLeaf idx leafData)
    | none =>
      .ok t.leafCount
        (t.grow x25519Public kyberPublic leafData (leafCount_lt_of_no_blank hmembers hblank))
  else .error (.groupMembership "Group member limit reached") t

/-- Blanks the nodes of a path. -/
def blankNodes (t : RatchetTree) (path : List ℕ) : RatchetTree :=
  path.foldl (fun t p => t.setNode p .blank) t

def blankLeaf (leafIdx : ℕ) : TreeM Unit := do
  let t ← get
  lift (require (leafIdx < t.leafCount) (.groupMembership "Leaf index out of range"))
  lift (require ((t.getLeafData leafIdx).isSome = true) (.groupMembership "Leaf already blank"))
  let nodeIdx ← lift (checkedLeafToNode leafIdx)
  modify fun t => (t.setNode nodeIdx .blank).setLeaf leafIdx none
  if 1 < t.leafCount then
    let path ← lift (directPath leafIdx t.leafCount)
    modify fun t => t.blankNodes path

def setNodePublicKeys (nodeIdx : ℕ) (x25519Public kyberPublic : Bytes) : TreeM Unit := do
  let t ← get
  match t.nodes[nodeIdx]? with
  | none => throw (.treeIntegrity "Node index out of range")
  | some (.populated keys parentHash) =>
    set (t.setNode nodeIdx
      (.populated { keys with x25519Public := x25519Public, kyberPublic := kyberPublic } parentHash))
  | some .blank => set (t.setNode nodeIdx (.publicOnly x25519Public kyberPublic))

def setNodePrivateKeys (nodeIdx : ℕ) (x25519Private kyberSecret : Bytes) : TreeM Unit := do
  let t ← get
  match t.nodes[nodeIdx]? with
  | some (.populated keys parentHash) =>
    set (t.setNode nodeIdx
      (.populated { keys with x25519Private := x25519Private, kyberSecret := kyberSecret }
        parentHash))
  | _ => throw (.treeIntegrity "Cannot set private keys on blank node")

def setLeafSignature (leafIdx : ℕ) (signature : Bytes) : TreeM Unit := do
  let t ← get
  match t.getLeafData leafIdx with
  | some leaf => set (t.setLeaf leafIdx (some { leaf with signature := signature }))
  | none => throw (.treeIntegrity "Cannot set signature on blank leaf")

def setNodeParentHash (nodeIdx : ℕ) (hash : Bytes) : TreeM Unit := do
  let t ← get
  match t.nodes[nodeIdx]? with
  | some (.populated keys _) => set (t.setNode nodeIdx (.populated keys hash))
  | _ => throw (.treeIntegrity "Cannot set parent_hash on blank node")

/-! ## Hashes -/

variable (c : Crypto)

/-- What `compute_node_hash_inner` hashes of a node itself, before the hashes of its children. -/
def nodeHashInput (t : RatchetTree) (nodeIdx : ℕ) : Bytes :=
  match t.getNodeKeys nodeIdx with
  | none => lenPrefixed groupBlankNodeHashLabel ++ leBytes 4 nodeIdx ++ [0]
  | some keys =>
    let content := lenPrefixed keys.x25519Public ++ lenPrefixed keys.kyberPublic
    if isLeaf nodeIdx then
      lenPrefixed groupLeafNodeHashLabel ++ leBytes 4 nodeIdx ++ [1] ++ content ++
        match t.getLeafData (nodeIdx / 2) with
        | some leaf =>
          [1] ++ lenPrefixed leaf.credential ++ lenPrefixed leaf.identityEd25519Public ++
            lenPrefixed leaf.identityX25519Public ++ lenPrefixed leaf.identityKyberPublic ++
            lenPrefixed leaf.signature
        | none => [0]
    else lenPrefixed groupParentNodeHashLabel ++ leBytes 4 nodeIdx ++ [1] ++ content

/-- `compute_node_hash_inner`, with the depths that are left instead of the depth reached. -/
def computeNodeHashInner (t : RatchetTree) : ℕ → ℕ → Except ProtocolError Bytes
  | 0, _ => .error (.treeIntegrity "compute_node_hash: exceeded MAX_TREE_DEPTH")
  | depth + 1, nodeIdx =>
    if isLeaf nodeIdx = false ∧ 1 < t.leafCount then do
      let l ← left nodeIdx
      let r ← right nodeIdx t.leafCount
      let leftHash ← computeNodeHashInner t depth l
      let rightHash ← computeNodeHashInner t depth r
      return c.sha256 (t.nodeHashInput nodeIdx ++ lenPrefixed leftHash ++ lenPrefixed rightHash)
    else .ok (c.sha256 (t.nodeHashInput nodeIdx))

def subtreeHash (t : RatchetTree) (nodeIdx : ℕ) : Except ProtocolError Bytes :=
  computeNodeHashInner c t (maxTreeDepth + 1) nodeIdx

def treeHash (t : RatchetTree) : Except ProtocolError Bytes := do
  let r ← root t.leafCount
  t.subtreeHash c r

def computeParentHashValue (t : RatchetTree) (parentX25519 parentKyber parentParentHash : Bytes)
    (siblingIdx : ℕ) : Except ProtocolError Bytes := do
  let siblingHash ← t.subtreeHash c siblingIdx
  return c.sha256 (lenPrefixed groupParentHashLabel ++ lenPrefixed parentX25519 ++
    lenPrefixed parentKyber ++ lenPrefixed parentParentHash ++ lenPrefixed siblingHash)

/-- The loop of `verify_parent_hash_chain`, over the direct path from the root down. -/
def verifyChainFrom (t : RatchetTree) (rootIdx : ℕ) :
    Bytes → List ℕ → Except ProtocolError Unit
  | _, [] => .ok ()
  | expectedParentHash, nodeIdx :: below => do
    let stored ← orError (t.getNodeParentHash nodeIdx)
      (.treeIntegrity s!"Missing parent_hash at node {nodeIdx}")
    require (stored.length = sha256HashBytes) (.treeIntegrity
      (s!"Invalid parent_hash length at node {nodeIdx}: expected {sha256HashBytes}, " ++
        s!"got {stored.length}"))
    if nodeIdx = rootIdx then
      require (isAllZero stored = true)
        (.treeIntegrity "parent_hash at root node must be all-zero")
    else
      require (isAllZero stored = false)
        (.treeIntegrity s!"parent_hash is all-zero at non-root node {nodeIdx}")
    require (stored = expectedParentHash)
      (.treeIntegrity s!"parent_hash mismatch at node {nodeIdx}")
    match below with
    | [] => .ok ()
    | child :: _ =>
      let sibIdx ← sibling child t.leafCount
      let keys ← orError (t.getNodePublicKeys nodeIdx) (.treeIntegrity
        s!"Missing public keys at node {nodeIdx} for parent_hash verification")
      let expected ← t.computeParentHashValue c keys.1 keys.2 stored sibIdx
      verifyChainFrom t rootIdx expected below

def verifyParentHashChain (t : RatchetTree) (leafIdx : ℕ) : Except ProtocolError Unit :=
  if t.leafCount ≤ 1 then .ok ()
  else do
    let dp ← directPath leafIdx t.leafCount
    let rootIdx ← root t.leafCount
    t.verifyChainFrom c rootIdx zeroHash dp.reverse

/-! ## Serialisation -/

def leafKeyPackage (t : RatchetTree) (nodeIdx : ℕ) : Option GroupKeyPackage :=
  if isLeaf nodeIdx then do
    let leaf ← t.getLeafData (nodeIdx / 2)
    let keys ← t.getNodePublicKeys nodeIdx
    return { version := groupProtocolVersion
             identityEd25519Public := leaf.identityEd25519Public
             identityX25519Public := leaf.identityX25519Public
             leafX25519Public := keys.1
             leafKyberPublic := keys.2
             signature := leaf.signature
             credential := leaf.credential
             createdAt := none
             identityKyberPublic := leaf.identityKyberPublic }
  else none

/-- The exports of a tree, which differ in the nodes whose private keys they include. -/
def exportNodes (t : RatchetTree) (includePrivate : ℕ → Bool) : List GroupTreeNode :=
  t.nodes.mapIdx fun i node =>
    match node with
    | .blank => ⟨i, [], [], [], [], [], t.leafKeyPackage i⟩
    | .populated keys parentHash =>
      -- a handle that is too short to read is left out
      let read (handle : Option Bytes) (len : ℕ) : Bytes :=
        if includePrivate i then (handle.bind fun h => (readBytes h len).toOption).getD [] else []
      ⟨i, keys.x25519Public, keys.kyberPublic, read keys.x25519Private x25519PrivateKeyBytes,
        read keys.kyberSecret kyberSecretKeyBytes, parentHash, t.leafKeyPackage i⟩

def exportPublic (t : RatchetTree) : List GroupTreeNode := t.exportNodes fun _ => false

def exportForWelcome (t : RatchetTree) (newMemberLeafIdx : ℕ) :
    Except ProtocolError (List GroupTreeNode) := do
  let dp ← directPath newMemberLeafIdx t.leafCount
  return t.exportNodes fun i => !isLeaf i && dp.contains i

def exportWithPrivateKeys (t : RatchetTree) : List GroupTreeNode := t.exportNodes fun _ => true

/-- A private key of a serialised node: none if it is empty. -/
def privateFromProto (size : ℕ) (data : Bytes) : Except ProtocolError (Option Bytes) :=
  if data = [] then .ok none else some <$> secureHandle size data

/-- The first loop of `from_proto`: the content of one node. -/
def nodeFromProto (pn : GroupTreeNode) : Except ProtocolError TreeNode :=
  if pn.x25519Public = [] then .ok .blank
  else do
    require (pn.x25519Public.length = x25519PublicKeyBytes) (.treeIntegrity
      (s!"Invalid X25519 public key size in tree node {pn.nodeIndex}: " ++
        s!"expected {x25519PublicKeyBytes}, got {pn.x25519Public.length}"))
    require (pn.kyberPublic = [] ∨ pn.kyberPublic.length = kyberPublicKeyBytes) (.treeIntegrity
      (s!"Invalid Kyber public key size in tree node {pn.nodeIndex}: " ++
        s!"expected {kyberPublicKeyBytes}, got {pn.kyberPublic.length}"))
    require (pn.x25519Private = [] ∨ pn.x25519Private.length = x25519PrivateKeyBytes)
      (.treeIntegrity s!"Invalid X25519 private key size in tree node {pn.nodeIndex}")
    require (pn.kyberSecret = [] ∨ pn.kyberSecret.length = kyberSecretKeyBytes)
      (.treeIntegrity s!"Invalid Kyber secret key size in tree node {pn.nodeIndex}")
    let x25519Private ← privateFromProto x25519PrivateKeyBytes pn.x25519Private
    let kyberSecret ← privateFromProto kyberSecretKeyBytes pn.kyberSecret
    return .populated ⟨pn.x25519Public, pn.kyberPublic, x25519Private, kyberSecret⟩ pn.parentHash

/-- The second loop of `from_proto`: one leaf, after the identities seen at the leaves before. -/
def leafFromProto (seen : List Bytes) (node : TreeNode) (keyPackage : Option GroupKeyPackage) :
    Except ProtocolError (Option LeafData) :=
  match keyPackage with
  | none => .ok none
  | some kp => do
    KeyPackage.validateKeyPackage c kp
    require (kp.identityEd25519Public ∉ seen)
      (.treeIntegrity "Duplicate Ed25519 identity key in group tree")
    match node with
    | .populated keys _ =>
      require (keys.x25519Public = kp.leafX25519Public ∧ keys.kyberPublic = kp.leafKyberPublic)
        (.treeIntegrity "Leaf key package does not match leaf node public keys")
      return some (.ofKeyPackage kp)
    | .blank => throw (.treeIntegrity "Blank leaf cannot carry a key package")

/-- The second loop of `from_proto`, from leaf `i` on. -/
def leavesFromProto (protoNodes : List GroupTreeNode) (nodes : List TreeNode) :
    (i count : ℕ) → List Bytes →
      Except ProtocolError { leaves : List (Option LeafData) // leaves.length = count }
  | _, 0, _ => .ok ⟨[], rfl⟩
  | i, count + 1, seen => do
    let leaf ← leafFromProto c seen ((nodes[2 * i]?).getD .blank)
      ((protoNodes[2 * i]?).bind (·.keyPackage))
    let seen := match leaf with
      | some data => data.identityEd25519Public :: seen
      | none => seen
    let rest ← leavesFromProto protoNodes nodes (i + 1) count seen
    .ok ⟨leaf :: rest.1, congrArg (· + 1) rest.2⟩

/-- A node count in bounds is one of a tree with a bounded number of leaves. -/
theorem half_le_maxGroupMembers {nc : ℕ} (h : ¬ maxTreeNodes < nc) :
    (nc + 1) / 2 ≤ maxGroupMembers := by
  rw [maxTreeNodes] at h
  omega

/-- An odd number is the node count of the tree with half as many leaves. -/
theorem eq_nodeCount_half {nc : ℕ} (h : ¬ nc % 2 = 0) : nc = nodeCount ((nc + 1) / 2) := by
  rw [nodeCount, if_neg (by omega)]
  omega

/-- `from_proto` and `from_public_proto`; the leaf index `from_proto` is given is not used. -/
def fromProto (protoNodes : List GroupTreeNode) : Except ProtocolError RatchetTree :=
  let nc := protoNodes.length
  if nc = 0 then .error (.treeIntegrity "Empty tree")
  else if hodd : nc % 2 = 0 then
    .error (.treeIntegrity s!"Node count must be odd (2n-1), got {nc}")
  else if hmax : maxTreeNodes < nc then .error (.treeIntegrity
    s!"Tree node count {nc} exceeds MAX_TREE_NODES ({maxTreeNodes})")
  else do
    let nodes ← mapEach nodeFromProto protoNodes
    let leaves ← leavesFromProto c protoNodes nodes.1 0 ((nc + 1) / 2) []
    .ok { nodes := nodes.1
          leaves := leaves.1
          leafCount := (nc + 1) / 2
          leafCount_pos := by omega
          leafCount_le := half_le_maxGroupMembers hmax
          length_nodes := nodes.2.trans (eq_nodeCount_half hodd)
          length_leaves := leaves.2 }

/-! ## Walking the tree -/

variable {c}

theorem getElem?_of_lt (t : RatchetTree) {i : ℕ} (h : i < nodeCount t.leafCount) :
    ∃ node, t.nodes[i]? = some node :=
  ⟨_, List.getElem?_eq_getElem (by rwa [t.length_nodes])⟩

theorem isBlank_of_blank {i : ℕ} (h : t.nodes[i]? = some .blank) : t.isBlank i = true := by
  rw [isBlank, getNodeKeys, h]
  rfl

theorem isBlank_of_populated {i : ℕ} {keys : HybridNodeKeys} {hash : Bytes}
    (h : t.nodes[i]? = some (.populated keys hash)) : t.isBlank i = false := by
  rw [isBlank, getNodeKeys, h]
  rfl

/-- The resolution of a node is the resolution of the subtree below it. -/
theorem resolutionInner_eq (t : RatchetTree) {s : LabelTree ℕ} {depth : ℕ}
    (hs : Tree.Follows t.leafCount s) (hdepth : s.height < depth) :
    t.resolutionInner depth s.label = .ok (s.resolution t.isBlank) := by
  induction s generalizing depth with
  | leaf x =>
    obtain ⟨depth, rfl⟩ := Nat.exists_eq_succ_of_ne_zero (Nat.ne_zero_of_lt hdepth)
    obtain ⟨node, hnode⟩ := t.getElem?_of_lt hs.2
    rw [LabelTree.label_leaf, resolutionInner, hnode, LabelTree.resolution]
    cases node with
    | blank => simp [isBlank_of_blank hnode, hs.1]
    | populated keys hash => simp [isBlank_of_populated hnode]
  | node x l r ihl ihr =>
    obtain ⟨depth, rfl⟩ := Nat.exists_eq_succ_of_ne_zero (Nat.ne_zero_of_lt hdepth)
    obtain ⟨hleaf, hlt, hl, hr, hfl, hfr⟩ := hs
    have hheight : max l.height r.height < depth := Nat.lt_of_succ_lt_succ hdepth
    obtain ⟨node, hnode⟩ := t.getElem?_of_lt hlt
    rw [LabelTree.label_node, resolutionInner, hnode, LabelTree.resolution]
    cases node with
    | blank =>
      simp only [isBlank_of_blank hnode, hleaf, Bool.false_eq_true, if_false, if_true, hl, hr]
      change (t.resolutionInner depth l.label >>= _) = _
      rw [ihl hfl ((le_max_left _ _).trans_lt hheight)]
      change (t.resolutionInner depth r.label >>= _) = _
      rw [ihr hfr ((le_max_right _ _).trans_lt hheight)]
      rfl
    | populated keys hash => rw [isBlank_of_populated hnode, if_neg Bool.false_ne_true]

theorem resolution_eq (t : RatchetTree) {s : LabelTree ℕ} (hs : Tree.Follows t.leafCount s)
    (hheight : s.height ≤ maxTreeDepth) : t.resolution s.label = .ok (s.resolution t.isBlank) :=
  t.resolutionInner_eq hs (Nat.lt_succ_of_le hheight)

/-- The path of a leaf of the tree. -/
theorem exists_directPath (t : RatchetTree) {leafIdx : ℕ} (h : leafIdx < t.leafCount) :
    ∃ path, directPath leafIdx t.leafCount = .ok path ∧
      ∀ x ∈ path, x < t.nodes.length := by
  obtain ⟨p, hp, hpath, -⟩ := paths t.leafCount_pos t.leafCount_le_depth h
  refine ⟨_, hpath, fun x hx => ?_⟩
  rw [t.length_nodes, nodeCount_eq]
  exact LeftBalanced.lt_of_mem_shape t.leafCount_pos (hp.fst_mem_labels hx)

end RatchetTree

end AuraProtocol.Group
