import AuraProtocol.Group.Instance
import AuraProtocol.Group.PublicTree
import AuraProtocol.Group.TreeHash

/-!
# The invariant of the ratchet tree, and imported trees

`RepInv` is what the two arrays of a tree are meant to be to each other: a leaf node is
populated exactly if its leaf has a member, populated nodes have keys of full size, no two
leaves have the same identity, and every leaf is a validly signed key package.

A tree is exported node by node, and `from_proto` checks what it reads.  What it checks is
enough to give every exported tree back (`fromProto_exportWithPrivateKeys`), and not enough
to give only trees with the invariant: `fromProto_sound_iff` says which lists it should have
refused.
-/

namespace AuraProtocol.Group

open Fallible List
open Session (readBytes secureHandle readBytes_of_length_eq secureHandle_of_length_eq)

variable {i size : ℕ} {leaf : LeafData}

/-- Keys of full size: the public ones, and the private ones that are known. -/
structure HybridNodeKeys.FullSize (keys : HybridNodeKeys) : Prop where
  x25519Public : keys.x25519Public.length = x25519PublicKeyBytes
  kyberPublic : keys.kyberPublic.length = kyberPublicKeyBytes
  x25519Private : ∀ key ∈ keys.x25519Private, key.length = x25519PrivateKeyBytes
  kyberSecret : ∀ key ∈ keys.kyberSecret, key.length = kyberSecretKeyBytes

namespace RatchetTree

variable {c : Crypto} {t : RatchetTree}

/-- The representation invariant of a tree.  That a tree with `n` leaves has `2 * n - 1` nodes is
part of its type. -/
structure RepInv (c : Crypto) (t : RatchetTree) : Prop where
  paired : t.Paired
  fullSize : ∀ {i keys}, t.getNodeKeys i = some keys → keys.FullSize
  unique : ∀ {i j leaf leaf'}, t.getLeafData i = some leaf → t.getLeafData j = some leaf' →
    leaf.identityEd25519Public = leaf'.identityEd25519Public → i = j
  signed : ∀ {i pkg}, t.leafKeyPackage (2 * i) = some pkg → KeyPackage.Valid c pkg

/-- Every node in the resolution of the root has a member below it. -/
def RootCovered (t : RatchetTree) : Prop :=
  ∀ root res, Tree.root t.leafCount = .ok root → t.resolution root = .ok res →
    ∀ x ∈ res, ∃ i, (t.getLeafData i).isSome = true ∧
      (LeftBalanced.shape t.leafCount).Below x (2 * i)

theorem rootCovered_iff : t.RootCovered ↔
    ∀ x ∈ (LeftBalanced.shape t.leafCount).resolution t.isBlank,
      ∃ i, (t.getLeafData i).isSome = true ∧
        (LeftBalanced.shape t.leafCount).Below x (2 * i) := by
  have hroot := Tree.root_eq t.leafCount_pos
  have hres := t.resolution_eq (Tree.follows_shape t.leafCount_pos t.leafCount_le_depth)
    (LeftBalanced.height_shape t.leafCount_le_depth)
  constructor
  · exact fun h => h _ _ hroot hres
  · intro h root res hroot' hres'
    cases hroot.symm.trans hroot'
    cases hres.symm.trans hres'
    exact h

/-! ## What a leaf is exported as -/

/-- The key package of a leaf with given keys and a given signature. -/
def updatedPackage (leaf : LeafData) (x25519Public kyberPublic signature : Bytes) :
    GroupKeyPackage where
  version := groupProtocolVersion
  identityEd25519Public := leaf.identityEd25519Public
  identityX25519Public := leaf.identityX25519Public
  leafX25519Public := x25519Public
  leafKyberPublic := kyberPublic
  signature := signature
  credential := leaf.credential
  createdAt := none
  identityKyberPublic := leaf.identityKyberPublic

theorem leafKeyPackage_eq (t : RatchetTree) (i : ℕ) {keys : HybridNodeKeys}
    (hleaf : t.getLeafData i = some leaf) (hkeys : t.getNodeKeys (2 * i) = some keys) :
    t.leafKeyPackage (2 * i) =
      some (updatedPackage leaf keys.x25519Public keys.kyberPublic leaf.signature) := by
  have heven : Tree.isLeaf (2 * i) = true := by
    rw [Tree.isLeaf, Nat.mul_mod_right]
    rfl
  rw [leafKeyPackage, if_pos heven, Nat.mul_div_cancel_left i Nat.two_pos, getNodePublicKeys,
    hleaf, hkeys]
  rfl

theorem leafKeyPackage_of_none (h : t.getLeafData i = none) : t.leafKeyPackage (2 * i) = none := by
  rw [leafKeyPackage, Nat.mul_div_cancel_left i Nat.two_pos, h]
  exact ite_self none

theorem exists_getNodeKeys (h : t.isBlank i = false) : ∃ keys, t.getNodeKeys i = some keys := by
  rw [isBlank] at h
  cases hkeys : t.getNodeKeys i with
  | none =>
    rw [hkeys] at h
    cases h
  | some keys => exact ⟨keys, rfl⟩

/-- At an occupied leaf there are keys. -/
theorem RepInv.exists_keys (h : t.RepInv c) (hleaf : t.getLeafData i = some leaf) :
    ∃ keys, t.getNodeKeys (2 * i) = some keys := by
  refine exists_getNodeKeys ?_
  rw [h.paired, hleaf]
  rfl

/-! ## Reading nodes and leaves -/

/-- A private key of a serialised node. -/
def privateOf (data : Bytes) : Option Bytes := if data = [] then none else some data

theorem privateFromProto_eq {data : Bytes} (h : data = [] ∨ data.length = size) :
    privateFromProto size data = .ok (privateOf data) := by
  rw [privateFromProto, privateOf]
  split_ifs with hempty
  · rfl
  · rw [secureHandle_of_length_eq (h.resolve_left hempty)]
    rfl

/-- The nodes `from_proto` reads. -/
theorem nodeFromProto_eq_ok {pn : GroupTreeNode} {node : TreeNode} :
    nodeFromProto pn = .ok node ↔ pn.x25519Public = [] ∧ node = .blank ∨
      pn.x25519Public.length = x25519PublicKeyBytes ∧
      (pn.kyberPublic = [] ∨ pn.kyberPublic.length = kyberPublicKeyBytes) ∧
      (pn.x25519Private = [] ∨ pn.x25519Private.length = x25519PrivateKeyBytes) ∧
      (pn.kyberSecret = [] ∨ pn.kyberSecret.length = kyberSecretKeyBytes) ∧
      node = .populated ⟨pn.x25519Public, pn.kyberPublic, privateOf pn.x25519Private,
        privateOf pn.kyberSecret⟩ pn.parentHash := by
  rw [nodeFromProto]
  split_ifs with hempty
  · rw [Except.ok.injEq]
    constructor
    · intro h
      exact .inl ⟨hempty, h.symm⟩
    · rintro (⟨-, rfl⟩ | ⟨hlen, -⟩)
      · rfl
      · rw [hempty] at hlen
        cases hlen
  · simp only [except_seq_eq_ok, require_eq_ok]
    constructor
    · rintro ⟨hx25519, hkyber, hprivate, hsecret, h⟩
      rw [privateFromProto_eq hprivate, privateFromProto_eq hsecret] at h
      exact .inr ⟨hx25519, hkyber, hprivate, hsecret, (Except.ok.inj h).symm⟩
    · rintro (⟨h, -⟩ | ⟨hx25519, hkyber, hprivate, hsecret, rfl⟩)
      · exact absurd h hempty
      · refine ⟨hx25519, hkyber, hprivate, hsecret, ?_⟩
        rw [privateFromProto_eq hprivate, privateFromProto_eq hsecret]
        rfl

variable (c) in
/-- A leaf as it is read: free without a key package; with one, the key package is valid and has the
keys of the leaf node. -/
def LeafReads (node : TreeNode) (keyPackage : Option GroupKeyPackage) (leaf : Option LeafData) :
    Prop :=
  keyPackage = none ∧ leaf = none ∨
    ∃ pkg keys hash, keyPackage = some pkg ∧ node = .populated keys hash ∧
      KeyPackage.Valid c pkg ∧ keys.x25519Public = pkg.leafX25519Public ∧
      keys.kyberPublic = pkg.leafKyberPublic ∧ leaf = some (.ofKeyPackage pkg)

theorem leafFromProto_eq_ok {seen : List Bytes} {node : TreeNode}
    {keyPackage : Option GroupKeyPackage} {leaf : Option LeafData} :
    leafFromProto c seen node keyPackage = .ok leaf ↔ LeafReads c node keyPackage leaf ∧
      ∀ data ∈ leaf, data.identityEd25519Public ∉ seen := by
  cases keyPackage with
  | none =>
    rw [leafFromProto, Except.ok.injEq]
    constructor
    · rintro rfl
      exact ⟨.inl ⟨rfl, rfl⟩, fun data h => by cases h⟩
    · rintro ⟨⟨-, rfl⟩ | ⟨pkg, keys, hash, h, -⟩, -⟩
      · rfl
      · cases h
  | some pkg =>
    simp only [leafFromProto, except_seq_eq_ok, require_eq_ok, KeyPackage.validateKeyPackage_eq_ok]
    cases node with
    | blank =>
      constructor
      · rintro ⟨-, -, h⟩
        cases h
      · rintro ⟨⟨h, -⟩ | ⟨_, _, _, -, h, -⟩, -⟩
        · cases h
        · cases h
    | populated keys hash =>
      simp only [except_seq_eq_ok, require_eq_ok]
      constructor
      · rintro ⟨hvalid, hnew, ⟨hx25519, hkyber⟩, h⟩
        cases h
        refine ⟨.inr ⟨pkg, keys, hash, rfl, rfl, hvalid, hx25519, hkyber, rfl⟩, fun data hdata => ?_⟩
        cases hdata
        exact hnew
      · rintro ⟨⟨h, -⟩ | ⟨pkg', keys', hash', h, h', hvalid, hx25519, hkyber, rfl⟩, hnew⟩
        · cases h
        · cases h
          cases h'
          exact ⟨hvalid, hnew _ rfl, ⟨hx25519, hkyber⟩, rfl⟩

/-- The two leaves have different identities, if both have a member. -/
def Apart (leaf leaf' : Option LeafData) : Prop :=
  ∀ data ∈ leaf, ∀ data' ∈ leaf', data.identityEd25519Public ≠ data'.identityEd25519Public

theorem leavesFromProto_eq_ok {protoNodes : List GroupTreeNode} {nodes : List TreeNode} {count : ℕ}
    {seen : List Bytes} {leaves : List (Option LeafData)} (hlen : leaves.length = count) :
    leavesFromProto c protoNodes nodes i count seen = .ok ⟨leaves, hlen⟩ ↔
      (∀ k < count, LeafReads c ((nodes[2 * (i + k)]?).getD .blank)
        ((protoNodes[2 * (i + k)]?).bind (·.keyPackage)) (leaves[k]?.join)) ∧
      (∀ leaf ∈ leaves, ∀ data ∈ leaf, data.identityEd25519Public ∉ seen) ∧
      leaves.Pairwise Apart := by
  induction count generalizing i seen leaves with
  | zero =>
    obtain rfl := length_eq_zero_iff.mp hlen
    exact iff_of_true rfl ⟨fun k hk => by omega, fun leaf hleaf => (by cases hleaf), .nil⟩
  | succ count ih =>
    obtain ⟨leaf, rest, rfl⟩ := exists_cons_of_length_eq_add_one hlen
    have hrest : rest.length = count := Nat.succ.inj hlen
    have hsplit : (∀ k < count + 1, LeafReads c ((nodes[2 * (i + k)]?).getD .blank)
        ((protoNodes[2 * (i + k)]?).bind (·.keyPackage)) ((leaf :: rest)[k]?.join)) ↔
        LeafReads c ((nodes[2 * i]?).getD .blank) ((protoNodes[2 * i]?).bind (·.keyPackage)) leaf ∧
        ∀ k < count, LeafReads c ((nodes[2 * (i + 1 + k)]?).getD .blank)
          ((protoNodes[2 * (i + 1 + k)]?).bind (·.keyPackage)) (rest[k]?.join) := by
      constructor
      · intro h
        refine ⟨h 0 (Nat.succ_pos _), fun k hk => ?_⟩
        have := h (k + 1) (Nat.succ_lt_succ hk)
        rwa [List.getElem?_cons_succ, Nat.add_comm k 1, ← Nat.add_assoc] at this
      · rintro ⟨hzero, hsucc⟩ k hk
        cases k with
        | zero => exact hzero
        | succ k =>
          rw [List.getElem?_cons_succ, Nat.add_comm k 1, ← Nat.add_assoc]
          exact hsucc k (Nat.lt_of_succ_lt_succ hk)
    rw [hsplit, leavesFromProto, except_bind_eq_ok, forall_mem_cons, pairwise_cons]
    constructor
    · rintro ⟨leaf', hleaf, h⟩
      rw [except_bind_eq_ok] at h
      obtain ⟨⟨rest', hrest'⟩, hrun, h⟩ := h
      cases h
      obtain ⟨hreads, hnew⟩ := leafFromProto_eq_ok.mp hleaf
      obtain ⟨hreadsRest, hnewRest, hapart⟩ := (ih hrest').mp hrun
      cases leaf with
      | none =>
        exact ⟨⟨hreads, hreadsRest⟩, ⟨hnew, hnewRest⟩, fun _ _ _ h => (by cases h), hapart⟩
      | some data =>
        refine ⟨⟨hreads, hreadsRest⟩, ⟨hnew, fun leaf hleaf data' hdata' hseen => ?_⟩,
          fun leaf hleaf data₀ hdata₀ data' hdata' heq => ?_, hapart⟩
        · exact hnewRest leaf hleaf data' hdata' (mem_cons_of_mem _ hseen)
        · cases hdata₀
          exact hnewRest leaf hleaf data' hdata' (heq ▸ mem_cons_self)
    · rintro ⟨⟨hreads, hreadsRest⟩, ⟨hnew, hnewRest⟩, hfirst, hapart⟩
      refine ⟨leaf, leafFromProto_eq_ok.mpr ⟨hreads, hnew⟩, except_bind_eq_ok.mpr
        ⟨⟨rest, hrest⟩, (ih hrest).mpr ⟨hreadsRest, ?_, hapart⟩, rfl⟩⟩
      cases leaf with
      | none => exact hnewRest
      | some data =>
        intro leaf hleaf data' hdata' hseen
        rcases mem_cons.mp hseen with heq | hseen
        · exact hfirst leaf hleaf data rfl data' hdata' heq.symm
        · exact hnewRest leaf hleaf data' hdata' hseen

/-- The trees that `from_proto` reads. -/
theorem fromProto_eq_ok {protoNodes : List GroupTreeNode} :
    fromProto c protoNodes = .ok t ↔
      List.Forall₂ (fun pn node => nodeFromProto pn = .ok node) protoNodes t.nodes ∧
      (∀ i < t.leafCount, LeafReads c ((t.nodes[2 * i]?).getD .blank)
        ((protoNodes[2 * i]?).bind (·.keyPackage)) (t.getLeafData i)) ∧
      t.leaves.Pairwise Apart := by
  constructor
  · intro h
    rw [fromProto] at h
    split_ifs at h with hzero hodd hmax
    rw [except_bind_eq_ok] at h
    obtain ⟨nodes, hnodes, h⟩ := h
    rw [except_bind_eq_ok] at h
    obtain ⟨⟨leaves, hlen⟩, hleaves, h⟩ := h
    cases h
    obtain ⟨hreads, -, hapart⟩ := (leavesFromProto_eq_ok hlen).mp hleaves
    refine ⟨mapEach_eq_ok.mp hnodes, fun i hi => ?_, hapart⟩
    have := hreads i hi
    rwa [Nat.zero_add] at this
  · rintro ⟨hnodes, hreads, hapart⟩
    have hpos := t.leafCount_pos
    have hle := t.leafCount_le
    have hcount : protoNodes.length = 2 * t.leafCount - 1 := by
      rw [hnodes.length_eq, t.length_nodes, Tree.nodeCount, if_neg hpos.ne']
    have hmax : maxTreeNodes = 2 * maxGroupMembers - 1 := rfl
    have hhalf : (protoNodes.length + 1) / 2 = t.leafCount := by omega
    have hlen : t.leaves.length = (protoNodes.length + 1) / 2 := t.length_leaves.trans hhalf.symm
    rw [fromProto, if_neg (by omega), dif_neg (by omega), dif_neg (by omega)]
    refine except_bind_eq_ok.mpr ⟨⟨t.nodes, hnodes.length_eq.symm⟩, mapEach_eq_ok.mpr hnodes,
      except_bind_eq_ok.mpr ⟨⟨t.leaves, hlen⟩, (leavesFromProto_eq_ok hlen).mpr
        ⟨fun k hk => ?_, fun _ _ _ _ h => (by cases h), hapart⟩, congrArg Except.ok ?_⟩⟩
    · rw [Nat.zero_add]
      exact hreads k (hhalf ▸ hk)
    · exact ext_of_eq rfl rfl

/-! ## Imported trees -/

section Imported

variable {protoNodes : List GroupTreeNode}

/-- An entry of a serialised tree that is read as a blank node, or no entry. -/
def blankEntry (protoNodes : List GroupTreeNode) (i : ℕ) : Bool :=
  (protoNodes[i]?).all fun pn => pn.x25519Public == []

/-- The key package of a leaf of a serialised tree. -/
def entryKeyPackage (protoNodes : List GroupTreeNode) (i : ℕ) : Option GroupKeyPackage :=
  (protoNodes[2 * i]?).bind (·.keyPackage)

/-- What a serialised tree has to be for the tree read from it to have the invariant. -/
structure Sound (protoNodes : List GroupTreeNode) : Prop where
  nodeIndex : ∀ (i : ℕ) (pn : GroupTreeNode), protoNodes[i]? = some pn → pn.nodeIndex = i
  kyber : ∀ pn ∈ protoNodes, pn.x25519Public ≠ [] → pn.kyberPublic ≠ []
  member : ∀ i, blankEntry protoNodes (2 * i) = false →
    (entryKeyPackage protoNodes i).isSome = true
  covered : ∀ x ∈ (LeftBalanced.shape ((protoNodes.length + 1) / 2)).resolution
      (blankEntry protoNodes), ∃ i, (entryKeyPackage protoNodes i).isSome = true ∧
    (LeftBalanced.shape ((protoNodes.length + 1) / 2)).Below x (2 * i)

section

variable (h : fromProto c protoNodes = .ok t)
include h

/-- The keys of a node are those of its entry. -/
theorem getNodeKeys_of_fromProto {keys : HybridNodeKeys}
    (hkeys : t.getNodeKeys i = some keys) :
    ∃ pn, protoNodes[i]? = some pn ∧ pn.x25519Public.length = x25519PublicKeyBytes ∧
      (pn.kyberPublic = [] ∨ pn.kyberPublic.length = kyberPublicKeyBytes) ∧
      (pn.x25519Private = [] ∨ pn.x25519Private.length = x25519PrivateKeyBytes) ∧
      (pn.kyberSecret = [] ∨ pn.kyberSecret.length = kyberSecretKeyBytes) ∧
      keys = ⟨pn.x25519Public, pn.kyberPublic, privateOf pn.x25519Private,
        privateOf pn.kyberSecret⟩ := by
  obtain ⟨hnodes, -, -⟩ := fromProto_eq_ok.mp h
  rw [getNodeKeys] at hkeys
  split at hkeys
  · rename_i keys' hash hget
    cases hkeys
    have hlt := (List.getElem?_eq_some_iff.mp hget).1
    have hlt' : i < protoNodes.length := hnodes.length_eq ▸ hlt
    have hread := (forall₂_iff_get.mp hnodes).2 i hlt' hlt
    rw [List.getElem?_eq_getElem hlt, Option.some.injEq] at hget
    change nodeFromProto protoNodes[i] = .ok t.nodes[i] at hread
    rw [hget, nodeFromProto_eq_ok] at hread
    rcases hread with ⟨-, hblank⟩ | ⟨hx25519, hkyber, hprivate, hsecret, hnode⟩
    · cases hblank
    · cases hnode
      exact ⟨_, List.getElem?_eq_getElem hlt', hx25519, hkyber, hprivate, hsecret, rfl⟩
  · cases hkeys

/-- A node is blank if its entry is. -/
theorem isBlank_of_fromProto (i : ℕ) :
    t.isBlank i = blankEntry protoNodes i := by
  obtain ⟨hnodes, -, -⟩ := fromProto_eq_ok.mp h
  cases hblank : t.isBlank i with
  | false =>
    obtain ⟨keys, hkeys⟩ := exists_getNodeKeys hblank
    obtain ⟨pn, hpn, hlen, -⟩ := getNodeKeys_of_fromProto h hkeys
    rw [blankEntry, hpn]
    refine (beq_eq_false_iff_ne.mpr fun hempty => ?_).symm
    rw [hempty] at hlen
    cases hlen
  | true =>
    rw [blankEntry]
    cases hpn : protoNodes[i]? with
    | none => rfl
    | some pn =>
      have hlt := (List.getElem?_eq_some_iff.mp hpn).1
      have hlt' : i < t.nodes.length := hnodes.length_eq ▸ hlt
      have hread := (forall₂_iff_get.mp hnodes).2 i hlt hlt'
      rw [List.getElem?_eq_getElem hlt, Option.some.injEq] at hpn
      change nodeFromProto protoNodes[i] = .ok t.nodes[i] at hread
      rw [hpn, nodeFromProto_eq_ok] at hread
      rcases hread with ⟨hempty, -⟩ | ⟨-, -, -, -, hnode⟩
      · exact (beq_iff_eq.mpr hempty).symm
      · rw [isBlank_of_populated (List.getElem?_eq_getElem hlt' ▸ congrArg some hnode)] at hblank
        cases hblank

/-- A leaf has the member of its entry's key package. -/
theorem getLeafData_of_fromProto (i : ℕ) :
    t.getLeafData i = (entryKeyPackage protoNodes i).map .ofKeyPackage := by
  obtain ⟨hnodes, hreads, -⟩ := fromProto_eq_ok.mp h
  by_cases hi : i < t.leafCount
  · rcases hreads i hi with ⟨hnone, hleaf⟩ | ⟨pkg, keys, hash, hpkg, -, -, -, -, hleaf⟩
    · rw [hleaf, entryKeyPackage, hnone]
      rfl
    · rw [hleaf, entryKeyPackage, hpkg]
      rfl
  · have hlen : protoNodes.length ≤ 2 * i := by
      rw [hnodes.length_eq, t.length_nodes, Tree.nodeCount]
      split_ifs <;> omega
    rw [getLeafData, List.getElem?_eq_none (by rw [t.length_leaves]; exact not_lt.mp hi),
      entryKeyPackage, List.getElem?_eq_none hlen]
    rfl

/-- The member of an occupied leaf, with the keys of its node. -/
theorem leaf_of_fromProto (hleaf : t.getLeafData i = some leaf) :
    ∃ pkg keys, KeyPackage.Valid c pkg ∧ leaf = .ofKeyPackage pkg ∧
      t.getNodeKeys (2 * i) = some keys ∧ keys.x25519Public = pkg.leafX25519Public ∧
      keys.kyberPublic = pkg.leafKyberPublic := by
  obtain ⟨-, hreads, -⟩ := fromProto_eq_ok.mp h
  have hi : i < t.leafCount := by
    have hget : t.leaves[i]? = some (some leaf) := Option.join_eq_some_iff.mp hleaf
    rw [← t.length_leaves]
    exact (List.getElem?_eq_some_iff.mp hget).1
  rcases hreads i hi with ⟨-, hnone⟩ | ⟨pkg, keys, hash, -, hnode, hvalid, hx25519, hkyber, hdata⟩
  · cases hnone.symm.trans hleaf
  · cases hdata.symm.trans hleaf
    refine ⟨pkg, keys, hvalid, rfl, ?_, hx25519, hkyber⟩
    rw [getNodeKeys]
    cases hget : t.nodes[2 * i]? with
    | none =>
      rw [hget] at hnode
      cases hnode
    | some node =>
      rw [hget] at hnode
      cases hnode
      rfl

/-- The leaves of an imported tree are validly signed. -/
theorem signed_of_fromProto {pkg : GroupKeyPackage}
    (hpkg : t.leafKeyPackage (2 * i) = some pkg) : KeyPackage.Valid c pkg := by
  cases hleaf : t.getLeafData i with
  | none =>
    rw [leafKeyPackage_of_none hleaf] at hpkg
    cases hpkg
  | some leaf =>
    obtain ⟨pkg', keys, hvalid, rfl, hkeys, hx25519, hkyber⟩ := leaf_of_fromProto h hleaf
    rw [leafKeyPackage_eq t i hleaf hkeys] at hpkg
    cases hpkg
    have hsignature := hvalid.signature
    rw [KeyPackage.signedContent, hvalid.version, ← hx25519, ← hkyber] at hsignature
    exact ⟨rfl, hvalid.credential, hvalid.identityX25519, hvalid.identityKyber,
      hx25519 ▸ hvalid.leafX25519, hkyber ▸ hvalid.leafKyber, hsignature⟩

end

theorem getElem_leaves (h : t.getLeafData i = some leaf) :
    ∃ hi : i < t.leaves.length, t.leaves[i] = some leaf :=
  List.getElem?_eq_some_iff.mp (Option.join_eq_some_iff.mp h)

/-- Leaves that are pairwise apart have unique identities. -/
theorem unique_of_apart (h : t.leaves.Pairwise Apart) {j : ℕ} {leaf' : LeafData}
    (hi : t.getLeafData i = some leaf) (hj : t.getLeafData j = some leaf')
    (heq : leaf.identityEd25519Public = leaf'.identityEd25519Public) : i = j := by
  obtain ⟨hilt, hi⟩ := getElem_leaves hi
  obtain ⟨hjlt, hj⟩ := getElem_leaves hj
  rw [pairwise_iff_getElem] at h
  rcases Nat.lt_trichotomy i j with hlt | rfl | hlt
  · exact absurd heq (h i j hilt hjlt hlt leaf hi leaf' hj)
  · rfl
  · exact absurd heq.symm (h j i hjlt hilt hlt leaf' hj leaf hi)

section

variable (h : fromProto c protoNodes = .ok t)
include h

theorem paired_of_fromProto_iff :
    t.Paired ↔ ∀ i, blankEntry protoNodes (2 * i) = false →
      (entryKeyPackage protoNodes i).isSome = true := by
  have hmember : ∀ i, (t.getLeafData i).isNone = !(entryKeyPackage protoNodes i).isSome := by
    intro i
    rw [getLeafData_of_fromProto h, Option.isNone_map]
    cases entryKeyPackage protoNodes i <;> rfl
  constructor
  · intro hp i hpopulated
    have hi := hp i
    rw [isBlank_of_fromProto h, hpopulated, hmember] at hi
    exact Bool.not_eq_eq_eq_not.mp hi.symm
  · intro hall i
    rw [hmember, isBlank_of_fromProto h]
    cases hblank : blankEntry protoNodes (2 * i) with
    | false => rw [hall i hblank, Bool.not_true]
    | true =>
      -- a leaf with a member has keys
      cases hpkg : entryKeyPackage protoNodes i with
      | none => rfl
      | some pkg =>
        have hleaf : t.getLeafData i = some (.ofKeyPackage pkg) := by
          rw [getLeafData_of_fromProto h, hpkg]
          rfl
        obtain ⟨-, keys, -, -, hkeys, -⟩ := leaf_of_fromProto h hleaf
        rw [← isBlank_of_fromProto h, isBlank, hkeys] at hblank
        cases hblank

theorem fullSize_of_fromProto_iff :
    (∀ {i keys}, t.getNodeKeys i = some keys → keys.FullSize) ↔
      ∀ pn ∈ protoNodes, pn.x25519Public ≠ [] → pn.kyberPublic ≠ [] := by
  constructor
  · intro hfull pn hpn hne hempty
    obtain ⟨i, hi, rfl⟩ := mem_iff_getElem.mp hpn
    have hblank : t.isBlank i = false := by
      rw [isBlank_of_fromProto h, blankEntry, List.getElem?_eq_getElem hi]
      exact beq_eq_false_iff_ne.mpr hne
    obtain ⟨keys, hkeys⟩ := exists_getNodeKeys hblank
    obtain ⟨pn, hpn, -, -, -, -, rfl⟩ := getNodeKeys_of_fromProto h hkeys
    rw [List.getElem?_eq_getElem hi, Option.some.injEq] at hpn
    have hlen := (hfull hkeys).kyberPublic
    rw [← hpn, hempty] at hlen
    cases hlen
  · intro hall i keys hkeys
    obtain ⟨pn, hpn, hx25519, hkyber, hprivate, hsecret, rfl⟩ := getNodeKeys_of_fromProto h hkeys
    have hne : pn.x25519Public ≠ [] := by
      intro hempty
      rw [hempty] at hx25519
      cases hx25519
    have hlen : ∀ {data : Bytes} {size : ℕ}, (data = [] ∨ data.length = size) →
        ∀ key ∈ privateOf data, key.length = size := by
      intro data size hsize key hkey
      rw [privateOf] at hkey
      split_ifs at hkey with hempty
      · cases hkey
      · cases hkey
        exact hsize.resolve_left hempty
    exact ⟨hx25519, hkyber.resolve_left (hall pn (mem_of_getElem? hpn) hne), hlen hprivate,
      hlen hsecret⟩

theorem rootCovered_of_fromProto_iff :
    t.RootCovered ↔ ∀ x ∈ (LeftBalanced.shape ((protoNodes.length + 1) / 2)).resolution
        (blankEntry protoNodes), ∃ i, (entryKeyPackage protoNodes i).isSome = true ∧
      (LeftBalanced.shape ((protoNodes.length + 1) / 2)).Below x (2 * i) := by
  have hpos := t.leafCount_pos
  have hcount : (protoNodes.length + 1) / 2 = t.leafCount := by
    rw [(fromProto_eq_ok.mp h).1.length_eq, t.length_nodes, Tree.nodeCount, if_neg hpos.ne']
    omega
  have hblank : t.isBlank = blankEntry protoNodes := funext (isBlank_of_fromProto h)
  rw [rootCovered_iff, hcount, hblank]
  simp only [getLeafData_of_fromProto h, Option.isSome_map]

end

/-- Which serialised trees are read as trees with the invariant, with every key in the resolution of
the root above a member and every entry at its index: `from_proto` accepts more. -/
theorem fromProto_sound_iff (h : fromProto c protoNodes = .ok t) :
    (t.RepInv c ∧ t.RootCovered ∧
      ∀ (i : ℕ) (pn : GroupTreeNode), protoNodes[i]? = some pn → pn.nodeIndex = i) ↔
      Sound protoNodes := by
  constructor
  · rintro ⟨hinv, hcovered, hindex⟩
    exact ⟨hindex, (fullSize_of_fromProto_iff h).mp hinv.fullSize,
      (paired_of_fromProto_iff h).mp hinv.paired, (rootCovered_of_fromProto_iff h).mp hcovered⟩
  · intro hsound
    obtain ⟨-, -, hapart⟩ := fromProto_eq_ok.mp h
    exact ⟨⟨(paired_of_fromProto_iff h).mpr hsound.member,
      (fullSize_of_fromProto_iff h).mpr hsound.kyber, unique_of_apart hapart,
      signed_of_fromProto h⟩, (rootCovered_of_fromProto_iff h).mpr hsound.covered,
      hsound.nodeIndex⟩

/-- The entry of a leaf with a member. -/
def sampleEntry (nodeIdx : ℕ) (kp : GroupKeyPackage) : GroupTreeNode :=
  ⟨nodeIdx, kp.leafX25519Public, kp.leafKyberPublic, [], [], [], some kp⟩

/-- A serialised tree with one member, and keys without a member at the other leaf. -/
def sampleGhost (kp : GroupKeyPackage) : List GroupTreeNode :=
  [sampleEntry 0 kp, ⟨1, [], [], [], [], [], none⟩, { sampleEntry 2 kp with keyPackage := none }]

/-- What is read of it: the members, the resolution of the root, and the second leaf. -/
def sampleGhostRead : Except ProtocolError (ℕ × List ℕ × Bool × Bool) := do
  let (kp, _) ← KeyPackage.createKeyPackage .transparent (sampleMember 1) [1] (sampleKeyEntropy 1)
  let tree ← fromProto .transparent (sampleGhost kp)
  let resolution ← tree.resolution 1
  return (tree.memberCount, resolution, tree.isBlank 2, (tree.getLeafData 1).isNone)

theorem sampleGhostRead_eq : sampleGhostRead.toOption = some (1, [0, 2], false, true) := by
  decide +kernel

/-- The keys without a member are accepted, and are in the resolution of the root. -/
theorem fromProto_accepts_ghost : ∃ protoNodes tree,
    fromProto .transparent protoNodes = .ok tree ∧ tree.memberCount = 1 ∧
      tree.resolution 1 = .ok [0, 2] ∧ (tree.getLeafData 1).isNone = true ∧
      ¬ (tree.RepInv .transparent ∧ tree.RootCovered ∧
        ∀ (i : ℕ) (pn : GroupTreeNode), protoNodes[i]? = some pn → pn.nodeIndex = i) := by
  have h := toOption_eq_some.mp sampleGhostRead_eq
  simp only [sampleGhostRead, except_bind_eq_ok] at h
  obtain ⟨⟨kp, _⟩, -, tree, htree, resolution, hres, h⟩ := h
  obtain ⟨hmembers, hrest⟩ := Prod.mk.inj (Except.ok.inj h)
  obtain ⟨hresolution, hrest⟩ := Prod.mk.inj hrest
  obtain ⟨hpopulated, hnone⟩ := Prod.mk.inj hrest
  refine ⟨_, tree, htree, hmembers, hresolution ▸ hres, hnone, ?_⟩
  rintro ⟨hinv, -⟩
  have hpaired := hinv.paired 1
  rw [hpopulated, hnone] at hpaired
  cases hpaired

theorem fromProto_sound_iff_sample : ∃ protoNodes tree,
    fromProto .transparent protoNodes = .ok tree ∧
      ((tree.RepInv .transparent ∧ tree.RootCovered ∧
        ∀ (i : ℕ) (pn : GroupTreeNode), protoNodes[i]? = some pn → pn.nodeIndex = i) ↔
        Sound protoNodes) := by
  have h := toOption_eq_some.mp sampleGhostRead_eq
  simp only [sampleGhostRead, except_bind_eq_ok] at h
  obtain ⟨⟨kp, _⟩, -, tree, htree, -⟩ := h
  exact ⟨_, tree, htree, fromProto_sound_iff htree⟩

end Imported

/-! ## Exported trees -/

theorem privateOf_of_length {data : Bytes} (hpos : 0 < size) (h : data.length = size) :
    privateOf data = some data := by
  rw [privateOf, if_neg]
  rintro rfl
  rw [length_nil] at h
  omega

/-- A private key of full size is exported as it is. -/
theorem read_private {handle : Option Bytes} (h : ∀ key ∈ handle, key.length = size)
    (hpos : 0 < size) : let data := (handle.bind fun key => (readBytes key size).toOption).getD []
    privateOf data = handle ∧ (data = [] ∨ data.length = size) := by
  cases handle with
  | none => exact ⟨rfl, .inl rfl⟩
  | some key =>
    have hlen := h key rfl
    rw [Option.bind_some, readBytes_of_length_eq hlen]
    exact ⟨privateOf_of_length hpos hlen, .inr hlen⟩

theorem getElem?_exportNodes (t : RatchetTree) (p : ℕ → Bool) (i : ℕ) :
    ((t.exportNodes p)[i]?).bind (·.keyPackage) =
      if i < t.nodes.length then t.leafKeyPackage i else none := by
  rw [exportNodes, List.getElem?_mapIdx]
  by_cases hi : i < t.nodes.length
  · rw [List.getElem?_eq_getElem hi, if_pos hi]
    cases t.nodes[i] <;> rfl
  · rw [List.getElem?_eq_none (not_lt.mp hi), if_neg hi]
    rfl

/-- A tree with the invariant is read back from an export, with the private keys the export has. -/
theorem fromProto_exportNodes (h : t.RepInv c) (p : ℕ → Bool) :
    fromProto c (t.exportNodes p) = .ok (t.keepPrivate p) := by
  have hsame := t.samePublic_keepPrivate p
  refine fromProto_eq_ok.mpr ⟨?_, fun i hi => ?_, ?_⟩
  · rw [exportNodes, keepPrivate, mapNodes]
    refine forall₂_iff_get.mpr ⟨length_mapIdx.trans length_mapIdx.symm,
      fun i hi _ => ?_⟩
    rw [length_mapIdx] at hi
    rw [get_eq_getElem, get_eq_getElem, getElem_mapIdx, getElem_mapIdx]
    cases hnode : t.nodes[i] with
    | blank =>
      rw [TreeNode.strip, ite_self]
      rfl
    | populated keys hash =>
      have hkeys : t.getNodeKeys i = some keys := by
        rw [getNodeKeys, List.getElem?_eq_getElem hi, hnode]
      have hfull := h.fullSize hkeys
      obtain ⟨hprivate, hprivate'⟩ := read_private hfull.x25519Private (by decide)
      obtain ⟨hsecret, hsecret'⟩ := read_private hfull.kyberSecret (by decide)
      cases p i with
      | true =>
        refine nodeFromProto_eq_ok.mpr (.inr ⟨hfull.x25519Public, .inr hfull.kyberPublic, hprivate',
          hsecret', ?_⟩)
        simp only [if_true, hprivate, hsecret]
      | false =>
        exact nodeFromProto_eq_ok.mpr (.inr ⟨hfull.x25519Public, .inr hfull.kyberPublic, .inl rfl,
          .inl rfl, rfl⟩)
  · have hlt : 2 * i < t.nodes.length := by
      change i < t.leafCount at hi
      rw [t.length_nodes, Tree.nodeCount]
      split_ifs <;> omega
    rw [getElem?_exportNodes, if_pos hlt, hsame.getLeafData]
    cases hleaf : t.getLeafData i with
    | none => exact .inl ⟨leafKeyPackage_of_none hleaf, rfl⟩
    | some leaf =>
      obtain ⟨keys, hkeys⟩ := h.exists_keys hleaf
      have hpkg := leafKeyPackage_eq t i hleaf hkeys
      rcases hsame.node_cases (2 * i) with ⟨hnode, -⟩ | ⟨hnode, -⟩ |
        ⟨keys₀, keys', hash, hnode, hnode', hx25519, hkyber⟩
      · rw [getNodeKeys, hnode] at hkeys
        cases hkeys
      · rw [getNodeKeys, hnode] at hkeys
        cases hkeys
      · rw [getNodeKeys, hnode] at hkeys
        cases hkeys
        refine .inr ⟨_, keys', hash, hpkg, ?_, h.signed hpkg, hx25519, hkyber, rfl⟩
        rw [hnode']
        rfl
  · change t.leaves.Pairwise Apart
    rw [pairwise_iff_getElem]
    intro i j hi hj hlt data hdata data' hdata' heq
    have hleaf : t.getLeafData i = some data := by
      rw [getLeafData, List.getElem?_eq_getElem hi]
      exact hdata
    have hleaf' : t.getLeafData j = some data' := by
      rw [getLeafData, List.getElem?_eq_getElem hj]
      exact hdata'
    exact hlt.ne (h.unique hleaf hleaf' heq)

theorem keepPrivate_true (t : RatchetTree) : t.keepPrivate (fun _ => true) = t := by
  refine ext_of_eq (ext_getElem length_mapIdx fun i _ _ => ?_) rfl
  exact getElem_mapIdx.trans (if_pos rfl)

/-- A tree with the invariant is read back from its export with private keys. -/
theorem fromProto_exportWithPrivateKeys (h : t.RepInv c) :
    fromProto c t.exportWithPrivateKeys = .ok t := by
  rw [exportWithPrivateKeys, fromProto_exportNodes h, keepPrivate_true]

end RatchetTree

end AuraProtocol.Group
