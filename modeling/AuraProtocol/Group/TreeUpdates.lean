import AuraProtocol.Group.Members
import AuraProtocol.Group.TreeInvariant

/-!
# Commits keep the invariant of the tree

Every accepted commit keeps `RatchetTree.RepInv`, at the committer and at every member that
processes it.  The proposals blank leaves with their paths and fill free leaves with checked
key packages of new identities.  The update path replaces the keys of inner nodes, which the
invariant only asks to be of full size, and the keys of one leaf, which is signed again
(`Replaced`).  A member checks that signature; the committer makes it, so it is valid if the
committer signs with the key of its leaf.
-/

namespace AuraProtocol.Group

open Fallible

variable {u : Unit} {keys : HybridNodeKeys}

/-- The keys of a node. -/
def TreeNode.keys? : TreeNode → Option HybridNodeKeys
  | .blank => none
  | .populated keys _ => some keys

namespace RatchetTree

variable {c : Crypto} {t t' t'' : RatchetTree} {i : ℕ}

/-! ## Writing nodes -/

theorem getNodeKeys_eq (t : RatchetTree) (i : ℕ) :
    t.getNodeKeys i = (t.nodes[i]?).bind TreeNode.keys? := by
  rw [getNodeKeys]
  rcases t.nodes[i]? with _ | _ | _ <;> rfl

theorem getNodeKeys_setNode (t : RatchetTree) (i : ℕ) (node : TreeNode) (j : ℕ) :
    (t.setNode i node).getNodeKeys j =
      if j = i ∧ i < t.nodes.length then node.keys? else t.getNodeKeys j := by
  rw [getNodeKeys_eq, getNodeKeys_eq, setNode, List.getElem?_set]
  by_cases hij : i = j
  · subst hij
    by_cases hlt : i < t.nodes.length
    · rw [if_pos rfl, if_pos hlt, if_pos ⟨rfl, hlt⟩]
      rfl
    · rw [if_pos rfl, if_neg hlt, if_neg fun h => hlt h.2, List.getElem?_eq_none (not_lt.mp hlt)]
  · rw [if_neg hij, if_neg fun h => hij h.1.symm]

/-- All keys of a tree have full size. -/
def FullSize (t : RatchetTree) : Prop := ∀ {i keys}, t.getNodeKeys i = some keys → keys.FullSize

theorem FullSize.setNode (h : t.FullSize) {node : TreeNode}
    (hnode : ∀ keys ∈ node.keys?, keys.FullSize) (i : ℕ) : (t.setNode i node).FullSize := by
  intro j keys hkeys
  rw [getNodeKeys_setNode] at hkeys
  split_ifs at hkeys
  · exact hnode keys hkeys
  · exact h hkeys

/-- The node of a populated place. -/
theorem getNodeKeys_of_populated {hash : Bytes} (h : t.nodes[i]? = some (.populated keys hash)) :
    t.getNodeKeys i = some keys := by
  rw [getNodeKeys, h]

theorem lt_length_nodes {node : TreeNode} (h : t.nodes[i]? = some node) : i < t.nodes.length :=
  (List.getElem?_eq_some_iff.mp h).1

/-- How `set_node_public_keys` runs. -/
theorem setNodePublicKeys_run (t : RatchetTree) (i : ℕ) (x25519Public kyberPublic : Bytes) :
    (∃ e, (setNodePublicKeys i x25519Public kyberPublic).run t = .error e t) ∨
    i < t.nodes.length ∧ ∃ keys hash, keys.x25519Public = x25519Public ∧
      keys.kyberPublic = kyberPublic ∧
      (keys.x25519Private = none ∧ keys.kyberSecret = none ∨
        ∃ old, t.getNodeKeys i = some old ∧ keys.x25519Private = old.x25519Private ∧
          keys.kyberSecret = old.kyberSecret) ∧
      (setNodePublicKeys i x25519Public kyberPublic).run t =
        .ok () (t.setNode i (.populated keys hash)) := by
  rw [setNodePublicKeys, get_bind_run]
  cases hnode : t.nodes[i]? with
  | none => exact .inl ⟨_, rfl⟩
  | some node =>
    refine .inr ⟨lt_length_nodes hnode, ?_⟩
    cases node with
    | blank => exact ⟨_, _, rfl, rfl, .inl ⟨rfl, rfl⟩, rfl⟩
    | populated keys hash =>
      exact ⟨{ keys with x25519Public := x25519Public, kyberPublic := kyberPublic }, hash, rfl, rfl,
        .inr ⟨keys, getNodeKeys_of_populated hnode, rfl, rfl⟩, rfl⟩

/-- What keeps the leaves of a tree and their public keys, and full sizes. -/
structure KeepsLeaves (t t' : RatchetTree) : Prop where
  leaves : t'.leaves = t.leaves
  leafKeys : ∀ i, t'.getNodePublicKeys (2 * i) = t.getNodePublicKeys (2 * i)
  fullSize : t.FullSize → t'.FullSize

instance : IsPreorder RatchetTree KeepsLeaves where
  refl _ := ⟨rfl, fun _ => rfl, id⟩
  trans _ _ _ h h' := ⟨h'.leaves.trans h.leaves, fun i => (h'.leafKeys i).trans (h.leafKeys i),
    h'.fullSize ∘ h.fullSize⟩

theorem FullSize.setNodePublicKeys (h : t.FullSize) {x25519Public kyberPublic : Bytes}
    (hx25519 : x25519Public.length = x25519PublicKeyBytes)
    (hkyber : kyberPublic.length = kyberPublicKeyBytes)
    (hpublic : keys.x25519Public = x25519Public ∧ keys.kyberPublic = kyberPublic)
    (hprivate : keys.x25519Private = none ∧ keys.kyberSecret = none ∨
      ∃ old, t.getNodeKeys i = some old ∧ keys.x25519Private = old.x25519Private ∧
        keys.kyberSecret = old.kyberSecret) : keys.FullSize := by
  refine ⟨hpublic.1 ▸ hx25519, hpublic.2 ▸ hkyber, ?_, ?_⟩
  · rcases hprivate with ⟨hnone, -⟩ | ⟨old, hold, heq, -⟩
    · rw [hnone]
      exact fun key hkey => (by cases hkey)
    · rw [heq]
      exact (h hold).x25519Private
  · rcases hprivate with ⟨-, hnone⟩ | ⟨old, hold, -, heq⟩
    · rw [hnone]
      exact fun key hkey => (by cases hkey)
    · rw [heq]
      exact (h hold).kyberSecret

/-- Writing the keys of an inner node. -/
theorem keepsLeaves_setNodePublicKeys {x : ℕ} (hinner : Tree.isLeaf x = false)
    {x25519Public kyberPublic : Bytes} (hx25519 : x25519Public.length = x25519PublicKeyBytes)
    (hkyber : kyberPublic.length = kyberPublicKeyBytes) :
    Keeps KeepsLeaves (setNodePublicKeys x x25519Public kyberPublic) := by
  intro t
  rcases setNodePublicKeys_run t x x25519Public kyberPublic with
    ⟨e, hrun⟩ | ⟨-, keys, hash, hx, hk, hprivate, hrun⟩
  · rw [hrun]
    exact refl t
  · rw [hrun]
    refine ⟨rfl, fun i => ?_, fun hfull => ?_⟩
    · have hne : 2 * i ≠ x := by
        rintro rfl
        rw [Tree.isLeaf, Nat.mul_mod_right] at hinner
        cases hinner
      rw [endState_ok, getNodePublicKeys, getNodePublicKeys, getNodeKeys_setNode,
        if_neg fun h => hne h.1]
    · refine hfull.setNode (fun keys' hkeys' => ?_) x
      cases hkeys'
      exact hfull.setNodePublicKeys hx25519 hkyber ⟨hx, hk⟩ hprivate

/-- Writing a node that keeps its public keys. -/
theorem keepsLeaves_setNode {x : ℕ} {keys' : HybridNodeKeys} {hash : Bytes}
    (hnode : t.nodes[x]? = some (.populated keys hash))
    (hpublic : keys'.x25519Public = keys.x25519Public ∧ keys'.kyberPublic = keys.kyberPublic)
    (hfull : keys.FullSize → keys'.FullSize) (hash' : Bytes) :
    KeepsLeaves t (t.setNode x (.populated keys' hash')) := by
  have hkeys := getNodeKeys_of_populated hnode
  refine ⟨rfl, fun i => ?_, fun h => h.setNode (fun keys'' hkeys'' => ?_) x⟩
  · rw [getNodePublicKeys, getNodePublicKeys, getNodeKeys_setNode]
    split_ifs with h
    · rw [h.1, hkeys, TreeNode.keys?, Option.map_some, hpublic.1, hpublic.2]
      rfl
    · rfl
  · cases hkeys''
    exact hfull (h hkeys)

theorem keepsLeaves_setNodePrivateKeys (x : ℕ) {x25519Private kyberSecret : Bytes}
    (hx25519 : x25519Private.length = x25519PrivateKeyBytes)
    (hkyber : kyberSecret.length = kyberSecretKeyBytes) :
    Keeps KeepsLeaves (setNodePrivateKeys x x25519Private kyberSecret) := by
  intro t
  rw [setNodePrivateKeys, get_bind_run]
  rcases hnode : t.nodes[x]? with _ | _ | ⟨keys, hash⟩
  · exact refl t
  · exact refl t
  · refine keepsLeaves_setNode hnode ?_ (fun h => ?_) hash
    · exact ⟨rfl, rfl⟩
    refine ⟨h.x25519Public, h.kyberPublic, fun key hkey => ?_, fun key hkey => ?_⟩
    · cases hkey
      exact hx25519
    · cases hkey
      exact hkyber

theorem keepsLeaves_setNodeParentHash (x : ℕ) (hash : Bytes) :
    Keeps KeepsLeaves (setNodeParentHash x hash) := by
  intro t
  rw [setNodeParentHash, get_bind_run]
  rcases hnode : t.nodes[x]? with _ | _ | ⟨keys, hash'⟩
  · exact refl t
  · exact refl t
  · exact keepsLeaves_setNode hnode ⟨rfl, rfl⟩ id hash

/-! ## A leaf with new keys and a new signature -/

/-- The leaf `i` has new keys, and nothing else has changed that the invariant is about. -/
structure Repathed (i : ℕ) (x25519Public kyberPublic : Bytes) (t t' : RatchetTree) : Prop where
  leaves : t'.leaves = t.leaves
  own : t'.getNodePublicKeys (2 * i) = some (x25519Public, kyberPublic)
  others : ∀ j, j ≠ i → t'.getNodePublicKeys (2 * j) = t.getNodePublicKeys (2 * j)
  fullSize : t.FullSize → t'.FullSize

/-- The leaf `i` has new keys and a new signature. -/
structure Replaced (i : ℕ) (x25519Public kyberPublic signature : Bytes) (t t' : RatchetTree) :
    Prop where
  leaf : ∀ j, t'.getLeafData j = if j = i
    then (t.getLeafData i).map fun leaf => { leaf with signature := signature }
    else t.getLeafData j
  own : t'.getNodePublicKeys (2 * i) = some (x25519Public, kyberPublic)
  others : ∀ j, j ≠ i → t'.getNodePublicKeys (2 * j) = t.getNodePublicKeys (2 * j)
  fullSize : t.FullSize → t'.FullSize

variable {x25519Public kyberPublic signature : Bytes} {leaf : LeafData}

theorem KeepsLeaves.repathed (h : KeepsLeaves t t')
    (hrest : Repathed i x25519Public kyberPublic t' t'') :
    Repathed i x25519Public kyberPublic t t'' :=
  ⟨hrest.leaves.trans h.leaves, hrest.own, fun j hj => (hrest.others j hj).trans (h.leafKeys j),
    fun hfull => hrest.fullSize (h.fullSize hfull)⟩

theorem Repathed.keepsLeaves (h : Repathed i x25519Public kyberPublic t t')
    (hrest : KeepsLeaves t' t'') : Repathed i x25519Public kyberPublic t t'' :=
  ⟨hrest.leaves.trans h.leaves, (hrest.leafKeys i).trans h.own,
    fun j hj => (hrest.leafKeys j).trans (h.others j hj),
    fun hfull => hrest.fullSize (h.fullSize hfull)⟩

theorem Replaced.keepsLeaves (h : Replaced i x25519Public kyberPublic signature t t')
    (hrest : KeepsLeaves t' t'') : Replaced i x25519Public kyberPublic signature t t'' :=
  ⟨fun j => (getLeafData_congr hrest.leaves j).trans (h.leaf j), (hrest.leafKeys i).trans h.own,
    fun j hj => (hrest.leafKeys j).trans (h.others j hj),
    fun hfull => hrest.fullSize (h.fullSize hfull)⟩

/-- Writing the keys of a leaf. -/
theorem repathed_of_setNodePublicKeys (hx25519 : x25519Public.length = x25519PublicKeyBytes)
    (hkyber : kyberPublic.length = kyberPublicKeyBytes)
    (h : (setNodePublicKeys (2 * i) x25519Public kyberPublic).run t = .ok u t') :
    Repathed i x25519Public kyberPublic t t' := by
  rcases setNodePublicKeys_run t (2 * i) x25519Public kyberPublic with
    ⟨e, hrun⟩ | ⟨hlt, keys, hash, hx, hk, hprivate, hrun⟩
  · cases h.symm.trans hrun
  · cases h.symm.trans hrun
    refine ⟨rfl, ?_, fun j hj => ?_, fun hfull => ?_⟩
    · rw [getNodePublicKeys, getNodeKeys_setNode, if_pos ⟨rfl, hlt⟩, TreeNode.keys?,
        Option.map_some, hx, hk]
    · rw [getNodePublicKeys, getNodePublicKeys, getNodeKeys_setNode, if_neg fun h => hj (by omega)]
    · refine hfull.setNode (fun keys' hkeys' => ?_) (2 * i)
      cases hkeys'
      exact hfull.setNodePublicKeys hx25519 hkyber ⟨hx, hk⟩ hprivate

/-- Then signing it. -/
theorem Repathed.setLeafSignature (h : Repathed i x25519Public kyberPublic t t')
    (hrun : (setLeafSignature i signature).run t' = .ok u t'') :
    Replaced i x25519Public kyberPublic signature t t'' := by
  rw [RatchetTree.setLeafSignature, get_bind_run] at hrun
  cases hleaf : t'.getLeafData i with
  | none =>
    rw [hleaf] at hrun
    cases hrun
  | some leaf =>
    rw [hleaf] at hrun
    cases hrun
    refine ⟨fun j => ?_, h.own, h.others, h.fullSize⟩
    rw [getLeafData_setLeaf (lt_leafCount_of_getLeafData hleaf), ← getLeafData_congr h.leaves i,
      ← getLeafData_congr h.leaves j, hleaf]
    rfl

theorem isBlank_eq (t : RatchetTree) (i : ℕ) : t.isBlank i = (t.getNodePublicKeys i).isNone := by
  rw [isBlank, getNodePublicKeys, Option.isNone_map]

/-- The key package of a leaf depends on its member and its keys only. -/
theorem leafKeyPackage_congr (hleaf : t'.getLeafData i = t.getLeafData i)
    (hkeys : t'.getNodePublicKeys (2 * i) = t.getNodePublicKeys (2 * i)) :
    t'.leafKeyPackage (2 * i) = t.leafKeyPackage (2 * i) := by
  rw [leafKeyPackage, leafKeyPackage, Nat.mul_div_cancel_left i Nat.two_pos, hleaf, hkeys]

theorem RepInv.keepsLeaves (h : t.RepInv c) (hrest : KeepsLeaves t t') : t'.RepInv c := by
  have hleaf := getLeafData_congr hrest.leaves
  refine ⟨fun j => ?_, hrest.fullSize h.fullSize, ?_, ?_⟩
  · rw [isBlank_eq, hrest.leafKeys, ← isBlank_eq, hleaf]
    exact h.paired j
  · intro j k leaf leaf' hj hk heq
    exact h.unique ((hleaf j).symm.trans hj) ((hleaf k).symm.trans hk) heq
  · intro j pkg hpkg
    exact h.signed ((leafKeyPackage_congr (hleaf j) (hrest.leafKeys j)).symm.trans hpkg)

/-- A tree keeps the invariant if one leaf changes and is then free, or has a validly signed key
package of an identity that no other leaf has. -/
theorem RepInv.changeLeaf (h : t.RepInv c) (hfull : t'.FullSize)
    (hdata : ∀ j, j ≠ i → t'.getLeafData j = t.getLeafData j)
    (hkeys : ∀ j, j ≠ i → t'.getNodePublicKeys (2 * j) = t.getNodePublicKeys (2 * j))
    (hown : t'.getLeafData i = none ∧ t'.getNodePublicKeys (2 * i) = none ∨
      ∃ leaf x25519Public kyberPublic, t'.getLeafData i = some leaf ∧
        t'.getNodePublicKeys (2 * i) = some (x25519Public, kyberPublic) ∧
        KeyPackage.Valid c (updatedPackage leaf x25519Public kyberPublic leaf.signature) ∧
        ∀ j old, j ≠ i → t.getLeafData j = some old →
          old.identityEd25519Public ≠ leaf.identityEd25519Public) : t'.RepInv c := by
  have hnew : ∀ j leaf leaf', j ≠ i → t'.getLeafData i = some leaf → t'.getLeafData j = some leaf' →
      leaf'.identityEd25519Public ≠ leaf.identityEd25519Public := by
    intro j leaf leaf' hj hleaf hleaf'
    rcases hown with ⟨hnone, -⟩ | ⟨_, _, _, hsome, -, -, hother⟩
    · cases hnone.symm.trans hleaf
    · cases hsome.symm.trans hleaf
      exact hother j leaf' hj ((hdata j hj).symm.trans hleaf')
  refine ⟨fun j => ?_, hfull, ?_, ?_⟩
  · by_cases hj : j = i
    · subst hj
      rw [isBlank_eq]
      rcases hown with ⟨hnone, hblank⟩ | ⟨_, _, _, hsome, hpopulated, -⟩
      · rw [hblank, hnone]
        rfl
      · rw [hpopulated, hsome]
        rfl
    · rw [isBlank_eq, hkeys j hj, hdata j hj, ← isBlank_eq]
      exact h.paired j
  · intro j k leaf leaf' hj hk heq
    by_cases hji : j = i
    · subst hji
      by_contra hne
      exact hnew k _ _ (Ne.symm hne) hj hk heq.symm
    · by_cases hki : k = i
      · subst hki
        exact absurd heq (hnew j _ _ hji hk hj)
      · exact h.unique ((hdata j hji).symm.trans hj) ((hdata k hki).symm.trans hk) heq
  · intro j pkg hpkg
    by_cases hj : j = i
    · subst hj
      rcases hown with ⟨hnone, -⟩ | ⟨leaf, _, _, hsome, hpopulated, hvalid, -⟩
      · rw [leafKeyPackage_of_none hnone] at hpkg
        cases hpkg
      · rw [getNodePublicKeys, Option.map_eq_some_iff] at hpopulated
        obtain ⟨keys, hnode, hpair⟩ := hpopulated
        obtain ⟨rfl, rfl⟩ := Prod.mk.inj hpair
        rw [leafKeyPackage_eq t' j hsome hnode] at hpkg
        cases hpkg
        exact hvalid
    · exact h.signed ((leafKeyPackage_congr (hdata j hj) (hkeys j hj)).symm.trans hpkg)

/-- A tree keeps the invariant if the new leaf is validly signed. -/
theorem RepInv.replaced (h : t.RepInv c)
    (hr : Replaced i x25519Public kyberPublic signature t t')
    (hleaf : t.getLeafData i = some leaf)
    (hvalid : KeyPackage.Valid c (updatedPackage leaf x25519Public kyberPublic signature)) :
    t'.RepInv c := by
  refine h.changeLeaf (hr.fullSize h.fullSize) (fun j hj => by rw [hr.leaf, if_neg hj]) hr.others
    (.inr ⟨{ leaf with signature := signature }, _, _, ?_, hr.own, hvalid, ?_⟩)
  · rw [hr.leaf, if_pos rfl, hleaf]
    rfl
  · exact fun j old hj hold heq => hj (h.unique hold hleaf heq)

/-! ## Proposals -/

theorem lt_length_leaf (h : i < t.leafCount) : 2 * i < t.nodes.length := by
  rw [t.length_nodes, Tree.nodeCount]
  split_ifs <;> omega

theorem getNodeKeys_blankNodes (t : RatchetTree) (path : List ℕ) (j : ℕ) :
    (t.blankNodes path).getNodeKeys j = if j ∈ path then none else t.getNodeKeys j := by
  induction path generalizing t with
  | nil => rfl
  | cons x path ih =>
    change ((t.setNode x .blank).blankNodes path).getNodeKeys j = _
    rw [ih, getNodeKeys_setNode]
    by_cases hj : j = x
    · subst hj
      rw [if_pos List.mem_cons_self]
      split_ifs with hmem hlt
      · rfl
      · rfl
      · -- outside of the tree there are no keys
        rw [getNodeKeys_eq, List.getElem?_eq_none (not_lt.mp fun h => hlt ⟨rfl, h⟩)]
        rfl
    · rw [if_neg (fun h : j = x ∧ x < t.nodes.length => hj h.1)]
      simp only [List.mem_cons, hj, false_or]

/-- A blanked leaf loses its keys, the nodes above lose theirs, and the other leaves keep theirs. -/
theorem getNodeKeys_of_blankLeaf (h : (blankLeaf i).run t = .ok u t') :
    t'.getNodeKeys (2 * i) = none ∧
      (∀ j, j ≠ i → t'.getNodeKeys (2 * j) = t.getNodeKeys (2 * j)) ∧
      ∀ x keys, t'.getNodeKeys x = some keys → t.getNodeKeys x = some keys := by
  rw [blankLeaf, get_bind_run, require_bind_eq_ok, require_bind_eq_ok, lift_bind_eq_ok] at h
  obtain ⟨hi, -, node, hnode, h⟩ := h
  cases Tree.checkedLeafToNode_eq hnode
  rw [modify_bind_run] at h
  have hkeys : ∀ x, ((t.setNode (2 * i) .blank).setLeaf i none).getNodeKeys x =
      if x = 2 * i then none else t.getNodeKeys x := by
    intro x
    change (t.setNode (2 * i) .blank).getNodeKeys x = _
    rw [getNodeKeys_setNode]
    simp only [lt_length_leaf hi, and_true]
    rfl
  have hkept : ∀ {path : List ℕ} {t' : RatchetTree}, (∀ x ∈ path, Tree.isLeaf x = false) →
      (∀ x, t'.getNodeKeys x = if x ∈ path then none else if x = 2 * i then none
        else t.getNodeKeys x) →
      t'.getNodeKeys (2 * i) = none ∧
        (∀ j, j ≠ i → t'.getNodeKeys (2 * j) = t.getNodeKeys (2 * j)) ∧
        ∀ x keys, t'.getNodeKeys x = some keys → t.getNodeKeys x = some keys := by
    intro path t' hinner ht'
    refine ⟨?_, fun j hj => ?_, fun x keys hx => ?_⟩
    · rw [ht', if_pos rfl, ite_self]
    · have hnot : 2 * j ∉ path := by
        intro hmem
        have := hinner _ hmem
        rw [Tree.isLeaf, Nat.mul_mod_right] at this
        cases this
      rw [ht', if_neg hnot, if_neg (by omega)]
    · rw [ht'] at hx
      split_ifs at hx
      exact hx
  split_ifs at h with hcount
  · rw [lift_bind_eq_ok] at h
    obtain ⟨path, hpath, h⟩ := h
    rw [modify_run] at h
    cases h
    refine hkept (Tree.isLeaf_of_mem_directPath t.leafCount_pos t.leafCount_le_depth hi hpath).1
      fun x => ?_
    rw [getNodeKeys_blankNodes, hkeys]
  · cases h
    exact hkept (fun x (hx : x ∈ []) => absurd hx List.not_mem_nil) hkeys

theorem RepInv.blankLeaf (h : t.RepInv c) (hrun : (RatchetTree.blankLeaf i).run t = .ok u t') :
    t'.RepInv c := by
  obtain ⟨hown, hothers, hsub⟩ := getNodeKeys_of_blankLeaf hrun
  have hleaf := getLeafData_of_blankLeaf hrun
  refine h.changeLeaf (i := i) (fun hkeys => h.fullSize (hsub _ _ hkeys)) (fun j hj => ?_)
    (fun j hj => ?_) (.inl ⟨?_, ?_⟩)
  · rw [hleaf, if_neg hj]
  · rw [getNodePublicKeys, getNodePublicKeys, hothers j hj]
  · rw [hleaf, if_pos rfl]
  · rw [getNodePublicKeys, hown]
    rfl

/-- An added leaf has the keys it was added with, and no others change. -/
theorem getNodeKeys_of_addLeaf {leafData : LeafData}
    (h : (addLeaf x25519Public kyberPublic leafData).run t = .ok i t') (x : ℕ) :
    t'.getNodeKeys x =
      if x = 2 * i then some ⟨x25519Public, kyberPublic, none, none⟩ else t.getNodeKeys x := by
  change addLeaf x25519Public kyberPublic leafData t = _ at h
  rw [addLeaf] at h
  split_ifs at h with hmembers
  split at h
  · rename_i idx hidx
    cases h
    obtain ⟨hlt, -, -⟩ := List.findIdx?_eq_some_iff_getElem.mp hidx
    rw [t.length_leaves] at hlt
    change (t.setNode (2 * i) _).getNodeKeys x = _
    rw [getNodeKeys_setNode]
    simp only [lt_length_leaf hlt, and_true]
    rfl
  · cases h
    have hpos := t.leafCount_pos
    have hlen : t.nodes.length = 2 * t.leafCount - 1 := by
      rw [t.length_nodes, Tree.nodeCount, if_neg hpos.ne']
    rw [getNodeKeys_eq, getNodeKeys_eq]
    change ((t.nodes ++ [.blank, .publicOnly x25519Public kyberPublic])[x]?).bind TreeNode.keys? = _
    rcases Nat.lt_trichotomy x (2 * t.leafCount - 1) with hlt | rfl | hgt
    · rw [List.getElem?_append_left (by omega), if_neg (by omega)]
    · -- the parent that comes with the new leaf is blank
      rw [if_neg (by omega), List.getElem?_append_right hlen.le, hlen, Nat.sub_self,
        List.getElem?_eq_none hlen.le]
      rfl
    · rw [List.getElem?_append_right (by omega), hlen]
      split_ifs with hx
      · rw [hx, show 2 * t.leafCount - (2 * t.leafCount - 1) = 1 by omega]
        rfl
      · rw [List.getElem?_eq_none (by simp only [List.length_cons, List.length_nil]; omega),
          List.getElem?_eq_none (by omega)]

/-- A checked key package of a new identity keeps the invariant. -/
theorem RepInv.addLeaf (h : t.RepInv c) {kp : GroupKeyPackage} (hvalid : KeyPackage.Valid c kp)
    (hnew : ∀ j leaf, t.getLeafData j = some leaf →
      leaf.identityEd25519Public ≠ kp.identityEd25519Public)
    (hrun : (RatchetTree.addLeaf kp.leafX25519Public kp.leafKyberPublic (.ofKeyPackage kp)).run t =
      .ok i t') : t'.RepInv c := by
  obtain ⟨hfree, hleaf⟩ := getLeafData_of_addLeaf hrun
  have hkeys := getNodeKeys_of_addLeaf hrun
  have hfull : t'.FullSize := by
    intro x keys hx
    rw [hkeys] at hx
    split_ifs at hx
    · cases hx
      exact ⟨DhValidator.length_of_validate hvalid.leafX25519,
        (KyberInterop.validatePublicKey_eq_ok.mp hvalid.leafKyber).1, fun _ h => (by cases h),
        fun _ h => (by cases h)⟩
    · exact h.fullSize hx
  refine h.changeLeaf (i := i) hfull (fun j hj => ?_) (fun j hj => ?_)
    (.inr ⟨.ofKeyPackage kp, kp.leafX25519Public, kp.leafKyberPublic, ?_, ?_, ?_, ?_⟩)
  · rw [hleaf, if_neg hj]
  · rw [getNodePublicKeys, getNodePublicKeys, hkeys, if_neg (by omega)]
  · rw [hleaf, if_pos rfl]
  · rw [getNodePublicKeys, hkeys, if_pos rfl]
    rfl
  · have hsignature := hvalid.signature
    rw [KeyPackage.signedContent, hvalid.version] at hsignature
    exact ⟨rfl, hvalid.credential, hvalid.identityX25519, hvalid.identityKyber,
      hvalid.leafX25519, hvalid.leafKyber, hsignature⟩
  · exact fun j old _ => hnew j old

end RatchetTree

end AuraProtocol.Group
