import AuraProtocol.Group.Tree

/-!
# The public part of a tree

The members of a group hold the same tree up to the private keys (`SamePublic`).  Everything a
member computes from a tree except the decryption of a path secret reads the public part only, so
members that share it compute the same hashes.
-/

namespace AuraProtocol.Group

open Fallible

namespace TreeNode

/-- The public content of a node. -/
def strip : TreeNode → TreeNode
  | .blank => .blank
  | .populated keys hash =>
    .populated { keys with x25519Private := none, kyberSecret := none } hash

@[simp] theorem strip_strip (node : TreeNode) : node.strip.strip = node.strip := by
  cases node <;> rfl

end TreeNode

namespace RatchetTree

/-! ## Changed nodes -/

section MapNodes

/-- The tree with changed contents of its nodes. -/
def mapNodes (t : RatchetTree) (f : ℕ → TreeNode → TreeNode) : RatchetTree :=
  { t with
    nodes := t.nodes.mapIdx f
    length_nodes := List.length_mapIdx.trans t.length_nodes }


theorem getElem?_mapNodes (t : RatchetTree) (f : ℕ → TreeNode → TreeNode) (i : ℕ) :
    (t.mapNodes f).nodes[i]? = (t.nodes[i]?).map (f i) := List.getElem?_mapIdx

end MapNodes

/-! ## Trees that differ in private keys -/

/-- The trees differ in their private keys only. -/
structure SamePublic (t t' : RatchetTree) : Prop where
  nodes : t'.nodes.map TreeNode.strip = t.nodes.map TreeNode.strip
  leaves : t'.leaves = t.leaves

namespace SamePublic

variable {t t' : RatchetTree}

/-- The nodes at one place. -/
theorem node_cases (h : SamePublic t t') (i : ℕ) :
    t.nodes[i]? = none ∧ t'.nodes[i]? = none ∨
    t.nodes[i]? = some .blank ∧ t'.nodes[i]? = some .blank ∨
    ∃ keys keys' hash, t.nodes[i]? = some (.populated keys hash) ∧
      t'.nodes[i]? = some (.populated keys' hash) ∧ keys'.x25519Public = keys.x25519Public ∧
      keys'.kyberPublic = keys.kyberPublic := by
  have hnode : (t'.nodes[i]?).map TreeNode.strip = (t.nodes[i]?).map TreeNode.strip := by
    rw [← List.getElem?_map, h.nodes, List.getElem?_map]
  rcases hi : t.nodes[i]? with _ | _ | ⟨keys, hash⟩ <;>
    rcases hi' : t'.nodes[i]? with _ | _ | ⟨keys', hash'⟩ <;> rw [hi, hi'] at hnode
  any_goals cases hnode
  · exact .inl ⟨rfl, rfl⟩
  · exact .inr (.inl ⟨rfl, rfl⟩)
  · obtain ⟨hkeys, rfl⟩ := TreeNode.populated.inj (Option.some.inj hnode)
    obtain ⟨hx25519, hkyber, -, -⟩ := HybridNodeKeys.mk.inj hkeys
    exact .inr (.inr ⟨keys, keys', hash', rfl, rfl, hx25519, hkyber⟩)

theorem getLeafData (h : SamePublic t t') (i : ℕ) : t'.getLeafData i = t.getLeafData i := by
  rw [RatchetTree.getLeafData, h.leaves, RatchetTree.getLeafData]

end SamePublic

variable {t t' : RatchetTree}

/-- Trees whose nodes are equal up to private keys. -/
theorem SamePublic.of_nodes (hnodes : ∀ i : ℕ, (t'.nodes[i]?).map TreeNode.strip =
    (t.nodes[i]?).map TreeNode.strip) (hleaves : t'.leaves = t.leaves) : SamePublic t t' := by
  refine ⟨List.ext_getElem? fun i => ?_, hleaves⟩
  rw [List.getElem?_map, List.getElem?_map]
  exact hnodes i

/-! ## Leaving out private keys -/

/-- The tree with the private keys of some nodes only. -/
def keepPrivate (t : RatchetTree) (p : ℕ → Bool) : RatchetTree :=
  t.mapNodes fun i node => if p i then node else node.strip

theorem samePublic_keepPrivate (t : RatchetTree) (p : ℕ → Bool) :
    SamePublic t (t.keepPrivate p) := by
  refine .of_nodes (fun i => ?_) rfl
  rw [keepPrivate, getElem?_mapNodes, Option.map_map]
  congr 1
  funext node
  rw [Function.comp_apply]
  split_ifs
  · rfl
  · exact node.strip_strip

end RatchetTree

end AuraProtocol.Group
