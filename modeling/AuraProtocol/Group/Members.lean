import AuraProtocol.Group.Session

/-!
# What a commit does to the members

The members of a group are the occupied leaves of its tree.  A processed commit removes the
leaves its Remove proposals name, gives each Add proposal a leaf that was free, and changes
nothing else about who is a member: the update path only replaces node keys, and the
committer's leaf gets a new signature.
-/

namespace AuraProtocol.Group

open Fallible List

namespace RatchetTree

/-! ## The leaves -/

theorem lt_leafCount_of_getLeafData {t : RatchetTree} {i : ℕ} {leaf : LeafData}
    (h : t.getLeafData i = some leaf) : i < t.leafCount := by
  have hget : t.leaves[i]? = some (some leaf) := Option.join_eq_some_iff.mp h
  rw [← t.length_leaves]
  exact (List.getElem?_eq_some_iff.mp hget).1

theorem getLeafData_congr {t t' : RatchetTree} (h : t'.leaves = t.leaves) (i : ℕ) :
    t'.getLeafData i = t.getLeafData i := by
  rw [getLeafData, getLeafData, h]

theorem getLeafData_setLeaf {t : RatchetTree} {i : ℕ} (h : i < t.leafCount)
    (leaf : Option LeafData) (j : ℕ) :
    (t.setLeaf i leaf).getLeafData j = if j = i then leaf else t.getLeafData j := by
  rw [getLeafData, setLeaf, List.getElem?_set, t.length_leaves]
  split_ifs with hij hji hji
  · rfl
  · exact absurd hij.symm hji
  · exact absurd hji.symm hij
  · rfl

theorem leaves_blankNodes (t : RatchetTree) (path : List ℕ) :
    (t.blankNodes path).leaves = t.leaves := by
  induction path generalizing t with
  | nil => rfl
  | cons p path ih => exact (ih _).trans (setNode_leaves t p .blank)

/-- A blanked leaf was occupied and is the only one that changes. -/
theorem getLeafData_of_blankLeaf {i : ℕ} {t t' : RatchetTree}
    (h : (blankLeaf i).run t = .ok () t') (j : ℕ) :
    t'.getLeafData j = if j = i then none else t.getLeafData j := by
  rw [blankLeaf, get_bind_run, require_bind_eq_ok, require_bind_eq_ok, lift_bind_eq_ok] at h
  obtain ⟨hi, -, node, -, h⟩ := h
  rw [modify_bind_run] at h
  have hset : ((t.setNode node .blank).setLeaf i none).getLeafData j =
      if j = i then none else t.getLeafData j :=
    getLeafData_setLeaf (t := t.setNode node .blank) hi none j
  split_ifs at h with hcount
  · rw [lift_bind_eq_ok] at h
    obtain ⟨path, -, h⟩ := h
    rw [modify_run] at h
    cases h
    rw [getLeafData_congr (leaves_blankNodes _ path), hset]
  · cases h
    exact hset

/-- An added leaf was free and is the only one that changes. -/
theorem getLeafData_of_addLeaf {x25519Public kyberPublic : Bytes} {leafData : LeafData} {i : ℕ}
    {t t' : RatchetTree} (h : (addLeaf x25519Public kyberPublic leafData).run t = .ok i t') :
    t.getLeafData i = none ∧
      ∀ j, t'.getLeafData j = if j = i then some leafData else t.getLeafData j := by
  change addLeaf x25519Public kyberPublic leafData t = _ at h
  rw [addLeaf] at h
  split_ifs at h with hmembers
  split at h
  · rename_i idx hidx
    cases h
    obtain ⟨hlt, hnone, -⟩ := List.findIdx?_eq_some_iff_getElem.mp hidx
    refine ⟨?_, fun j => ?_⟩
    · rw [getLeafData, List.getElem?_eq_getElem hlt, Option.isNone_iff_eq_none.mp hnone]
      rfl
    · rw [t.length_leaves] at hlt
      exact getLeafData_setLeaf (t := t.setNode (2 * i) _) hlt (some leafData) j
  · cases h
    refine ⟨?_, fun j => ?_⟩
    · rw [getLeafData, List.getElem?_eq_none t.length_leaves.le]
      rfl
    · change ((t.leaves ++ [some leafData])[j]?).join = _
      rw [getLeafData]
      split_ifs with hj
      · rw [hj, ← t.length_leaves, List.getElem?_concat_length]
        rfl
      · rcases Nat.lt_or_ge j t.leafCount with hlt | hge
        · rw [List.getElem?_append_left (t.length_leaves.symm ▸ hlt)]
        · rw [List.getElem?_eq_none, List.getElem?_eq_none]
          · exact t.length_leaves.symm ▸ hge
          · rw [length_append, t.length_leaves, length_singleton]
            omega

end RatchetTree

/-! ## Proposals -/

/-- The tree `t'` has the key packages at leaves that were free in `t`, and is `t` otherwise. -/
structure RatchetTree.Joined (t : RatchetTree) (added : List ℕ) (packages : List GroupKeyPackage)
    (t' : RatchetTree) : Prop where
  length : added.length = packages.length
  nodup : added.Nodup
  free : ∀ i ∈ added, t.getLeafData i = none
  leaf_iff : ∀ j leaf, t'.getLeafData j = some leaf ↔
    (∃ kp, (j, kp) ∈ added.zip packages ∧ leaf = .ofKeyPackage kp) ∨ t.getLeafData j = some leaf

namespace RatchetTree.Joined

variable {t t₁ t' : RatchetTree} {i : ℕ} {added : List ℕ} {kp : GroupKeyPackage}
  {packages : List GroupKeyPackage}

theorem nil (t : RatchetTree) : t.Joined [] [] t where
  length := rfl
  nodup := nodup_nil
  free := by simp
  leaf_iff := by simp

theorem cons (hfree : t.getLeafData i = none)
    (hadd : ∀ j, t₁.getLeafData j = if j = i then some (.ofKeyPackage kp) else t.getLeafData j)
    (h : t₁.Joined added packages t') : t.Joined (i :: added) (kp :: packages) t' where
  length := congrArg (· + 1) h.length
  nodup := by
    refine nodup_cons.mpr ⟨fun hi => ?_, h.nodup⟩
    have := h.free i hi
    rw [hadd, if_pos rfl] at this
    cases this
  free := by
    intro j hj
    rcases mem_cons.mp hj with rfl | hj
    · exact hfree
    · have := h.free j hj
      rw [hadd] at this
      split_ifs at this
      exact this
  leaf_iff := by
    intro j leaf
    rw [h.leaf_iff, hadd, zip_cons_cons]
    simp only [mem_cons, Prod.mk.injEq]
    split_ifs with hj
    · subst hj
      rw [hfree]
      constructor
      · rintro (⟨p, hp, rfl⟩ | hleaf)
        · exact .inl ⟨p, .inr hp, rfl⟩
        · exact .inl ⟨kp, .inl ⟨rfl, rfl⟩, (Option.some.inj hleaf).symm⟩
      · rintro (⟨p, ⟨-, rfl⟩ | hp, rfl⟩ | hleaf)
        · exact .inr rfl
        · exact .inl ⟨p, hp, rfl⟩
        · cases hleaf
    · simp [hj]

end RatchetTree.Joined

namespace Membership

/-- The removals blank the leaves they name and no others. -/
theorem getLeafData_of_blankLeaves {leaves : List ℕ}
    (h : (leaves.forM RatchetTree.blankLeaf).run t = .ok () t') (j : ℕ) :
    t'.getLeafData j = if j ∈ leaves then none else t.getLeafData j := by
  induction leaves generalizing t with
  | nil =>
    cases h
    rw [if_neg not_mem_nil]
  | cons i leaves ih =>
    obtain ⟨_, t₁, hblank, h⟩ := bind_eq_ok.mp h
    rw [ih h, RatchetTree.getLeafData_of_blankLeaf hblank j]
    by_cases hj : j = i <;> simp [hj]

/-- Each Add proposal has a key package, and gets a leaf of its own. -/
theorem joined_of_applyAdd {additions : List (Option GroupKeyPackage)} {added : List ℕ}
    (h : (additions.mapM applyAdd).run t = .ok added t') :
    ∃ packages : List GroupKeyPackage,
      additions = packages.map some ∧ t.Joined added packages t' := by
  induction additions generalizing t added with
  | nil =>
    cases h
    exact ⟨[], rfl, .nil _⟩
  | cons keyPackage additions ih =>
    rw [mapM_cons, bind_eq_ok] at h
    obtain ⟨i, t₁, hadd, h⟩ := h
    rw [bind_eq_ok] at h
    obtain ⟨rest, t₂, hrest, h⟩ := h
    cases h
    rw [applyAdd, lift_bind_eq_ok] at hadd
    obtain ⟨kp, hkp, hadd⟩ := hadd
    obtain ⟨hfree, hleaf⟩ := RatchetTree.getLeafData_of_addLeaf hadd
    obtain ⟨packages, rfl, hjoined⟩ := ih hrest
    rw [orError_eq_ok] at hkp
    exact ⟨kp :: packages, by rw [hkp, map_cons], hjoined.cons hfree hleaf⟩

end Membership

end AuraProtocol.Group
