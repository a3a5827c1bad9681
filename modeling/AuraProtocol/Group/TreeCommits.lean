import AuraProtocol.Group.TreeUpdates

/-!
# Commits keep the invariant of the tree

The two ways a commit reaches a tree are followed through: `create_commit` at the committer and
`process_commit` at a member.  Both apply the same proposals, whose check makes every addition a
valid key package of an identity that is new to the tree and to the commit.  After that the
committer's leaf has new keys and a new signature, which a member checks and the committer makes.
-/

namespace AuraProtocol.Group

open Fallible List
open RatchetTree (RepInv KeepsLeaves Repathed Replaced updatedPackage)

variable {c : Crypto} {t t' t'' : RatchetTree}

variable {proposals : List GroupProposal} {myLeafIdx committerLeafIdx : ℕ}
  {packages : List GroupKeyPackage} {prevInitSecret groupId : Bytes} {out : UpdatePathOutput}
  {entropy : PathEntropy} {policy : GroupSecurityPolicy} {nodes : List GroupUpdatePathNode}
  {path : List (ℕ × GroupUpdatePathNode)} {updatePath : GroupUpdatePath} {commit : GroupCommit}
  {currentEpoch : ℕ} {pskResolver : Option PskResolver} {ed25519Secret : Bytes}

/-! ## Accepted proposals -/

namespace Membership

/-- Only an addition adds an identity. -/
theorem addedIdentityKeys_of_checkShape {seen next : Seen} {proposal : Proposal}
    (h : checkShape c seen (some proposal) = .ok next) (hadd : ∀ kp, proposal ≠ .add kp) :
    next.addedIdentityKeys = seen.addedIdentityKeys := by
  cases proposal
  case add kp => exact absurd rfl (hadd kp)
  all_goals
    simp only [checkShape, except_bind_eq_ok, pure, Except.pure, Except.ok.injEq] at h
    aesop

/-- The additions that the check of the shapes accepts after those it has seen. -/
theorem additions_of_checkShape {seen seen' : Seen}
    (h : proposals.foldlM (checkShape c) seen = .ok seen')
    (hpackages : additions proposals = packages.map some) :
    (∀ kp ∈ packages, KeyPackage.Valid c kp ∧
      kp.identityEd25519Public ∉ seen.addedIdentityKeys) ∧
    (packages.map (·.identityEd25519Public)).Nodup := by
  induction proposals generalizing seen packages with
  | nil =>
    cases packages with
    | nil => exact ⟨fun kp hkp => absurd hkp not_mem_nil, nodup_nil⟩
    | cons kp packages => cases hpackages
  | cons proposal proposals ih =>
    rw [foldlM_cons, except_bind_eq_ok] at h
    obtain ⟨next, hnext, h⟩ := h
    cases proposal with
    | none => cases hnext
    | some proposal =>
      cases proposal with
      | add keyPackage =>
        rw [additions, filterMap_cons] at hpackages
        cases packages with
        | nil => cases hpackages
        | cons kp packages =>
          obtain ⟨rfl, hrest⟩ := List.cons.inj hpackages
          simp only [checkShape, orError, except_bind_eq_ok] at hnext
          obtain ⟨kp', hkp', _, hvalid, _, hnew, hnext⟩ := hnext
          cases hkp'
          cases hnext
          obtain ⟨hothers, hnodup⟩ := ih h hrest
          refine ⟨?_, nodup_cons.mpr ⟨fun hmem => ?_, hnodup⟩⟩
          · intro kp' hkp'
            rcases mem_cons.mp hkp' with rfl | hkp'
            · exact ⟨KeyPackage.validateKeyPackage_eq_ok.mp hvalid, require_eq_ok.mp hnew⟩
            · exact ⟨(hothers kp' hkp').1,
                fun hseen => (hothers kp' hkp').2 (mem_cons_of_mem _ hseen)⟩
          · obtain ⟨kp', hkp', heq⟩ := mem_map.mp hmem
            exact (hothers kp' hkp').2 (heq ▸ mem_cons_self)
      | _ =>
        rw [← addedIdentityKeys_of_checkShape hnext (by simp)]
        exact ih h hpackages

/-- The key packages that accepted proposals add are valid, their identities differ from each other
and from those of the tree. -/
structure NewMembers (c : Crypto) (t : RatchetTree) (packages : List GroupKeyPackage) : Prop where
  valid : ∀ kp ∈ packages, KeyPackage.Valid c kp
  nodup : (packages.map (·.identityEd25519Public)).Nodup
  fresh : ∀ kp ∈ packages, ∀ j leaf, t.getLeafData j = some leaf →
    leaf.identityEd25519Public ≠ kp.identityEd25519Public

theorem newMembers_of_validateProposals
    (h : validateProposals c t proposals committerLeafIdx = .ok ())
    (hpackages : additions proposals = packages.map some) : NewMembers c t packages := by
  rw [validateProposals, except_seq_eq_ok, forM_eq_ok] at h
  obtain ⟨hshapes, htree⟩ := h
  simp only [validateProposalShapes, except_bind_eq_ok] at hshapes
  obtain ⟨_, -, seen, hseen, -⟩ := hshapes
  obtain ⟨hvalid, hnodup⟩ := additions_of_checkShape hseen hpackages
  refine ⟨fun kp hkp => (hvalid kp hkp).1, hnodup, fun kp hkp j leaf hleaf => ?_⟩
  have hmem : some kp ∈ additions proposals := by
    rw [hpackages]
    exact mem_map_of_mem hkp
  obtain ⟨proposal, hproposal, hadd⟩ := mem_filterMap.mp hmem
  have hcheck := htree proposal hproposal
  split at hadd
  · cases hadd
    rw [checkAgainstTree, orError] at hcheck
    exact require_eq_ok.mp hcheck (some leaf) (mem_of_getElem?
      (Option.join_eq_some_iff.mp hleaf)) leaf rfl
  · cases hadd

theorem NewMembers.of_subset (h : NewMembers c t packages)
    (hsub : ∀ {j leaf}, t'.getLeafData j = some leaf → t.getLeafData j = some leaf) :
    NewMembers c t' packages :=
  ⟨h.valid, h.nodup, fun kp hkp j leaf hleaf => h.fresh kp hkp j leaf (hsub hleaf)⟩

theorem repInv_of_blankLeaves {leaves : List ℕ} (h : t.RepInv c)
    (hrun : (leaves.forM RatchetTree.blankLeaf).run t = .ok () t') : t'.RepInv c := by
  induction leaves generalizing t with
  | nil =>
    cases hrun
    exact h
  | cons i leaves ih =>
    obtain ⟨_, t₁, hblank, hrun⟩ := bind_eq_ok.mp hrun
    exact ih (h.blankLeaf hblank) hrun

theorem repInv_of_applyAdd {added : List ℕ} (h : t.RepInv c) (hnew : NewMembers c t packages)
    (hrun : ((packages.map some).mapM applyAdd).run t = .ok added t') : t'.RepInv c := by
  induction packages generalizing t added with
  | nil =>
    cases hrun
    exact h
  | cons kp packages ih =>
    rw [map_cons, mapM_cons, bind_eq_ok] at hrun
    obtain ⟨i, t₁, hadd, hrun⟩ := hrun
    rw [bind_eq_ok] at hrun
    obtain ⟨rest, t₂, hrest, hrun⟩ := hrun
    cases hrun
    rw [applyAdd, lift_bind_of_ok (orError_eq_ok.mpr rfl)] at hadd
    obtain ⟨hother, hnodup⟩ := nodup_cons.mp hnew.nodup
    refine ih (h.addLeaf (hnew.valid kp mem_cons_self) (hnew.fresh kp mem_cons_self) hadd)
      ⟨fun kp' hkp' => hnew.valid kp' (mem_cons_of_mem _ hkp'), hnodup, ?_⟩ hrest
    intro kp' hkp' j leaf hleaf
    rw [(RatchetTree.getLeafData_of_addLeaf hadd).2] at hleaf
    split_ifs at hleaf
    · cases hleaf
      exact fun heq => hother (mem_map.mpr ⟨kp', hkp', heq.symm⟩)
    · exact hnew.fresh kp' (mem_cons_of_mem _ hkp') j leaf hleaf

/-- Accepted proposals keep the invariant. -/
theorem repInv_of_applyProposals {added : List ℕ} (h : t.RepInv c)
    (hvalid : validateProposals c t proposals committerLeafIdx = .ok ())
    (hrun : (applyProposals proposals).run t = .ok added t') : t'.RepInv c := by
  rw [applyProposals, bind_eq_ok] at hrun
  obtain ⟨_, t₁, hremove, hadd⟩ := hrun
  obtain ⟨packages, hpackages, -⟩ := joined_of_applyAdd hadd
  refine repInv_of_applyAdd (repInv_of_blankLeaves h hremove)
    ((newMembers_of_validateProposals hvalid hpackages).of_subset fun {j leaf} hleaf => ?_)
    (hpackages ▸ hadd)
  rw [getLeafData_of_blankLeaves hremove] at hleaf
  split_ifs at hleaf
  exact hleaf

end Membership

/-! ## An update path at a member -/

namespace TreeKem

/-- A path of inner nodes with keys of full size. -/
def FullPath (path : List (ℕ × GroupUpdatePathNode)) : Prop :=
  ∀ e ∈ path, Tree.isLeaf e.1 = false ∧ e.2.x25519Public.length = x25519PublicKeyBytes ∧
    e.2.kyberPublic.length = kyberPublicKeyBytes

theorem length_of_validatePathKeys {i : ℕ} (h : validatePathKeys c i nodes = .ok ()) :
    ∀ node ∈ nodes, node.x25519Public.length = x25519PublicKeyBytes ∧
      node.kyberPublic.length = kyberPublicKeyBytes := by
  induction nodes generalizing i with
  | nil => exact fun node hnode => absurd hnode not_mem_nil
  | cons node nodes ih =>
    rw [validatePathKeys, except_seq_eq_ok, except_seq_eq_ok, mapError_eq_ok, mapError_eq_ok] at h
    obtain ⟨hx25519, hkyber, h⟩ := h
    intro node' hnode'
    rcases mem_cons.mp hnode' with rfl | hnode'
    · exact ⟨DhValidator.length_of_validate hx25519,
        (KyberInterop.validatePublicKey_eq_ok.mp hkyber).1⟩
    · exact ih h node' hnode'

theorem FullPath.zip {path : List ℕ} (hpath : ∀ x ∈ path, Tree.isLeaf x = false)
    (hnodes : ∀ node ∈ nodes, node.x25519Public.length = x25519PublicKeyBytes ∧
      node.kyberPublic.length = kyberPublicKeyBytes) : FullPath (path.zip nodes) :=
  fun e he => ⟨hpath e.1 (of_mem_zip he).1, hnodes e.2 (of_mem_zip he).2⟩

theorem FullPath.keepsLeaves_forM (h : FullPath path) :
    Keeps KeepsLeaves (path.forM fun e =>
      RatchetTree.setNodePublicKeys e.1 e.2.x25519Public e.2.kyberPublic) :=
  .forM_mem fun e he =>
    RatchetTree.keepsLeaves_setNodePublicKeys (h e he).1 (h e he).2.1 (h e he).2.2

theorem keepsLeaves_installNode (myDirectPath : List ℕ) {e : ℕ × GroupUpdatePathNode}
    (he : FullPath [e]) (keys : HybridKeyPair c) :
    Keeps KeepsLeaves (installNode c myDirectPath e.1 e.2 keys) := by
  obtain ⟨hinner, hx25519, hkyber⟩ := he e mem_cons_self
  refine .bind (RatchetTree.keepsLeaves_setNodePublicKeys hinner hx25519 hkyber) fun _ => ?_
  split_ifs
  · exact RatchetTree.keepsLeaves_setNodePrivateKeys _ keys.x25519.length_secretKey
      keys.kyber.length_secretKey
  · exact .pure _

theorem keepsLeaves_installAbove (myDirectPath : List ℕ) (i : ℕ) (secret : Bytes)
    (h : FullPath path) : Keeps KeepsLeaves (installAbove c myDirectPath i secret path) := by
  induction path generalizing i secret with
  | nil => exact .pure _
  | cons e path ih =>
    refine .bind (.lift _) fun next => ?_
    refine .bind (.lift _) fun keys => ?_
    refine .bind (.lift _) fun _ => ?_
    have hhead : FullPath [e] := fun e' he' => by
      rw [mem_singleton.mp he']
      exact h e mem_cons_self
    exact .bind (keepsLeaves_installNode myDirectPath hhead keys) fun _ =>
      ih _ _ fun e' he' => h e' (mem_cons_of_mem _ he')

/-- The node at which a member meets the committer's path is one of that path. -/
theorem mem_of_openUpdatePath {myNode : ℕ}
    {myDirectPath committerDirectPath committerCopath : List ℕ} {opened : OpenedPath}
    (hlen : updatePath.nodes.length = committerDirectPath.length)
    (h : openUpdatePath c t updatePath myNode myDirectPath committerDirectPath committerCopath =
      .ok opened) : (opened.nodeIdx, opened.node) ∈ committerDirectPath.zip updatePath.nodes := by
  -- both searches for the level end in the same way
  obtain ⟨level, hnode, hidx⟩ : ∃ level : ℕ, updatePath.nodes[level]? = some opened.node ∧
      opened.nodeIdx = committerDirectPath[level]?.getD 0 := by
    rw [openUpdatePath, except_bind_eq_ok] at h
    obtain ⟨found, -, h⟩ := h
    cases found <;>
    · simp only [except_bind_eq_ok, orError_eq_ok] at h
      obtain ⟨_, -, level, -, node, hnode, _, -, _, -, _, -, _, -, _, -, _, -, _, -, h⟩ := h
      cases h
      exact ⟨level, hnode, rfl⟩
  obtain ⟨hlt, hnode⟩ := List.getElem?_eq_some_iff.mp hnode
  have hlt' : level < committerDirectPath.length := hlen ▸ hlt
  rw [hidx, List.getElem?_eq_getElem hlt', Option.getD_some, ← hnode]
  exact mem_iff_getElem.mpr
    ⟨level, by rw [length_zip]; omega, getElem_zip⟩

/-- A processed update path replaces the keys of the committer's leaf. -/
theorem repathed_of_processUpdatePath {commitSecret : Bytes}
    (h : (processUpdatePath c updatePath committerLeafIdx myLeafIdx).run t = .ok commitSecret t') :
    Repathed committerLeafIdx updatePath.leafX25519Public updatePath.leafKyberPublic t t' := by
  rw [processUpdatePath, get_bind_run] at h
  rw [require_bind_eq_ok, require_bind_eq_ok, require_bind_eq_ok] at h
  obtain ⟨-, hcommitter, -, h⟩ := h
  obtain ⟨_, hx25519, h⟩ := lift_bind_eq_ok.mp h
  obtain ⟨_, hkyber, h⟩ := lift_bind_eq_ok.mp h
  obtain ⟨_, hnodes, h⟩ := lift_bind_eq_ok.mp h
  obtain ⟨committerDirectPath, hpath, h⟩ := lift_bind_eq_ok.mp h
  obtain ⟨committerCopath, -, h⟩ := lift_bind_eq_ok.mp h
  obtain ⟨myNode, -, h⟩ := lift_bind_eq_ok.mp h
  obtain ⟨hlen, h⟩ := require_bind_eq_ok.mp h
  obtain ⟨_, -, h⟩ := lift_bind_eq_ok.mp h
  obtain ⟨myDirectPath, -, h⟩ := lift_bind_eq_ok.mp h
  obtain ⟨opened, hopened, h⟩ := lift_bind_eq_ok.mp h
  obtain ⟨keys, -, h⟩ := lift_bind_eq_ok.mp h
  obtain ⟨_, -, h⟩ := lift_bind_eq_ok.mp h
  have hfull : FullPath (committerDirectPath.zip updatePath.nodes) := .zip
    (Tree.isLeaf_of_mem_directPath t.leafCount_pos t.leafCount_le_depth hcommitter hpath).1
    (length_of_validatePathKeys hnodes)
  have hfound : FullPath [(opened.nodeIdx, opened.node)] := fun e he => by
    rw [mem_singleton.mp he]
    exact hfull _ (mem_of_openUpdatePath hlen hopened)
  obtain ⟨_, t₁, hinstall, h⟩ := bind_eq_ok.mp h
  have h₁ := (keepsLeaves_installNode myDirectPath hfound keys).of_ok hinstall
  obtain ⟨_, t₂, habove, h⟩ := bind_eq_ok.mp h
  have h₂ := (keepsLeaves_installAbove myDirectPath _ _
    fun e he => hfull e (mem_of_mem_drop he)).of_ok habove
  obtain ⟨_, t₃, hbelow, h⟩ := bind_eq_ok.mp h
  have h₃ := (FullPath.keepsLeaves_forM fun e he => hfull e (mem_of_mem_take he)).of_ok hbelow
  obtain ⟨committerNode, hnode, h⟩ := lift_bind_eq_ok.mp h
  cases Tree.checkedLeafToNode_eq hnode
  obtain ⟨_, t₄, hleaf, h⟩ := bind_eq_ok.mp h
  have h₄ := RatchetTree.repathed_of_setNodePublicKeys (DhValidator.length_of_validate hx25519)
    (KyberInterop.validatePublicKey_eq_ok.mp hkyber).1 hleaf
  obtain ⟨_, t₅, hhashes, h⟩ := bind_eq_ok.mp h
  have h₅ := (Keeps.forM (fun e : ℕ × GroupUpdatePathNode =>
    RatchetTree.keepsLeaves_setNodeParentHash e.1 e.2.parentHash) _).of_ok hhashes
  obtain ⟨_, -, h⟩ := reads_bind_eq_ok.mp h
  cases h
  exact (h₁.repathed (h₂.repathed (h₃.repathed h₄))).keepsLeaves h₅

end TreeKem

namespace Commit

variable {wire : Wire}

/-- A checked commit has checked proposals. -/
theorem validateProposals_of_checkCommit {initSecret : Bytes}
    (h : checkCommit c wire t commit prevInitSecret groupId currentEpoch policy = .ok initSecret) :
    Membership.validateProposals c t commit.proposals commit.committerLeafIndex = .ok () := by
  simp only [checkCommit, except_bind_eq_ok] at h
  obtain ⟨_, -, _, -, _, -, h⟩ := h
  split_ifs at h
  · simp only [except_bind_eq_ok] at h
    obtain ⟨_, -, _, -, _, -, _, -, _, -, _, -, _, hvalid, -⟩ := h
    exact hvalid
  · simp only [except_bind_eq_ok] at h
    obtain ⟨_, -, _, -, _, -, _, -, _, hvalid, -⟩ := h
    exact hvalid

/-- A member that processes a commit keeps the invariant. -/
theorem repInv_of_processCommit {processed : ProcessedCommit} (h : t.RepInv c)
    (hrun : (processCommit c wire commit myLeafIdx prevInitSecret groupId currentEpoch pskResolver
      policy).run t = .ok processed t') : t'.RepInv c := by
  rw [processCommit] at hrun
  obtain ⟨initSecret, hcheck, hrun⟩ := reads_bind_eq_ok.mp hrun
  obtain ⟨added, t₁, happly, hrun⟩ := bind_eq_ok.mp hrun
  obtain ⟨updatePath, happlied, hrun⟩ := reads_bind_eq_ok.mp hrun
  obtain ⟨commitSecret, t₂, hpath, hrun⟩ := bind_eq_ok.mp hrun
  obtain ⟨_, t₃, hsign, hrun⟩ := bind_eq_ok.mp hrun
  obtain ⟨-, rfl⟩ := reads_eq_ok.mp hrun
  have h₁ := Membership.repInv_of_applyProposals h (validateProposals_of_checkCommit hcheck) happly
  simp only [checkApplied, except_bind_eq_ok, orError_eq_ok] at happlied
  obtain ⟨_, -, _, -, leaf, hleaf, _, -, _, hsignature, happlied⟩ := happlied
  cases happlied
  exact h₁.replaced ((TreeKem.repathed_of_processUpdatePath hpath).setLeafSignature hsign) hleaf
    (KeyPackage.validateKeyPackage_eq_ok.mp hsignature)

end Commit

/-! ## An update path at the committer -/

namespace TreeKem

/-- What a created update path has: keys of a new leaf, and public and private keys of full size. -/
structure NewPath (c : Crypto) (out : UpdatePathOutput) : Prop where
  leafX25519 : DhValidator.validateX25519PublicKey out.updatePath.leafX25519Public = .ok ()
  leafKyber : KyberInterop.validatePublicKey c out.updatePath.leafKyberPublic = .ok ()
  nodes : ∀ node ∈ out.updatePath.nodes, node.x25519Public.length = x25519PublicKeyBytes ∧
    node.kyberPublic.length = kyberPublicKeyBytes
  newPrivateKeys : ∀ e ∈ out.newPrivateKeys, e.2.1.length = x25519PrivateKeyBytes ∧
    e.2.2.length = kyberSecretKeyBytes

theorem newPath_of_createUpdatePath (hc : c.Correct)
    (h : createUpdatePath c t myLeafIdx entropy = .ok out) : NewPath c out := by
  rw [createUpdatePath, except_bind_eq_ok] at h
  obtain ⟨leafKyber, -, h⟩ := h
  have hleaf : ∀ e : ℕ × Bytes × Bytes, e.2.1 = entropy.leaf.x25519.1 → e.2.2 = leafKyber.secretKey →
      e.2.1.length = x25519PrivateKeyBytes ∧ e.2.2.length = kyberSecretKeyBytes :=
    fun e hx hk => ⟨hx ▸ entropy.leaf.x25519.2, hk ▸ leafKyber.length_secretKey⟩
  split_ifs at h
  · simp only [except_bind_eq_ok] at h
    obtain ⟨node, -, h⟩ := h
    cases h
    refine ⟨hc.x25519Public_valid _, leafKyber.validatePublicKey hc,
      fun node hnode => absurd hnode not_mem_nil, fun e he => ?_⟩
    cases mem_singleton.mp he
    exact hleaf _ rfl rfl
  · simp only [except_bind_eq_ok] at h
    obtain ⟨_, -, _, -, _, -, node, -, nodes, -, hashes, -, h⟩ := h
    cases h
    refine ⟨hc.x25519Public_valid _, leafKyber.validatePublicKey hc, fun n hn => ?_, fun e he => ?_⟩
    · obtain ⟨j, hj, rfl⟩ := mem_iff_getElem.mp hn
      simp only [getElem_zipWith]
      exact ⟨X25519KeyPair.length_publicKey _, KyberKeyPair.length_publicKey _⟩
    · rcases mem_cons.mp he with rfl | he
      · exact hleaf _ rfl rfl
      · obtain ⟨node', -, rfl⟩ := mem_map.mp he
        exact ⟨node'.keys.x25519.length_secretKey, node'.keys.kyber.length_secretKey⟩

end TreeKem

namespace Commit

variable {wire : Wire}

/-- The path of a commit is new, and its leaf is signed with the given key. -/
theorem signedUpdatePath_eq_ok (hc : c.Correct)
    (h : signedUpdatePath c t myLeafIdx ed25519Secret entropy = .ok out) :
    TreeKem.NewPath c out ∧ ∃ leaf, t.getLeafData myLeafIdx = some leaf ∧ CanSign c ed25519Secret ∧
      out.updatePath.leafSignature = c.ed25519Sign ed25519Secret (KeyPackage.signedContent
        (updatedPackage leaf out.updatePath.leafX25519Public out.updatePath.leafKyberPublic
          out.updatePath.leafSignature)) := by
  simp only [signedUpdatePath, except_bind_eq_ok, orError_eq_ok] at h
  obtain ⟨path, hpath, leaf, hleaf, signature, hsign, h⟩ := h
  cases h
  have hnew := TreeKem.newPath_of_createUpdatePath hc hpath
  obtain ⟨hcan, hsignature⟩ := signWith_eq_ok.mp hsign
  exact ⟨⟨hnew.leafX25519, hnew.leafKyber, hnew.nodes, hnew.newPrivateKeys⟩, leaf, hleaf, hcan,
    hsignature⟩

/-- Putting a new path into the committer's tree replaces its leaf. -/
theorem replaced_of_installUpdatePath {u : Unit} {leaf : LeafData} (hnew : TreeKem.NewPath c out)
    (hleaf : t.getLeafData myLeafIdx = some leaf)
    (h : (installUpdatePath myLeafIdx out).run t = .ok u t') :
    Replaced myLeafIdx out.updatePath.leafX25519Public out.updatePath.leafKyberPublic
      out.updatePath.leafSignature t t' := by
  rw [installUpdatePath] at h
  obtain ⟨leafNode, hnode, h⟩ := lift_bind_eq_ok.mp h
  cases Tree.checkedLeafToNode_eq hnode
  obtain ⟨_, t₁, hkeys, h⟩ := bind_eq_ok.mp h
  have h₁ := RatchetTree.repathed_of_setNodePublicKeys (DhValidator.length_of_validate
    hnew.leafX25519) (KyberInterop.validatePublicKey_eq_ok.mp hnew.leafKyber).1 hkeys
  obtain ⟨_, t₂, hsign, h⟩ := bind_eq_ok.mp h
  have h₂ := h₁.setLeafSignature hsign
  obtain ⟨directPath, hpath, h⟩ := reads_bind_eq_ok.mp h
  have hleaf₂ : t₂.getLeafData myLeafIdx =
      some { leaf with signature := out.updatePath.leafSignature } := by
    rw [h₂.leaf, if_pos rfl, hleaf]
    rfl
  have hfull : TreeKem.FullPath (directPath.zip out.updatePath.nodes) := .zip
    (Tree.isLeaf_of_mem_directPath t₂.leafCount_pos t₂.leafCount_le_depth
      (RatchetTree.lt_leafCount_of_getLeafData hleaf₂) hpath).1 hnew.nodes
  obtain ⟨_, t₃, hpublic, h⟩ := bind_eq_ok.mp h
  have h₃ := hfull.keepsLeaves_forM.of_ok hpublic
  obtain ⟨_, t₄, hhashes, h⟩ := bind_eq_ok.mp h
  have hhash : ∀ e : ℕ × GroupUpdatePathNode, Keeps KeepsLeaves (if e.2.parentHash = [] then pure ()
      else RatchetTree.setNodeParentHash e.1 e.2.parentHash) := by
    intro e
    split_ifs
    · exact .pure _
    · exact RatchetTree.keepsLeaves_setNodeParentHash e.1 e.2.parentHash
  have h₄ := (Keeps.forM hhash _).of_ok hhashes
  have h₅ := (Keeps.forM_mem fun e he => RatchetTree.keepsLeaves_setNodePrivateKeys e.1
    (hnew.newPrivateKeys e he).1 (hnew.newPrivateKeys e he).2).of_ok h
  exact ((h₂.keepsLeaves h₃).keepsLeaves h₄).keepsLeaves h₅

/-- The committer keeps the invariant if it signs with the key of its leaf. -/
theorem repInv_of_createCommit (hc : c.Correct) (hk : c.ProperKeys) {epoch : ℕ} {out : CommitOutput}
    (h : t.RepInv c)
    (hrun : (createCommit c wire proposals myLeafIdx prevInitSecret groupId epoch ed25519Secret
      pskResolver policy entropy).run t = .ok out t')
    (hkey : ∀ leaf, t'.getLeafData myLeafIdx = some leaf →
      leaf.identityEd25519Public = c.ed25519Public ed25519Secret) : t'.RepInv c := by
  rw [createCommit] at hrun
  obtain ⟨_, hvalid, hrun⟩ := reads_bind_eq_ok.mp hrun
  obtain ⟨added, t₁, happly, hrun⟩ := bind_eq_ok.mp hrun
  obtain ⟨path, hpath, hrun⟩ := reads_bind_eq_ok.mp hrun
  obtain ⟨_, t₂, hinstall, hrun⟩ := bind_eq_ok.mp hrun
  obtain ⟨-, rfl⟩ := reads_eq_ok.mp hrun
  have h₁ := Membership.repInv_of_applyProposals h hvalid happly
  obtain ⟨hnew, leaf, hleaf, hcan, hsignature⟩ := signedUpdatePath_eq_ok hc hpath
  have hreplaced := replaced_of_installUpdatePath hnew hleaf hinstall
  have hidentity : leaf.identityEd25519Public = c.ed25519Public ed25519Secret :=
    hkey { leaf with signature := path.updatePath.leafSignature } (by
      rw [hreplaced.leaf, if_pos rfl, hleaf]
      rfl)
  -- all but the new keys and the signature is as in the leaf's old key package
  obtain ⟨keys, hkeys⟩ := h₁.exists_keys hleaf
  have hold := h₁.signed (RatchetTree.leafKeyPackage_eq t₁ myLeafIdx hleaf hkeys)
  refine h₁.replaced hreplaced hleaf ⟨rfl, hold.credential, hold.identityX25519, hold.identityKyber,
    hnew.leafX25519, hnew.leafKyber, ?_⟩
  have hverifies := verifies_sign hc hk hcan (KeyPackage.signedContent (updatedPackage leaf
    path.updatePath.leafX25519Public path.updatePath.leafKyberPublic path.updatePath.leafSignature))
  rw [← hsignature, ← hidentity] at hverifies
  exact hverifies

end Commit

/-! ## New groups -/

/-- A tree of one valid key package has the invariant. -/
theorem RatchetTree.repInv_of_newSingle {kp : GroupKeyPackage} {x25519Private kyberSecret : Bytes}
    (hvalid : KeyPackage.Valid c kp) (hx25519 : x25519Private.length = x25519PrivateKeyBytes)
    (hkyber : kyberSecret.length = kyberSecretKeyBytes)
    (h : newSingle kp.leafX25519Public kp.leafKyberPublic x25519Private kyberSecret
      kp.identityEd25519Public kp.identityX25519Public kp.identityKyberPublic kp.credential
      kp.signature = .ok t) : t.RepInv c := by
  rw [newSingle, except_seq_eq_ok, except_seq_eq_ok] at h
  obtain ⟨-, -, h⟩ := h
  cases h
  refine ⟨fun i => ?_, fun {i keys} hkeys => ?_, fun {i j leaf leaf'} hi hj _ => ?_,
    fun {i pkg} hpkg => ?_⟩
  · cases i <;> rfl
  · cases i with
    | zero =>
      cases hkeys
      exact ⟨DhValidator.length_of_validate hvalid.leafX25519,
        (KyberInterop.validatePublicKey_eq_ok.mp hvalid.leafKyber).1,
        fun _ h => (by cases h; exact hx25519), fun _ h => (by cases h; exact hkyber)⟩
    | succ i => cases hkeys
  · cases i with
    | zero =>
      cases j with
      | zero => rfl
      | succ j => cases hj
    | succ i => cases hi
  · cases i with
    | zero =>
      cases hpkg
      have hsignature := hvalid.signature
      rw [KeyPackage.signedContent, hvalid.version] at hsignature
      exact ⟨rfl, hvalid.credential, hvalid.identityX25519, hvalid.identityKyber,
        hvalid.leafX25519, hvalid.leafKyber, hsignature⟩
    | succ i =>
      rw [leafKeyPackage_of_none rfl] at hpkg
      cases hpkg

/-- A group starts with the invariant. -/
theorem GroupSession.repInv_of_createWithPolicy (hc : c.Correct) (hk : c.ProperKeys) {wire : Wire}
    {identity : IdentityKeys c} {credential : Bytes} {entropy : GroupSession.CreateEntropy}
    {s : GroupSession}
    (h : GroupSession.createWithPolicy c wire identity credential policy entropy = .ok s) :
    s.tree.RepInv c := by
  simp only [createWithPolicy, except_bind_eq_ok] at h
  obtain ⟨_, -, ⟨kp, x25519Private, kyberSecret⟩, hkp, _, -, tree, htree, _, -, _, -, _, -, _, -,
    h⟩ := h
  cases h
  have hvalid := KeyPackage.valid_createKeyPackage hc hk hkp
  simp only [KeyPackage.createKeyPackage, except_bind_eq_ok] at hkp
  obtain ⟨kyber, -, _, -, _, -, _, -, hkp⟩ := hkp
  cases hkp
  exact RatchetTree.repInv_of_newSingle hvalid entropy.leaf.x25519.2 kyber.length_secretKey htree

/-! ## Sample commits -/

namespace Commit

theorem repInv_sampleCreated : sampleCreated.tree.RepInv .transparent :=
  GroupSession.repInv_of_createWithPolicy Crypto.transparent_correct Crypto.transparent_properKeys
    (eq_ok_get_toOption sampleCreated?_isSome)

/-- The first member of the sample group commits, and signs with the given member's key. -/
def sampleCommit (proposals : List GroupProposal) (initSecret : Bytes) (epoch : ℕ)
    (signer : UInt8) : TreeM CommitOutput :=
  createCommit Crypto.transparent Wire.plain proposals 0 initSecret sampleCreated.groupId epoch
    (sampleMember signer).ed25519.secretKey none .standard (samplePathEntropy 41)

/-- The first member signs with the key of the second, and its leaf is then not validly signed. -/
def sampleForeign : Except ProtocolError Unit := do
  let (_, t) ← onCopy (sampleCommit [] sampleCreated.initSecret sampleCreated.epoch 2)
    sampleCreated.tree
  let pkg ← orError (t.leafKeyPackage 0) (.groupProtocol "")
  require (¬ KeyPackage.validateKeyPackage Crypto.transparent pkg = .ok ()) (.groupProtocol "")

/-- A tree whose first leaf has the identity of the first member. -/
def OwnLeaf (t : RatchetTree) : Prop :=
  ∀ leaf ∈ t.getLeafData 0, leaf.identityEd25519Public =
    Crypto.transparent.ed25519Public (sampleMember 1).ed25519.secretKey

instance (t : RatchetTree) : Decidable (OwnLeaf t) :=
  inferInstanceAs (Decidable (∀ leaf ∈ t.getLeafData 0, _))

/-- The first member adds a second one, whose private keys are put into the same tree; then the first
one updates its path, and the second one processes that commit. -/
def sampleExchange : Except ProtocolError
    (RatchetTree × CommitOutput × RatchetTree × ProcessedCommit × RatchetTree) := do
  let (kp, x25519Private, kyberSecret) ← KeyPackage.createKeyPackage Crypto.transparent
    (sampleMember 2) [2] (sampleKeyEntropy 42)
  let (out₁, t₁) ← onCopy (sampleCommit [some (.add (some kp))] sampleCreated.initSecret
    sampleCreated.epoch 1) sampleCreated.tree
  require (OwnLeaf t₁) (.groupProtocol "")
  require (x25519Private.length = x25519PrivateKeyBytes ∧
    kyberSecret.length = kyberSecretKeyBytes) (.groupProtocol "")
  let (_, t₂) ← onCopy (RatchetTree.setNodePrivateKeys 2 x25519Private kyberSecret) t₁
  let (out₂, t₃) ← onCopy (sampleCommit [] out₁.epochKeys.initSecret 1 1) t₂
  require (OwnLeaf t₃) (.groupProtocol "")
  let (processed, t₄) ← onCopy (processCommit Crypto.transparent Wire.plain out₂.commit 1
    out₁.epochKeys.initSecret sampleCreated.groupId 1 none .standard) t₂
  return (t₂, out₂, t₃, processed, t₄)

theorem sampleExchange_isSome : sampleExchange.toOption.isSome = true := by decide +kernel

/-- An accepted commit keeps the invariant of the tree, at the committer if it signs with the key of
its leaf, and at every member that processes it; and a tree with the invariant is what its export
with private keys is read as. -/
theorem repInv_of_commit (wire : Wire) (hc : c.Correct) (hk : c.ProperKeys) (h : t.RepInv c) :
    (∀ proposals myLeafIdx prevInitSecret groupId epoch ed25519Secret pskResolver policy entropy out
        t', (createCommit c wire proposals myLeafIdx prevInitSecret groupId epoch ed25519Secret
          pskResolver policy entropy).run t = .ok out t' →
        (∀ leaf, t'.getLeafData myLeafIdx = some leaf →
          leaf.identityEd25519Public = c.ed25519Public ed25519Secret) → t'.RepInv c) ∧
      (∀ commit myLeafIdx prevInitSecret groupId currentEpoch pskResolver policy processed t',
        (processCommit c wire commit myLeafIdx prevInitSecret groupId currentEpoch pskResolver
          policy).run t = .ok processed t' → t'.RepInv c) ∧
      RatchetTree.fromProto c t.exportWithPrivateKeys = .ok t :=
  ⟨fun _ _ _ _ _ _ _ _ _ _ _ hrun hkey ↦ repInv_of_createCommit hc hk h hrun hkey,
    fun _ _ _ _ _ _ _ _ _ hrun ↦ repInv_of_processCommit h hrun,
    RatchetTree.fromProto_exportWithPrivateKeys h⟩

/-- In the sample group the first member's tree has the invariant, so the tree it commits to and the
tree of the member that processes the commit have it too. -/
theorem repInv_of_commit_sample : ∃ t initSecret out t' processed t'',
    t.RepInv Crypto.transparent ∧
    (sampleCommit [] initSecret 1 1).run t = .ok out t' ∧ t'.RepInv Crypto.transparent ∧
    (processCommit Crypto.transparent Wire.plain out.commit 1 initSecret sampleCreated.groupId 1 none
      .standard).run t = .ok processed t'' ∧ t''.RepInv Crypto.transparent ∧
    RatchetTree.fromProto Crypto.transparent t''.exportWithPrivateKeys = .ok t'' := by
  have hrun := eq_ok_get_toOption sampleExchange_isSome
  generalize sampleExchange.toOption.get sampleExchange_isSome = r at hrun
  simp only [sampleExchange, except_bind_eq_ok, onCopy_eq_ok, require_eq_ok] at hrun
  obtain ⟨⟨kp, x25519Private, kyberSecret⟩, -, ⟨out₁, t₁⟩, hadd, _, hown₁, _, hsizes, ⟨_, t₂⟩,
    hprivate, ⟨out₂, t₃⟩, hcommit, _, hown₃, ⟨processed, t₄⟩, hprocess, -⟩ := hrun
  have h₁ := (repInv_of_commit Wire.plain Crypto.transparent_correct Crypto.transparent_properKeys
    repInv_sampleCreated).1 _ _ _ _ _ _ _ _ _ _ _ hadd hown₁
  have h₂ := h₁.keepsLeaves
    ((RatchetTree.keepsLeaves_setNodePrivateKeys 2 hsizes.1 hsizes.2).of_ok hprivate)
  obtain ⟨hcreate, hreceive, -⟩ := repInv_of_commit Wire.plain
    Crypto.transparent_correct Crypto.transparent_properKeys h₂
  have h₄ := hreceive _ _ _ _ _ _ _ _ _ hprocess
  exact ⟨t₂, _, out₂, t₃, processed, t₄, h₂, hcommit, hcreate _ _ _ _ _ _ _ _ _ _ _ hcommit hown₃,
    hprocess, h₄, (repInv_of_commit Wire.plain Crypto.transparent_correct
      Crypto.transparent_properKeys h₄).2.2⟩

/-- A committer that signs with the key of somebody else breaks the invariant. -/
theorem createCommit_foreign_key : ∃ out t',
    sampleCreated.tree.RepInv Crypto.transparent ∧
    (createCommit Crypto.transparent Wire.plain [] 0 sampleCreated.initSecret sampleCreated.groupId
      sampleCreated.epoch (sampleMember 2).ed25519.secretKey none .standard
      (samplePathEntropy 41)).run sampleCreated.tree = .ok out t' ∧
    ¬ t'.RepInv Crypto.transparent := by
  have h : sampleForeign.toOption.isSome = true := by decide +kernel
  have hrun := eq_ok_get_toOption h
  generalize sampleForeign.toOption.get h = r at hrun
  simp only [sampleForeign, except_bind_eq_ok, onCopy_eq_ok, orError_eq_ok] at hrun
  obtain ⟨⟨out, t'⟩, hcommit, pkg, hpkg, hinvalid⟩ := hrun
  exact ⟨out, t', repInv_sampleCreated, hcommit, fun hinv ↦ require_eq_ok.mp hinvalid
    (KeyPackage.validateKeyPackage_eq_ok.mpr (hinv.signed (i := 0) hpkg))⟩

end Commit

end AuraProtocol.Group
