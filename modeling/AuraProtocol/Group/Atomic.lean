import AuraProtocol.Group.Instance
import AuraProtocol.Group.Members

/-!
# Failing commits

`process_commit` of a group session works on a copy of the tree and assigns the
candidate only when everything is checked, so a failing call changes nothing
(`processCommit_error`).  The functions that create a commit work on the session's
own tree: `createCommit_run` says which tree a failing call leaves behind, and
`committing_keeps_iff` for which calls that is the tree the session had.
-/

namespace AuraProtocol.Group

open Fallible RatchetTree

variable {c : Crypto} {wire : Wire} {out : CommitOutput} {t : RatchetTree}

/-! ## Receiving a commit -/

namespace Commit

/-- What a processed commit gives: its keys have full size, and it leads to the next epoch, with new
sender chains. -/
theorem processCommit_eq_ok {commit : GroupCommit} {myLeafIdx : ℕ}
    {prevInitSecret groupId : Bytes} {currentEpoch : ℕ} {pskResolver : Option PskResolver}
    {policy : GroupSecurityPolicy} {t t' : RatchetTree} {processed : ProcessedCommit}
    (h : (processCommit c wire commit myLeafIdx prevInitSecret groupId currentEpoch pskResolver
      policy).run t = .ok processed t') :
    GroupKeySchedule.FullSize processed.epochKeys ∧ commit.epoch = currentEpoch + 1 ∧
      newSenderStore c t' processed.epochKeys.epochSecret processed.groupContextHash policy =
        .ok processed.newSenderStore := by
  simp only [processCommit, bind_eq_ok, reads_eq_ok] at h
  obtain ⟨_, _, ⟨hcheck, -⟩, _, _, -, _, _, -, _, _, -, _, _, -, hfinish, rfl⟩ := h
  simp only [checkCommit, except_bind_eq_ok, orError_eq_ok, require_eq_ok] at hcheck
  obtain ⟨expected, hexpected, -, hepoch, -⟩ := hcheck
  simp only [finishProcess, except_bind_eq_ok] at hfinish
  obtain ⟨treeHash, -, next, hnext, -, -, store, hstore, hprocessed⟩ := hfinish
  cases hprocessed
  exact ⟨fullSize_of_deriveNewEpoch hnext, hepoch.trans (checkedAdd_eq_some.mp hexpected).2, hstore⟩

end Commit

namespace GroupSession

/-- Deriving the external keys fails for no init secret of full size. -/
theorem refreshExternalKeys_ok {s : GroupSession} (h : s.initSecret.length = 32) :
    ∃ s', (refreshExternalKeys c).run s = .ok () s' := by
  obtain ⟨external, hexternal⟩ := GroupKeySchedule.exists_deriveExternalKeypairs (c := c) h
  exact ⟨_, reads_bind_of_ok hexternal⟩

end GroupSession

/-! ## Creating a commit -/

namespace RatchetTree

/-- Which leaves are occupied. -/
def occupied (t : RatchetTree) : List Bool := t.leaves.map Option.isSome

theorem occupied_setLeaf_self {i : ℕ} {leaf leaf' : LeafData}
    (h : t.getLeafData i = some leaf) : (t.setLeaf i (some leaf')).occupied = t.occupied := by
  have hget : t.leaves[i]? = some (some leaf) := Option.join_eq_some_iff.mp h
  refine List.ext_getElem? fun j => ?_
  simp only [occupied, setLeaf, List.map_set, List.getElem?_set, List.length_map,
    List.getElem?_map, Option.isSome_some]
  split_ifs with hj hlt
  · rw [← hj, hget]
    rfl
  · exact absurd (List.getElem?_eq_some_iff.mp hget).1 (hj ▸ hlt)
  · rfl

/-- The operations that put a path into the tree leave every leaf as occupied as it was. -/
theorem keeps_setNodePublicKeys (nodeIdx : ℕ) (x25519Public kyberPublic : Bytes) :
    Keeps (fun t t' => t'.occupied = t.occupied)
      (setNodePublicKeys nodeIdx x25519Public kyberPublic) := by
  intro t
  rw [setNodePublicKeys, get_bind_run]
  rcases t.nodes[nodeIdx]? with _ | _ | _ <;> rfl

theorem keeps_setNodePrivateKeys (nodeIdx : ℕ) (x25519Private kyberSecret : Bytes) :
    Keeps (fun t t' => t'.occupied = t.occupied)
      (setNodePrivateKeys nodeIdx x25519Private kyberSecret) := by
  intro t
  rw [setNodePrivateKeys, get_bind_run]
  rcases t.nodes[nodeIdx]? with _ | _ | _ <;> rfl

theorem keeps_setNodeParentHash (nodeIdx : ℕ) (hash : Bytes) :
    Keeps (fun t t' => t'.occupied = t.occupied) (setNodeParentHash nodeIdx hash) := by
  intro t
  rw [setNodeParentHash, get_bind_run]
  rcases t.nodes[nodeIdx]? with _ | _ | _ <;> rfl

theorem keeps_setLeafSignature (leafIdx : ℕ) (signature : Bytes) :
    Keeps (fun t t' => t'.occupied = t.occupied) (setLeafSignature leafIdx signature) := by
  intro t
  rw [setLeafSignature, get_bind_run]
  cases h : t.getLeafData leafIdx with
  | none => rfl
  | some leaf => exact occupied_setLeaf_self h

/-- An added leaf was not occupied before. -/
theorem addLeaf_eq_ok {x25519Public kyberPublic : Bytes} {leafData : LeafData} {i : ℕ}
    {t t' : RatchetTree} (h : (addLeaf x25519Public kyberPublic leafData).run t = .ok i t') :
    t'.occupied ≠ t.occupied := by
  change addLeaf x25519Public kyberPublic leafData t = _ at h
  rw [addLeaf] at h
  split_ifs at h with hmembers
  split at h
  · rename_i idx hidx
    cases h
    obtain ⟨hlt, hnone, -⟩ := List.findIdx?_eq_some_iff_getElem.mp hidx
    intro heq
    have := congrArg (·[i]?) heq
    simp only [occupied, setLeaf, List.getElem?_map, List.getElem?_set_self hlt, setNode_leaves,
      List.getElem?_eq_getElem hlt, Option.map_some, Option.isSome_some, Option.some.injEq] at this
    rw [← Option.not_isSome, ← this] at hnone
    cases hnone
  · cases h
    intro heq
    have := congrArg List.length heq
    simp only [occupied, grow, List.length_map, List.length_append, List.length_singleton] at this
    omega

/-- A group that is not full takes another member. -/
theorem exists_addLeaf (h : t.memberCount < maxGroupMembers)
    (x25519Public kyberPublic : Bytes) (leafData : LeafData) :
    ∃ i t', (addLeaf x25519Public kyberPublic leafData).run t = .ok i t' := by
  change ∃ i t', addLeaf x25519Public kyberPublic leafData t = _
  rw [addLeaf, dif_pos h]
  split
  · exact ⟨_, _, rfl⟩
  · exact ⟨_, _, rfl⟩

theorem addLeaf_of_full (h : ¬ t.memberCount < maxGroupMembers)
    (x25519Public kyberPublic : Bytes) (leafData : LeafData) :
    (addLeaf x25519Public kyberPublic leafData).run t =
      .error (.groupMembership "Group member limit reached") t := by
  change addLeaf x25519Public kyberPublic leafData t = _
  rw [addLeaf, dif_neg h]

/-- An occupied leaf can be blanked, and is then not occupied. -/
theorem exists_blankLeaf {i : ℕ} (hi : i < t.leafCount)
    (hsome : (t.getLeafData i).isSome = true) :
    ∃ t', (blankLeaf i).run t = .ok () t' ∧ t'.occupied ≠ t.occupied := by
  have hnode := Tree.checkedLeafToNode_of_le (hi.le.trans t.leafCount_le_depth)
  obtain ⟨path, hpath, -⟩ := t.exists_directPath hi
  have hne : ∀ t' : RatchetTree, t'.leaves = t.leaves.set i none → t'.occupied ≠ t.occupied := by
    intro t' ht' heq
    have hlt : i < t.leaves.length := t.length_leaves.symm ▸ hi
    have := congrArg (·[i]?) heq
    simp only [occupied, ht', List.getElem?_map, List.getElem?_set_self hlt, Option.map_some,
      List.getElem?_eq_getElem hlt, Option.some.injEq] at this
    rw [getLeafData, List.getElem?_eq_getElem hlt, Option.join_some, ← this] at hsome
    cases hsome
  rw [blankLeaf, get_bind_run, lift_bind_of_ok (a := ()) (require_eq_ok.mpr hi),
    lift_bind_of_ok (a := ()) (require_eq_ok.mpr hsome), lift_bind_of_ok hnode, modify_bind_run]
  split_ifs with hcount
  · rw [lift_bind_of_ok hpath, modify_run]
    exact ⟨_, rfl, hne _ (leaves_blankNodes _ path)⟩
  · exact ⟨_, rfl, hne _ rfl⟩

end RatchetTree

namespace Commit

/-- Putting a path into the tree leaves every leaf as occupied as it was, also if it fails. -/
theorem keeps_installUpdatePath (myLeafIdx : ℕ) (out : UpdatePathOutput) :
    Keeps (fun t t' => t'.occupied = t.occupied) (installUpdatePath myLeafIdx out) := by
  refine .bind (.lift _) fun leafNode => ?_
  refine .bind (keeps_setNodePublicKeys _ _ _) fun _ => ?_
  refine .bind (keeps_setLeafSignature _ _) fun _ => .bind (.reads _) fun directPath => ?_
  refine .bind (.forM (fun p => keeps_setNodePublicKeys _ _ _) _) fun _ => ?_
  refine .bind (.forM (fun p => ?_) _) fun _ => ?_
  · dsimp only
    split_ifs
    · exact .pure _
    · exact keeps_setNodeParentHash _ _
  · exact .forM (fun p => keeps_setNodePrivateKeys _ _ _) _

variable {proposals : List GroupProposal} {myLeafIdx : ℕ} {prevInitSecret groupId : Bytes}
  {epoch : ℕ} {ed25519Secret : Bytes} {pskResolver : Option PskResolver}
  {policy : GroupSecurityPolicy} {entropy : PathEntropy} {t t' t₁ : RatchetTree} {added : List ℕ}

/-- What a created commit carries: its keys have full size, its proposals are those given, and it
leads to the next epoch, with new sender chains. -/
theorem createCommit_eq_ok
    (h : (createCommit c wire proposals myLeafIdx prevInitSecret groupId epoch ed25519Secret
      pskResolver policy entropy).run t = .ok out t') :
    GroupKeySchedule.FullSize out.epochKeys ∧ out.commit.proposals = proposals ∧
      out.commit.epoch = epoch + 1 ∧
      newSenderStore c t' out.epochKeys.epochSecret out.groupContextHash policy =
        .ok out.newSenderStore := by
  simp only [createCommit, bind_eq_ok, reads_eq_ok] at h
  obtain ⟨_, _, -, _, _, -, _, _, -, _, _, -, h, rfl⟩ := h
  simp only [finishCommit, except_bind_eq_ok, orError_eq_ok] at h
  obtain ⟨_, -, newEpoch, hepoch, next, hnext, store, hstore, _, -, hout⟩ := h
  cases hout
  exact ⟨fullSize_of_deriveNewEpoch hnext, rfl, (checkedAdd_eq_some.mp hepoch).2, hstore⟩

/-- The tree a commit leaves behind, once its proposals are applied: the tree with the proposals if
no path can be made, otherwise the tree the path was put into, whatever fails then. -/
theorem createCommit_run (c : Crypto) (wire : Wire) (prevInitSecret groupId : Bytes) (epoch : ℕ)
    (ed25519Secret : Bytes) (pskResolver : Option PskResolver) (policy : GroupSecurityPolicy)
    (entropy : PathEntropy) (hvalid : Membership.validateProposals c t proposals myLeafIdx = .ok ())
    (happly : (Membership.applyProposals proposals).run t = .ok added t₁) :
    (∃ e, signedUpdatePath c t₁ myLeafIdx ed25519Secret entropy = .error e ∧
      (createCommit c wire proposals myLeafIdx prevInitSecret groupId epoch ed25519Secret
        pskResolver policy entropy).run t = .error e t₁) ∨
    ∃ out, signedUpdatePath c t₁ myLeafIdx ed25519Secret entropy = .ok out ∧
      endState ((createCommit c wire proposals myLeafIdx prevInitSecret groupId epoch ed25519Secret
        pskResolver policy entropy).run t) = endState ((installUpdatePath myLeafIdx out).run t₁) := by
  rw [createCommit, reads_bind_of_ok
    (g := fun t => Membership.validateProposals c t proposals myLeafIdx) hvalid, bind_of_ok happly]
  cases hpath : signedUpdatePath c t₁ myLeafIdx ed25519Secret entropy with
  | error e =>
    exact .inl ⟨e, rfl, reads_bind_of_error
      (g := fun t => signedUpdatePath c t myLeafIdx ed25519Secret entropy) hpath⟩
  | ok out =>
    refine .inr ⟨out, rfl, ?_⟩
    rw [reads_bind_of_ok (g := fun t => signedUpdatePath c t myLeafIdx ed25519Secret entropy) hpath]
    cases hinstall : (installUpdatePath myLeafIdx out).run t₁ with
    | error e t₂ => rw [bind_of_error hinstall, endState, endState]
    | ok _ t₂ =>
      rw [bind_of_ok hinstall]
      exact Keeps.reads (R := fun t t' => id t' = id t) _ t₂

end Commit

namespace GroupSession

/-- The state that keeps a session in step with its group. -/
structure InStep (s s' : GroupSession) : Prop where
  tree : s'.tree = s.tree
  epoch : s'.epoch = s.epoch
  initSecret : s'.initSecret = s.initSecret
  epochKeys : s'.epochKeys = s.epochKeys
  senderStore : s'.senderStore = s.senderStore
  pendingReinit : s'.pendingReinit = s.pendingReinit

theorem InStep.refl (s : GroupSession) : InStep s s := ⟨rfl, rfl, rfl, rfl, rfl, rfl⟩

theorem ensureNoPendingReinit_eq_ok {operation : String} {s : GroupSession} {u : Unit} :
    ensureNoPendingReinit operation s = .ok u ↔ s.pendingReinit = none := require_eq_ok

section CommitOwn

variable {proposals : List GroupProposal} {entropy : PathEntropy} {s s' : GroupSession}

theorem commitOwn_eq_ok :
    (commitOwn c wire proposals entropy).run s = .ok out s' ↔
      ∃ t, (Commit.createCommit c wire proposals s.myLeafIdx s.initSecret s.groupId s.epoch
        s.myEd25519Secret.1 s.pskResolver s.securityPolicy entropy).run s.tree = .ok out t ∧
          s' = { s with tree := t } := by
  rw [commitOwn, get_bind_run]
  exact zoom_eq_ok

theorem commitOwn_eq_error {e : ProtocolError} :
    (commitOwn c wire proposals entropy).run s = .error e s' ↔
      ∃ t, (Commit.createCommit c wire proposals s.myLeafIdx s.initSecret s.groupId s.epoch
        s.myEd25519Secret.1 s.pskResolver s.securityPolicy entropy).run s.tree = .error e t ∧
          s' = { s with tree := t } := by
  rw [commitOwn, get_bind_run]
  exact zoom_eq_error

end CommitOwn

/-- The calls that create a commit. -/
inductive Committing where
  | addMember (keyPackage : GroupKeyPackage) (welcomeEntropy : WelcomeEntropy)
  | removeMember (removedLeafIdx : ℕ)
  | update
  | createReinitCommit (newGroupId : Bytes) (newVersion : ℕ)

variable {call : Committing}

namespace Committing

variable (c wire)

/-- Makes the call; the messages it returns. -/
def run (entropy : PathEntropy) : Committing → SessionM (List Bytes)
  | .addMember keyPackage welcomeEntropy => do
    let (commit, welcome) ← GroupSession.addMember c wire keyPackage entropy welcomeEntropy
    return [commit, welcome]
  | .removeMember removedLeafIdx => do
    return [← GroupSession.removeMember c wire removedLeafIdx entropy]
  | .update => do return [← GroupSession.update c wire entropy]
  | .createReinitCommit newGroupId newVersion => do
    return [← GroupSession.createReinitCommit c wire newGroupId newVersion entropy]

/-- The proposals a call commits. -/
def proposals : Committing → List GroupProposal
  | .addMember keyPackage _ => [some (.add (some keyPackage))]
  | .removeMember removedLeafIdx => [some (.remove removedLeafIdx)]
  | .update => []
  | .createReinitCommit newGroupId newVersion => [some (.reInit ⟨newGroupId, newVersion⟩)]

/-- Whether a call adds or removes a member. -/
def changesMembers : Committing → Bool
  | .addMember _ _ | .removeMember _ => true
  | .update | .createReinitCommit _ _ => false

/-- What a call checks before the tree is touched. -/
def check (s : GroupSession) : Committing → Except ProtocolError Unit
  | .addMember keyPackage _ => do
    KeyPackage.validateKeyPackage c keyPackage
    ensureNoPendingReinit "add_member" s
    Membership.validateProposals c s.tree [some (.add (some keyPackage))] s.myLeafIdx
    require (s.tree.memberCount < maxGroupMembers)
      (.groupMembership "Group member limit reached")
  | .removeMember removedLeafIdx => do
    ensureNoPendingReinit "remove_member" s
    Membership.validateProposals c s.tree [some (.remove removedLeafIdx)] s.myLeafIdx
  | .update => do
    ensureNoPendingReinit "update" s
    Membership.validateProposals c s.tree [] s.myLeafIdx
  | .createReinitCommit newGroupId newVersion => do
    require (newGroupId.length = groupIdBytes) (.invalidInput
      (s!"create_reinit_commit: new_group_id must be {groupIdBytes} bytes, " ++
        s!"got {newGroupId.length}"))
    ensureNoPendingReinit "create_reinit_commit" s
    Membership.validateProposals c s.tree [some (.reInit ⟨newGroupId, newVersion⟩)] s.myLeafIdx

variable {c wire} {entropy : PathEntropy} {s s' : GroupSession} {e : ProtocolError}

/-- A call that passes its checks can apply its proposals: a call that changes the members then has
other leaves occupied, any other call has the tree it had. -/
theorem applied_of_check (h : call.check c s = .ok ()) :
    ∃ added t₁, (Membership.applyProposals call.proposals).run s.tree = .ok added t₁ ∧
      (call.changesMembers = true → t₁.occupied ≠ s.tree.occupied) ∧
      (call.changesMembers = false → t₁ = s.tree) := by
  cases call with
  | addMember kp _ =>
    simp only [check, except_seq_eq_ok, require_eq_ok] at h
    obtain ⟨i, t₁, hadd⟩ := exists_addLeaf h.2.2.2 kp.leafX25519Public
      kp.leafKyberPublic (.ofKeyPackage kp)
    have happly : (Membership.applyAdd (some kp)).run s.tree = .ok i t₁ := hadd
    exact ⟨[i], t₁, bind_of_ok happly, fun _ => addLeaf_eq_ok hadd, by rintro ⟨⟩⟩
  | removeMember i =>
    simp only [check, except_seq_eq_ok, Membership.validateProposals, forM_eq_ok,
      List.forall_mem_singleton] at h
    simp only [Membership.checkAgainstTree, except_seq_eq_ok, require_eq_ok] at h
    obtain ⟨t₁, hblank, hne⟩ := exists_blankLeaf h.2.2.1 h.2.2.2.1
    have hforM : (List.forM [i] RatchetTree.blankLeaf).run s.tree = .ok () t₁ :=
      bind_of_ok hblank
    exact ⟨[], t₁, bind_of_ok hforM, fun _ => hne, by rintro ⟨⟩⟩
  | update => exact ⟨[], s.tree, rfl, by rintro ⟨⟩, fun _ => rfl⟩
  | createReinitCommit newGroupId newVersion =>
    exact ⟨[], s.tree, rfl, by rintro ⟨⟩, fun _ => rfl⟩

/-- How a call fails whose own steps are `commitOwn` and then `k`, which leaves the tree alone. -/
theorem commitOwn_bind_error {α : Type} {proposals : List GroupProposal}
    {k : CommitOutput → SessionM α} (hk : ∀ out, Keeps (fun s s' => s'.tree = s.tree) (k out))
    (hvalid : Membership.validateProposals c s.tree proposals s.myLeafIdx = .ok ())
    {added : List ℕ} {t₁ : RatchetTree}
    (happly : (Membership.applyProposals proposals).run s.tree = .ok added t₁)
    (h : (commitOwn c wire proposals entropy >>= k).run s = .error e s') :
    (Commit.signedUpdatePath c t₁ s.myLeafIdx s.myEd25519Secret.1 entropy = .error e ∧
      s' = { s with tree := t₁ }) ∨
    ∃ out, Commit.signedUpdatePath c t₁ s.myLeafIdx s.myEd25519Secret.1 entropy = .ok out ∧
      s'.tree = endState ((Commit.installUpdatePath s.myLeafIdx out).run t₁) ∧
      (s' = { s with tree := s'.tree } ∨ ∃ commit s₁,
        (commitOwn c wire proposals entropy).run s = .ok commit s₁ ∧
          (k commit).run s₁ = .error e s') := by
  have hrun := Commit.createCommit_run c wire s.initSecret s.groupId s.epoch s.myEd25519Secret.1
    s.pskResolver s.securityPolicy entropy hvalid happly
  rcases bind_eq_error.mp h with hcommit | ⟨commit, s₁, hcommit, hrest⟩
  · obtain ⟨t', ht', rfl⟩ := commitOwn_eq_error.mp hcommit
    rcases hrun with ⟨e', hpath, herr⟩ | ⟨out, hpath, hend⟩
    · cases ht'.symm.trans herr
      exact .inl ⟨hpath, rfl⟩
    · rw [ht'] at hend
      exact .inr ⟨out, hpath, hend, .inl rfl⟩
  · obtain ⟨t', ht', rfl⟩ := commitOwn_eq_ok.mp hcommit
    rcases hrun with ⟨e', hpath, herr⟩ | ⟨out, hpath, hend⟩
    · cases ht'.symm.trans herr
    · rw [ht'] at hend
      exact .inr ⟨out, hpath, ((hk commit).of_error hrest).trans hend,
        .inr ⟨commit, _, hcommit, hrest⟩⟩

/-- Deriving the external keys changes no tree. -/
theorem keeps_refreshExternalKeys :
    Keeps (fun s s' => s'.tree = s.tree) (refreshExternalKeys c) :=
  .bind (.reads _) fun _ => .modify fun _ => rfl

/-- Nothing fails in a call that changes no members once `create_commit` has returned. -/
theorem enterEpoch_ok {α : Type} {proposals : List GroupProposal} {s₁ : GroupSession}
    (h : (commitOwn c wire proposals entropy).run s = .ok out s₁) (f : GroupSession → GroupSession)
    (hf : ∀ s, (f s).initSecret = s.initSecret) (a : α) :
    ∃ s₂, (do modify f; refreshExternalKeys c; return a : SessionM α).run
      (s₁.enterEpoch out.commit.epoch out.epochKeys out.newSenderStore out.groupContextHash) =
        .ok a s₂ := by
  obtain ⟨t, hcreate, rfl⟩ := commitOwn_eq_ok.mp h
  have hlen := (Commit.createCommit_eq_ok hcreate).1.initSecret
  obtain ⟨s₂, hs₂⟩ := refreshExternalKeys_ok (c := c) (s := f (enterEpoch { s with tree := t }
    out.commit.epoch out.epochKeys out.newSenderStore out.groupContextHash)) ((hf _).symm ▸ hlen)
  exact ⟨s₂, bind_of_ok hs₂⟩

/-- Returning the messages of a call does not fail. -/
theorem bind_pure_eq_error {α β : Type} {x : SessionM α} {f : α → β}
    (h : (x >>= fun a => pure (f a)).run s = .error e s') : x.run s = .error e s' := by
  rcases bind_eq_error.mp h with h | ⟨a, s₁, -, h⟩
  · exact h
  · cases h

/-- How a call fails that passed its checks. -/
theorem run_eq_error (hcheck : call.check c s = .ok ()) {added : List ℕ} {t₁ : RatchetTree}
    (happly : (Membership.applyProposals call.proposals).run s.tree = .ok added t₁)
    (h : (call.run c wire entropy).run s = .error e s') :
    (Commit.signedUpdatePath c t₁ s.myLeafIdx s.myEd25519Secret.1 entropy = .error e ∧
      s' = { s with tree := t₁ }) ∨
    ∃ out, Commit.signedUpdatePath c t₁ s.myLeafIdx s.myEd25519Secret.1 entropy = .ok out ∧
      s'.tree = endState ((Commit.installUpdatePath s.myLeafIdx out).run t₁) ∧
      (call.changesMembers = false → s' = { s with tree := s'.tree }) := by
  have hclose : ∀ {α : Type} (out : CommitOutput) (f : GroupSession → GroupSession) (a : α),
      (∀ s, (f s).tree = s.tree) → Keeps (fun s s' => s'.tree = s.tree)
        (do modify f; refreshExternalKeys c; return a : SessionM α) := fun out f a hf =>
    .bind (.modify hf) fun _ => .bind keeps_refreshExternalKeys fun _ => .pure a
  cases call with
  | addMember kp welcomeEntropy =>
    simp only [check, except_seq_eq_ok, require_eq_ok] at hcheck
    have h := bind_pure_eq_error h
    rw [GroupSession.addMember, lift_bind_of_ok hcheck.1, reads_bind_of_ok hcheck.2.1] at h
    refine (commitOwn_bind_error (fun out => ?_) hcheck.2.2.1 happly h).imp id ?_
    · exact .bind (.lift _) fun i => .bind (.reads _) fun w => hclose out _ _ fun _ => rfl
    · rintro ⟨out, hpath, htree, -⟩
      exact ⟨out, hpath, htree, by rintro ⟨⟩⟩
  | removeMember i =>
    simp only [check, except_seq_eq_ok] at hcheck
    have h := bind_pure_eq_error h
    rw [GroupSession.removeMember, reads_bind_of_ok hcheck.1] at h
    refine (commitOwn_bind_error (fun out => ?_) hcheck.2 happly h).imp id ?_
    · exact hclose out _ _ fun _ => rfl
    · rintro ⟨out, hpath, htree, -⟩
      exact ⟨out, hpath, htree, by rintro ⟨⟩⟩
  | update =>
    simp only [check, except_seq_eq_ok] at hcheck
    have h := bind_pure_eq_error h
    rw [GroupSession.update, reads_bind_of_ok hcheck.1] at h
    refine (commitOwn_bind_error (fun out => ?_) hcheck.2 happly h).imp id ?_
    · exact hclose out _ _ fun _ => rfl
    · rintro ⟨out, hpath, htree, hrest⟩
      refine ⟨out, hpath, htree, fun _ => hrest.resolve_right ?_⟩
      rintro ⟨commit, s₁, hcommit, hfail⟩
      obtain ⟨s₂, hs₂⟩ := enterEpoch_ok hcommit id (fun _ => rfl) (wire.commit.encode commit.commit)
      cases hfail.symm.trans hs₂
  | createReinitCommit newGroupId newVersion =>
    simp only [check, except_seq_eq_ok, require_eq_ok] at hcheck
    have h := bind_pure_eq_error h
    rw [GroupSession.createReinitCommit, lift_bind_of_ok (a := ()) (require_eq_ok.mpr hcheck.1),
      reads_bind_of_ok hcheck.2.1] at h
    refine (commitOwn_bind_error (fun out => ?_) hcheck.2.2 happly h).imp id ?_
    · exact .bind (.modify fun _ => rfl) fun _ => .bind (.lift _) fun _ => hclose out _ _ fun _ => rfl
    · rintro ⟨out, hpath, htree, hrest⟩
      refine ⟨out, hpath, htree, fun _ => hrest.resolve_right ?_⟩
      rintro ⟨commit, s₁, hcommit, hfail⟩
      obtain ⟨t, hcreate, -⟩ := commitOwn_eq_ok.mp hcommit
      -- the commit carries the call's own proposal, so the ReInit is found
      rw [(Commit.createCommit_eq_ok hcreate).2.1] at hfail
      obtain ⟨s₂, hs₂⟩ := enterEpoch_ok hcommit
        (fun s => { s with pendingReinit := some ⟨newGroupId, newVersion⟩ }) (fun _ => rfl)
        (wire.commit.encode commit.commit)
      cases hfail.symm.trans hs₂

/-- A call refused by its checks changes nothing. -/
theorem run_of_check_error (h : call.check c s = .error e) :
    (call.run c wire entropy).run s = .error e s := by
  -- what follows a call's own checks, up to the point where the tree is touched
  have hgate : ∀ {α : Type} {operation : String} {proposals : List GroupProposal}
      {k : CommitOutput → SessionM α}, ensureNoPendingReinit operation s = .error e ∨
        ensureNoPendingReinit operation s = .ok () ∧
          (commitOwn c wire proposals entropy).run s = .error e s →
      (do reads (ensureNoPendingReinit operation); commitOwn c wire proposals entropy >>= k :
        SessionM α).run s = .error e s := by
    rintro α operation proposals k (hpending | ⟨hpending, hown⟩)
    · exact reads_bind_of_error hpending
    · exact (reads_bind_of_ok hpending).trans (bind_of_error hown)
  have hvalid : ∀ {proposals}, Membership.validateProposals c s.tree proposals s.myLeafIdx =
      .error e → (commitOwn c wire proposals entropy).run s = .error e s := fun hv =>
    commitOwn_eq_error.mpr ⟨s.tree, reads_bind_of_error
      (g := fun t => Membership.validateProposals c t _ s.myLeafIdx) hv, rfl⟩
  cases call with
  | addMember kp welcomeEntropy =>
    simp only [check, except_bind_eq_error, Unique.exists_iff] at h
    rcases h with hkp | ⟨hkp, h⟩
    · exact bind_of_error (lift_bind_of_error hkp s)
    refine bind_of_error ((lift_bind_of_ok hkp s).trans (hgate ?_))
    refine h.imp_right (And.imp_right ?_)
    rintro (hv | ⟨hv, hfull⟩)
    · exact hvalid hv
    obtain ⟨hmembers, rfl⟩ := require_eq_error.mp hfull
    refine commitOwn_eq_error.mpr ⟨s.tree, ?_, rfl⟩
    rw [Commit.createCommit, reads_bind_of_ok
      (g := fun t => Membership.validateProposals c t _ s.myLeafIdx) hv]
    exact bind_of_error (bind_of_error (x := Membership.applyAdd (some kp))
      (addLeaf_of_full hmembers _ _ _))
  | createReinitCommit newGroupId newVersion =>
    simp only [check, except_bind_eq_error, Unique.exists_iff] at h
    rcases h with hid | ⟨hid, h⟩
    · exact bind_of_error (lift_bind_of_error hid s)
    · exact bind_of_error ((lift_bind_of_ok hid s).trans (hgate (h.imp_right (.imp_right hvalid))))
  | _ =>
    simp only [check, except_bind_eq_error, Unique.exists_iff] at h
    exact bind_of_error (hgate (h.imp_right (.imp_right hvalid)))

end Committing

/-- A tree of three leaves as a peer may send it: only the third leaf is occupied, and the inner
node above the other two has no ML-KEM key. -/
def sampleTreeNodes (keyPackage : GroupKeyPackage) : List GroupTreeNode :=
  [blank 0, ⟨1, keyPackage.leafX25519Public, [], [], [], [], none⟩, blank 2, blank 3,
    ⟨4, keyPackage.leafX25519Public, keyPackage.leafKyberPublic, [], [], [], some keyPackage⟩]
where
  /-- A blank node. -/
  blank (nodeIdx : ℕ) : GroupTreeNode := ⟨nodeIdx, [], [], [], [], [], none⟩

/-- The key package of a sample member. -/
def sampleKeyPackage (n : UInt8) : Except ProtocolError GroupKeyPackage :=
  (·.1) <$> KeyPackage.createKeyPackage Crypto.transparent (sampleMember n) [n] (sampleKeyEntropy n)

/-- Adding a member to that tree: which leaves are occupied before, and after the call has failed. -/
def sampleFailure : Except ProtocolError (List Bool × List Bool) := do
  let tree ← RatchetTree.fromProto Crypto.transparent (sampleTreeNodes (← sampleKeyPackage 1))
  let call := Committing.addMember (← sampleKeyPackage 2)
    { nonce := sampleBytes aesGcmNonceBytes 23, joiner := sampleSealEntropy 24 }
  match (call.run Crypto.transparent Wire.plain (samplePathEntropy 22)).run
      { sampleCreated with tree := tree, myLeafIdx := 2 } with
  | .ok _ _ => throw (.generic "added")
  | .error _ s' => return (tree.occupied, s'.tree.occupied)

theorem sampleFailure_eq : sampleFailure.toOption = some ([false, false, true], [true, false, true]) := by
  decide +kernel

end GroupSession

end AuraProtocol.Group
