import AuraProtocol.Group.Session

/-!
# The relay's roster of a group

The relay of `api/relay.rs` does not take part in a group.  It keeps a roster of the
members, checks the commits it forwards as far as the roster allows, and applies their
membership changes to the roster.  The member records of the leaves a commit adds come from
outside, together with the commit.
-/

namespace AuraProtocol.Relay

open Fallible AuraProtocol.Group List

/-! ## Rosters -/

structure GroupMemberRecord where
  leafIndex : ℕ
  identityEd25519Public : Bytes
  identityX25519Public : Bytes
  credential : Bytes
  deriving DecidableEq, Repr

structure GroupRoster where
  groupId : Bytes
  epoch : ℕ
  members : List GroupMemberRecord
  deriving DecidableEq, Repr

def GroupRoster.findMember (roster : GroupRoster) (leafIndex : ℕ) : Option GroupMemberRecord :=
  roster.members.find? fun m => m.leafIndex = leafIndex

inductive RelayCommitKind where
  | standard
  | externalJoin
  deriving DecidableEq, Repr

/-- `RelayCommitInfo`.  Its validation scope has one value only and is left out. -/
structure RelayCommitInfo where
  committerLeafIndex : ℕ
  newEpoch : ℕ
  addedIdentities : List Bytes
  removedLeaves : List ℕ
  kind : RelayCommitKind
  deriving DecidableEq, Repr

/-! ## Checking a commit -/

section Validation

variable (c : Crypto)

def verifyEd25519Message (publicKey signature message : Bytes) (context : String) :
    Except ProtocolError Unit :=
  verifyWith c (.invalidInput "Invalid Ed25519 public key size")
    (.invalidInput "Invalid Ed25519 signature size") (.groupProtocol "Invalid Ed25519 public key")
    (.groupProtocol context) publicKey signature message

def bindSenderIdentity (member : GroupMemberRecord) (expectedSenderIdentityEd25519 : Bytes) :
    Except ProtocolError Unit :=
  require (member.identityEd25519Public = expectedSenderIdentityEd25519)
    (.groupMembership "Sender identity does not match roster leaf")

end Validation

/-! ## Applying a commit -/

/-- `Vec::swap_remove`: the last element takes the place of the removed one. -/
def swapRemove {α : Type} (l : List α) (i : ℕ) : List α :=
  match l.getLast? with
  | none => []
  | some last => (l.set i last).dropLast

theorem swapRemove_perm {α : Type} {l : List α} {i : ℕ} {a : α} (h : l[i]? = some a) :
    l.Perm (a :: swapRemove l i) := by
  obtain ⟨hi, rfl⟩ := List.getElem?_eq_some_iff.mp h
  have hne : l ≠ [] := ne_nil_of_length_pos (Nat.zero_lt_of_lt hi)
  rw [swapRemove, List.getLast?_eq_some_getLast hne]
  dsimp only
  have hlast : (l.set i (l.getLast hne)).getLast? = some (l.getLast hne) := by
    rw [List.getLast?_eq_getElem?, List.getElem?_set, length_set]
    split_ifs with heq
    · rfl
    · rw [← List.getLast?_eq_getElem?, List.getLast?_eq_some_getLast hne]
  -- the list with the last element in place of the removed one, taken apart in two ways
  have hperm : (l.getLast hne :: (l.set i (l.getLast hne)).dropLast).Perm
      (l.getLast hne :: l.eraseIdx i) := by
    refine (perm_append_singleton _ _).symm.trans ?_
    rw [dropLast_append_getLast? _ hlast]
    exact set_perm_cons_eraseIdx hi _
  exact (getElem_cons_eraseIdx_perm hi).symm.trans (hperm.cons_inv.symm.cons _)

/-- One removal of `apply_commit_to_roster_tentative`. -/
def removeMember (members : List GroupMemberRecord) (leafIdx : ℕ) :
    Except ProtocolError (List GroupMemberRecord) := do
  require ((members.find? fun m => m.leafIndex = leafIdx).isSome = true)
    (.groupMembership s!"Removed leaf {leafIdx} is not present in roster")
  .ok (members.filter fun m => m.leafIndex ≠ leafIdx)

/-- What the loop over the added records works on: the identities of the commit without a record so
far, the leaves and identities that are taken, and the members. -/
structure RosterUpdate where
  expectedAdded : List Bytes
  seenLeafIndices : List ℕ
  seenIdentities : List Bytes
  members : List GroupMemberRecord

/-- One round of the loop over the added records. -/
def addMember (update : RosterUpdate) (member : GroupMemberRecord) :
    Except ProtocolError RosterUpdate := do
  require (member.identityEd25519Public.length = ed25519PublicKeyBytes)
    (.invalidInput "Invalid Ed25519 key size in added member")
  require (member.identityX25519Public.length = x25519PublicKeyBytes)
    (.invalidInput "Invalid X25519 key size in added member")
  require (member.credential ≠ [] ∧ member.credential.length ≤ maxCredentialSize)
    (.invalidInput "Invalid credential size in added member")
  let i ← orError (update.expectedAdded.findIdx? fun b => b = member.identityEd25519Public)
    (.groupMembership "Added member identity not present in commit Add proposals")
  require (member.leafIndex ∉ update.seenLeafIndices)
    (.groupMembership "Duplicate leaf index in updated roster")
  require (member.identityEd25519Public ∉ update.seenIdentities)
    (.groupMembership "Duplicate identity in updated roster")
  .ok { expectedAdded := swapRemove update.expectedAdded i
        seenLeafIndices := member.leafIndex :: update.seenLeafIndices
        seenIdentities := member.identityEd25519Public :: update.seenIdentities
        members := update.members ++ [member] }

/-- The roster `apply_commit_to_roster_tentative` assigns in the end. -/
def updatedRoster (roster : GroupRoster) (info : RelayCommitInfo)
    (addedMembers : List GroupMemberRecord) : Except ProtocolError GroupRoster := do
  let expectedEpoch ← orError (checkedAdd roster.epoch 1) (.groupProtocol "Roster epoch overflow")
  require (info.newEpoch = expectedEpoch) (.groupProtocol
    s!"Roster epoch update mismatch: expected {expectedEpoch}, got {info.newEpoch}")
  let members ← info.removedLeaves.foldlM removeMember roster.members
  require (members.length + info.addedIdentities.length ≤ maxGroupMembers) (.groupMembership
    (s!"Updated roster would exceed max members: " ++
      s!"{members.length + info.addedIdentities.length} > {maxGroupMembers}"))
  let update ← addedMembers.foldlM addMember
    { expectedAdded := info.addedIdentities
      seenLeafIndices := members.map (·.leafIndex)
      seenIdentities := members.map (·.identityEd25519Public)
      members := members }
  require (update.expectedAdded = [])
    (.groupMembership "Missing added member records for commit Add proposals")
  .ok { roster with epoch := info.newEpoch, members := update.members }

def applyCommitToRosterTentative (info : RelayCommitInfo)
    (addedMembers : List GroupMemberRecord) : EStateM ProtocolError GroupRoster Unit := do
  let updated ← reads fun roster => updatedRoster roster info addedMembers
  set updated

/-! ## What an applied commit does -/

section Applied

variable {roster roster' : GroupRoster} {info : RelayCommitInfo} {members : List GroupMemberRecord}
  {added : List GroupMemberRecord}

/-- Removing leaves one after the other keeps the members of the other leaves. -/
theorem foldlM_removeMember_eq_ok {removed : List ℕ} {left : List GroupMemberRecord}
    (h : removed.foldlM removeMember members = .ok left) :
    left = members.filter fun m => m.leafIndex ∉ removed := by
  induction removed generalizing members with
  | nil =>
    cases h
    simp
  | cons leafIdx removed ih =>
    rw [foldlM_cons, except_bind_eq_ok] at h
    obtain ⟨rest, hrest, h⟩ := h
    obtain ⟨-, hrest⟩ := except_seq_eq_ok.mp hrest
    rw [ih h, ← Except.ok.inj hrest, filter_filter]
    congr 1
    funext m
    simp only [mem_cons, not_or, ne_eq, Bool.decide_and, Bool.and_comm]

/-- The two seen-sets are those of the members, and neither leaves nor identities repeat. -/
structure RosterUpdate.Tracks (update : RosterUpdate) : Prop where
  leafIndices : ∀ i, i ∈ update.seenLeafIndices ↔ i ∈ update.members.map (·.leafIndex)
  identities : ∀ b, b ∈ update.seenIdentities ↔ b ∈ update.members.map (·.identityEd25519Public)
  leafIndices_nodup : (update.members.map (·.leafIndex)).Nodup
  identities_nodup : (update.members.map (·.identityEd25519Public)).Nodup

/-- The seen-sets the loop starts with. -/
theorem RosterUpdate.tracks_of_nodup (expectedAdded : List Bytes)
    (hleaf : (members.map (·.leafIndex)).Nodup)
    (hidentity : (members.map (·.identityEd25519Public)).Nodup) :
    RosterUpdate.Tracks ⟨expectedAdded, members.map (·.leafIndex),
      members.map (·.identityEd25519Public), members⟩ :=
  ⟨fun _ => Iff.rfl, fun _ => Iff.rfl, hleaf, hidentity⟩

/-- What one round of the loop over the added records does. -/
theorem addMember_eq_ok {update update' : RosterUpdate} {member : GroupMemberRecord}
    (h : addMember update member = .ok update') (htracks : update.Tracks) :
    update'.Tracks ∧ update'.members = update.members ++ [member] ∧
      update.expectedAdded.Perm (member.identityEd25519Public :: update'.expectedAdded) := by
  simp only [addMember, except_bind_eq_ok, require_eq_ok, orError_eq_ok, Except.ok.injEq] at h
  obtain ⟨_, -, _, -, _, -, i, hfind, _, hleaf, _, hidentity, rfl⟩ := h
  obtain ⟨hi, heq, -⟩ := List.findIdx?_eq_some_iff_getElem.mp hfind
  have hget : update.expectedAdded[i]? = some member.identityEd25519Public := by
    rw [List.getElem?_eq_getElem hi, of_decide_eq_true heq]
  rw [htracks.leafIndices] at hleaf
  rw [htracks.identities] at hidentity
  refine ⟨⟨fun j => ?_, fun b => ?_, ?_, ?_⟩, rfl, swapRemove_perm hget⟩
  · rw [map_append, mem_append, ← htracks.leafIndices, mem_cons, or_comm]
    simp
  · rw [map_append, mem_append, ← htracks.identities, mem_cons, or_comm]
    simp
  · rw [map_append]
    exact htracks.leafIndices_nodup.append (nodup_singleton _) (by simpa using hleaf)
  · rw [map_append]
    exact htracks.identities_nodup.append (nodup_singleton _) (by simpa using hidentity)

/-- What the whole loop over the added records does. -/
theorem foldlM_addMember_eq_ok {update update' : RosterUpdate}
    (h : added.foldlM addMember update = .ok update') (htracks : update.Tracks) :
    update'.Tracks ∧ update'.members = update.members ++ added ∧
      update.expectedAdded.Perm (added.map (·.identityEd25519Public) ++ update'.expectedAdded) := by
  induction added generalizing update with
  | nil =>
    cases h
    exact ⟨htracks, (append_nil _).symm, .refl _⟩
  | cons member added ih =>
    rw [foldlM_cons, except_bind_eq_ok] at h
    obtain ⟨next, hnext, h⟩ := h
    obtain ⟨hnextTracks, hmembers, hperm⟩ := addMember_eq_ok hnext htracks
    obtain ⟨htracks', hmembers', hperm'⟩ := ih h hnextTracks
    refine ⟨htracks', ?_, ?_⟩
    · rw [hmembers', hmembers, append_assoc, singleton_append]
    · rw [map_cons, cons_append]
      exact hperm.trans (hperm'.cons _)

/-- No leaf and no identity of a roster repeats. -/
structure GroupRoster.Unique (roster : GroupRoster) : Prop where
  leafIndices : (roster.members.map (·.leafIndex)).Nodup
  identities : (roster.members.map (·.identityEd25519Public)).Nodup

/-- What a successful `apply_commit_to_roster_tentative` did. -/
structure Applied (roster : GroupRoster) (info : RelayCommitInfo) (added : List GroupMemberRecord)
    (roster' : GroupRoster) : Prop where
  groupId : roster'.groupId = roster.groupId
  epoch : roster'.epoch = roster.epoch + 1
  members : roster'.members =
    (roster.members.filter fun m => m.leafIndex ∉ info.removedLeaves) ++ added
  identities : (added.map (·.identityEd25519Public)).Perm info.addedIdentities
  unique : roster'.Unique
  size : roster'.members.length ≤ maxGroupMembers

theorem applied_of_updatedRoster (h : updatedRoster roster info added = .ok roster')
    (hunique : roster.Unique) : Applied roster info added roster' := by
  simp only [updatedRoster, except_bind_eq_ok, require_eq_ok, orError_eq_ok,
    Except.ok.injEq] at h
  obtain ⟨epoch, hepoch, _, hnew, left, hleft, _, hsize, update, hupdate, _, hnone, rfl⟩ := h
  obtain rfl := foldlM_removeMember_eq_ok hleft
  have hsub := filter_sublist (p := fun m => decide (m.leafIndex ∉ info.removedLeaves))
    (l := roster.members)
  have htracks := RosterUpdate.tracks_of_nodup info.addedIdentities
    (hunique.leafIndices.sublist (hsub.map _)) (hunique.identities.sublist (hsub.map _))
  obtain ⟨htracks', hmembers, hperm⟩ := foldlM_addMember_eq_ok hupdate htracks
  rw [hnone, append_nil] at hperm
  have hlength : added.length = info.addedIdentities.length := by
    rw [hperm.length_eq, length_map]
  refine ⟨rfl, ?_, hmembers, hperm.symm, ⟨htracks'.leafIndices_nodup, htracks'.identities_nodup⟩,
    ?_⟩
  · exact hnew.trans (checkedAdd_eq_some.mp hepoch).2
  · change update.members.length ≤ _
    rw [hmembers, length_append, hlength]
    exact hsize

/-- `apply_commit_to_roster_tentative` leaves the roster alone when it fails, and otherwise does
exactly what the commit says. -/
theorem applyCommitToRoster_spec (hunique : roster.Unique) (info : RelayCommitInfo)
    (added : List GroupMemberRecord) :
    (∀ e roster', (applyCommitToRosterTentative info added).run roster = .error e roster' →
      roster' = roster) ∧
    ∀ roster', (applyCommitToRosterTentative info added).run roster = .ok () roster' →
      Applied roster info added roster' := by
  constructor
  · intro e roster' h
    rcases reads_bind_eq_error.mp h with ⟨-, hsame⟩ | ⟨_, -, h⟩
    · exact hsame
    · cases h
  · intro roster' h
    obtain ⟨updated, hupdated, h⟩ := reads_bind_eq_ok.mp h
    cases h
    exact applied_of_updatedRoster hupdated hunique

/-- A record with constant keys. -/
def sampleMember (leafIndex : ℕ) (b : UInt8) : GroupMemberRecord :=
  ⟨leafIndex, List.replicate 32 b, List.replicate 32 b, [b]⟩

/-- A roster of two members. -/
def sampleRoster : GroupRoster := ⟨[0], 3, [sampleMember 0 1, sampleMember 1 2]⟩

/-- A commit that replaces the member of leaf 1. -/
def sampleInfo : RelayCommitInfo := ⟨0, 4, [List.replicate 32 3], [1], .standard⟩

theorem applyCommitToRoster_spec_sample :
    ∃ roster', (applyCommitToRosterTentative sampleInfo [sampleMember 1 3]).run sampleRoster =
        .ok () roster' ∧ Applied sampleRoster sampleInfo [sampleMember 1 3] roster' := by
  have hunique : sampleRoster.Unique := ⟨by decide, by decide⟩
  cases hrun : (applyCommitToRosterTentative sampleInfo [sampleMember 1 3]).run sampleRoster with
  | ok u roster' =>
    exact ⟨roster', rfl, (applyCommitToRoster_spec hunique _ _).2 roster' hrun⟩
  | error e roster' =>
    have hok : (outcome ((applyCommitToRosterTentative sampleInfo [sampleMember 1 3]).run
      sampleRoster)).isOk = true := by decide +kernel
    rw [hrun] at hok
    cases hok

end Applied

end AuraProtocol.Relay
