import AuraProtocol.Group.TreeCommits
import AuraProtocol.Group.Welcome

/-!
# Who enters an epoch agrees on it

A party enters the epoch of a commit by creating it, as a member or from outside, by processing it,
or through a welcome that repeats its confirmation MAC (`Enters`).  Its keys then come from one epoch
secret, and the MAC is that of these keys and of the context (`Enters.confirms`).  So any two of them
have the same keys, policy and tree hash, whatever they held before.
-/

namespace AuraProtocol.Group.Commit

open Fallible GroupKeySchedule

variable {c : Crypto} {wire : Wire} {commit : GroupCommit}

/-- What a party has after it entered an epoch. -/
structure Entered where
  tree : RatchetTree
  policyBytes : Bytes
  epochKeys : EpochKeys
  groupContextHash : Bytes

variable (c wire) in
/-- The ways into the epoch of a commit. -/
inductive Enters : GroupCommit → Entered → Prop
  | created {proposals myLeafIdx prevInitSecret groupId epoch ed25519Secret pskResolver policy
        entropy out t t'}
      (h : (createCommit c wire proposals myLeafIdx prevInitSecret groupId epoch ed25519Secret
        pskResolver policy entropy).run t = .ok out t') :
      Enters out.commit ⟨t', policy.policyBytes wire, out.epochKeys, out.groupContextHash⟩
  | processed {commit myLeafIdx prevInitSecret groupId currentEpoch pskResolver policy p t t'}
      (h : (processCommit c wire commit myLeafIdx prevInitSecret groupId currentEpoch pskResolver
        policy).run t = .ok p t') :
      Enters commit ⟨t', policy.policyBytes wire, p.epochKeys, p.groupContextHash⟩
  | welcomed {commit welcome x25519 kyber joinerSecret info identityEd25519 identityX25519 r}
      (hopen : Welcome.openWelcome c wire welcome x25519 kyber = .ok (joinerSecret, info))
      (hcommit : (welcome.groupId, welcome.epoch, info.confirmationMac) =
        (commit.groupId, commit.epoch, commit.confirmationMac))
      (h : Welcome.processWelcome c wire welcome x25519 kyber identityEd25519 identityX25519 =
        .ok r) :
      Enters commit ⟨r.tree, r.securityPolicyBytes, r.epochKeys, r.groupContextHash⟩

variable (c wire commit) in
/-- The keys and the context are those the commit confirms. -/
structure Confirms (e : Entered) : Prop where
  keys : ∃ secret policy, wire.policy.decode e.policyBytes = .ok policy ∧
    deriveSubKeysFromEpochSecretEx c secret policy.enhancedKeySchedule = .ok e.epochKeys
  context : ∃ treeHash, e.tree.treeHash c = .ok treeHash ∧ e.groupContextHash =
    computeGroupContextHash c commit.groupId commit.epoch treeHash e.policyBytes
  mac : commit.confirmationMac =
    computeConfirmationMac c e.epochKeys.confirmationKey e.groupContextHash

theorem Confirms.of_deriveNewEpoch {t : RatchetTree} {treeHash initSecret commitSecret : Bytes}
    {pskResolver : Option PskResolver} {policy : GroupSecurityPolicy} {next : NewEpoch}
    (hhash : t.treeHash c = .ok treeHash)
    (h : deriveNewEpoch c wire commit.groupId commit.epoch treeHash initSecret commitSecret
      commit.proposals pskResolver policy = .ok next)
    (hmac : commit.confirmationMac = next.confirmationMac) :
    Confirms c wire commit
      ⟨t, policy.policyBytes wire, next.epochKeys, next.groupContextHash⟩ := by
  simp only [deriveNewEpoch, applyPskProposals, deriveEpochKeys, except_bind_eq_ok] at h
  obtain ⟨keys, ⟨_, -, hkeys⟩, keys', ⟨⟨secret, hasPsk⟩, -, hpsk⟩, hnext⟩ := h
  cases hnext
  refine ⟨?_, ⟨treeHash, hhash, rfl⟩, hmac⟩
  -- with a PSK the keys are derived anew
  cases hasPsk with
  | false =>
    cases hpsk
    exact ⟨_, policy, wire.policy.decode_encode _, hkeys⟩
  | true => exact ⟨_, policy, wire.policy.decode_encode _, hpsk⟩

theorem Enters.confirms {e : Entered} (h : Enters c wire commit e) : Confirms c wire commit e := by
  cases h with
  | created h =>
    simp only [createCommit, bind_eq_ok, reads_eq_ok, finishCommit, except_bind_eq_ok] at h
    obtain ⟨_, _, -, _, _, -, _, _, -, _, _, -, ⟨_, hhash, _, -, next, hnext, _, -, _, -, hout⟩,
      rfl⟩ := h
    cases hout
    exact .of_deriveNewEpoch hhash hnext rfl
  | processed h =>
    simp only [processCommit, bind_eq_ok, reads_eq_ok, checkCommit, finishProcess,
      except_bind_eq_ok, require_eq_ok] at h
    obtain ⟨_, _, ⟨⟨_, -, _, -, _, rfl, -⟩, -⟩, _, _, -, _, _, -, _, _, -, _, _, -,
      ⟨_, hhash, next, hnext, _, hmac, _, -, hout⟩, rfl⟩ := h
    cases hout
    exact .of_deriveNewEpoch hhash hnext hmac.symm
  | welcomed hopen hcommit h =>
    simp only [Welcome.processWelcome, except_bind_eq_ok, require_eq_ok] at h
    obtain ⟨_, hopen', t, -, _, hhash, _, -, policy, hpolicy, _, -, secret, -, keys, hkeys, _, hmac,
      _, -, hout⟩ := h
    cases hopen.symm.trans hopen'
    cases hout
    obtain ⟨hgroup, hepoch, hequal⟩ := by simpa only [Prod.mk.injEq] using hcommit
    refine ⟨⟨secret, policy, ?_, hkeys⟩, ⟨_, hhash, ?_⟩, hequal.symm.trans hmac.symm⟩
    · exact mapError_eq_ok.mp (except_seq_eq_ok.mp hpolicy).2
    · rw [← hgroup, ← hepoch]

variable (c commit) in
/-- The derivations that the MAC rests on do not collide on what two parties have. -/
structure NoCollision (x y : Entered) : Prop where
  mac : computeConfirmationMac c x.epochKeys.confirmationKey x.groupContextHash =
      computeConfirmationMac c y.epochKeys.confirmationKey y.groupContextHash →
    x.epochKeys.confirmationKey = y.epochKeys.confirmationKey ∧
      x.groupContextHash = y.groupContextHash
  confirmationKey : x.epochKeys.confirmationKey = y.epochKeys.confirmationKey →
    x.epochKeys.epochSecret = y.epochKeys.epochSecret
  context : ∀ h h', x.tree.treeHash c = .ok h → y.tree.treeHash c = .ok h' →
    computeGroupContextHash c commit.groupId commit.epoch h x.policyBytes =
      computeGroupContextHash c commit.groupId commit.epoch h' y.policyBytes →
    h = h' ∧ x.policyBytes = y.policyBytes

/-- Two parties that entered the epoch of a commit, as its creator, as members or as new members,
have the same keys, context, policy and tree hash. -/
theorem entered_agree {x y : Entered} (hx : Enters c wire commit x) (hy : Enters c wire commit y)
    (h : NoCollision c commit x y) : x.epochKeys = y.epochKeys ∧
      x.groupContextHash = y.groupContextHash ∧ x.policyBytes = y.policyBytes ∧
      x.tree.treeHash c = y.tree.treeHash c := by
  obtain ⟨⟨secret, policy, hpolicy, hkeys⟩, ⟨_, hhash, hcontext⟩, hmac⟩ := hx.confirms
  obtain ⟨⟨secret', policy', hpolicy', hkeys'⟩, ⟨_, hhash', hcontext'⟩, hmac'⟩ := hy.confirms
  obtain ⟨hkey, hequal⟩ := h.mac (hmac.symm.trans hmac')
  obtain ⟨rfl, hbytes⟩ := h.context _ _ hhash hhash' (by rw [← hcontext, ← hcontext', hequal])
  refine ⟨?_, hequal, hbytes, hhash.trans hhash'.symm⟩
  rw [hbytes] at hpolicy
  cases hpolicy.symm.trans hpolicy'
  have hsecret : ∀ {s k}, deriveSubKeysFromEpochSecretEx c s policy.enhancedKeySchedule = .ok k →
      k.epochSecret = s := by
    intro s k hk
    simp only [deriveSubKeysFromEpochSecretEx, except_bind_eq_ok] at hk
    obtain ⟨_, -, _, -, _, -, _, -, hk⟩ := hk
    cases hk
    rfl
  have hsame : secret = secret' := by rw [← hsecret hkeys, ← hsecret hkeys', h.confirmationKey hkey]
  rw [hsame] at hkeys
  exact Except.ok.inj (hkeys.symm.trans hkeys')

theorem sampleExchange_agrees : (do
    let (_, out, t, p, t') ← sampleExchange
    require (out.epochKeys = p.epochKeys ∧ out.groupContextHash = p.groupContextHash ∧
      (t.treeHash .transparent).toOption = (t'.treeHash .transparent).toOption)
      (.groupProtocol "")).toOption.isSome = true := by decide +kernel

/-- The committer of the sample group agrees with the member that processes its commit. -/
theorem entered_agree_sample : ∃ commit x y, Enters .transparent .plain commit x ∧
    Enters .transparent .plain commit y ∧ x.epochKeys = y.epochKeys ∧
      x.groupContextHash = y.groupContextHash ∧ x.policyBytes = y.policyBytes ∧
      x.tree.treeHash .transparent = y.tree.treeHash .transparent := by
  have hrun := eq_ok_get_toOption sampleExchange_agrees
  simp only [sampleExchange, except_bind_eq_ok, onCopy_eq_ok, require_eq_ok] at hrun
  obtain ⟨_, ⟨_, -, _, -, _, -, _, -, _, -, ⟨out, t⟩, hcreate, _, -, ⟨p, t'⟩, hprocess, hr⟩, hkeys,
    hcontext, hhash⟩ := hrun
  cases hr
  refine ⟨_, _, _, .created hcreate, .processed hprocess,
    entered_agree (.created hcreate) (.processed hprocess)
      ⟨fun _ => ⟨congrArg _ hkeys, hcontext⟩, fun _ => congrArg _ hkeys, fun h h' ht ht' _ => ?_⟩⟩
  rw [ht, ht'] at hhash
  exact ⟨Option.some.inj hhash, rfl⟩

end AuraProtocol.Group.Commit
