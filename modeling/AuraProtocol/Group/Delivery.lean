import AuraProtocol.Group.Lifecycle
import AuraProtocol.Group.Store

/-!
# No message is delivered twice

A message is named by its epoch, its sender and its generation.  When `decrypt`
succeeds the key of the generation is spent, and nothing in a run brings it back as
long as the epoch stays: a restore keeps the chains and drops the skipped keys.
And an epoch that was left does not return.
-/

namespace AuraProtocol.Group

open Fallible SenderKeyStore

variable {α : Type} {proposals : List GroupProposal} {entropy : PathEntropy}

namespace GroupSession

variable {c : Crypto} {wire : Wire} {s s' s₁ : GroupSession}

/-! ## What every action keeps -/

/-- What every action keeps of the sender keys: they stay well-formed, and either the epoch grows or
spent keys stay spent. -/
def Progress (s s' : GroupSession) : Prop :=
  s.senderStore.Wf s.securityPolicy → s'.senderStore.Wf s'.securityPolicy ∧
    (s.epoch < s'.epoch ∨
      s'.epoch = s.epoch ∧ ∀ i g, s.senderStore.Spent i g → s'.senderStore.Spent i g)

instance : IsPreorder GroupSession Progress where
  refl _ h := ⟨h, .inr ⟨rfl, fun _ _ h => h⟩⟩
  trans _ _ _ h h' hwf := by
    obtain ⟨hwf₂, h⟩ := h hwf
    obtain ⟨hwf₃, h'⟩ := h' hwf₂
    refine ⟨hwf₃, ?_⟩
    rcases h with h | ⟨heq, h⟩
    · rcases h' with h' | ⟨heq', -⟩
      · exact .inl (h.trans h')
      · exact .inl (heq'.symm ▸ h)
    · rcases h' with h' | ⟨heq', h'⟩
      · exact .inl (heq ▸ h')
      · exact .inr ⟨heq'.trans heq, fun i g hg => h' i g (h i g hg)⟩

/-- An update of anything but the epoch, the policy and the sender keys. -/
theorem Progress.of_eq (hepoch : s'.epoch = s.epoch) (hpolicy : s'.securityPolicy = s.securityPolicy)
    (hstore : s'.senderStore = s.senderStore) : Progress s s' := by
  intro hwf
  rw [hpolicy, hstore]
  exact ⟨hwf, .inr ⟨hepoch, fun _ _ h => h⟩⟩

theorem keeps_onStore {x : StoreM α} (hx : ∀ policy, Keeps (SenderKeyStore.Advances policy) x) :
    Keeps Progress (onStore x) := by
  intro s hwf
  obtain ⟨hwf', hspent⟩ := hx s.securityPolicy s.senderStore hwf
  rw [onStore, endState_zoom]
  exact ⟨hwf', .inr ⟨rfl, hspent⟩⟩

theorem progress_encryptInternal (content : Bytes) (policy : MessagePolicy)
    (actualPlaintext : Option Bytes) (now : Option ℕ) (entropy : MessageEntropy) :
    Keeps Progress (encryptInternal c wire content policy actualPlaintext now entropy) :=
  keeps_encryptInternal
    (fun i => keeps_onStore fun policy => keeps_nextOwnMessageKey policy i)
    (fun _ _ => .of_eq rfl rfl rfl) content policy actualPlaintext now entropy

theorem keeps_encrypting (call : Encrypting) (now : Option ℕ) (entropy : MessageEntropy) :
    Keeps Progress (call.run c wire now entropy) := by
  intro s
  rw [call.run_run]
  exact Keeps.bind (.lift _) (fun _ => progress_encryptInternal _ _ _ now entropy) s

theorem progress_decrypt (messageBytes : Bytes) (now : Option ℕ) :
    Keeps Progress (decrypt c wire messageBytes now) :=
  keeps_decrypt
    (fun i g => keeps_onStore fun policy => keeps_getMessageKey policy i g)
    (fun _ _ _ => .of_eq rfl rfl rfl) messageBytes now

theorem keeps_decryptOpenSealed (messageBytes : Bytes) (now : Option ℕ) :
    Keeps Progress (decryptOpenSealed c wire messageBytes now) := by
  refine .bind (progress_decrypt messageBytes now) fun result => ?_
  split
  · exact .bind (.lift _) fun _ => .pure _
  · exact .pure _

theorem keeps_progress_refreshExternalKeys : Keeps Progress (refreshExternalKeys c) :=
  .bind (.reads _) fun _ => .modify fun _ => .of_eq rfl rfl rfl

/-- A new commit leads to a later epoch with new sender keys. -/
theorem progress_enterEpoch {out : CommitOutput}
    (h : (commitOwn c wire proposals entropy).run s = .ok out s₁) :
    Progress s (s₁.enterEpoch out.commit.epoch out.epochKeys out.newSenderStore
      out.groupContextHash) := by
  obtain ⟨t, hcreate, rfl⟩ := commitOwn_eq_ok.mp h
  obtain ⟨-, -, hepoch, hstore⟩ := Commit.createCommit_eq_ok hcreate
  exact fun _ => ⟨(wf_newSenderStore hstore).1, .inl (hepoch ▸ Nat.lt_succ_self _)⟩

theorem keeps_commitOwn (proposals : List GroupProposal) (entropy : PathEntropy) :
    Keeps Progress (commitOwn c wire proposals entropy) := by
  intro s
  rw [commitOwn, get_bind_run, endState_zoom]
  exact .of_eq rfl rfl rfl

/-- Reading between two steps. -/
theorem progress_bind_of_reads {β : Type} {x : SessionM α} {f : α → SessionM β} (hx : Keeps Eq x)
    (h : Progress s s₁) (hf : ∀ a, Progress s (endState ((f a).run s₁))) :
    Progress s (endState ((x >>= f).run s₁)) := by
  cases hrun : x.run s₁ with
  | ok a s₂ =>
    obtain rfl : s₁ = s₂ := hx.of_ok hrun
    rw [bind_of_ok hrun]
    exact hf a
  | error e s₂ =>
    obtain rfl : s₁ = s₂ := hx.of_error hrun
    rw [bind_of_error hrun]
    exact h

/-- What follows the creation of a commit, in the calls that only enter its epoch. -/
theorem keeps_commitOwn_bind {k : CommitOutput → SessionM α} (hk : ∀ out, Keeps Progress (k out)) :
    Keeps Progress (do
      let out ← commitOwn c wire proposals entropy
      modify (·.enterEpoch out.commit.epoch out.epochKeys out.newSenderStore out.groupContextHash)
      k out) := by
  refine .bind_ok (keeps_commitOwn proposals entropy) fun s out s₁ h => ?_
  rw [modify_bind_run]
  exact IsTrans.trans _ _ _ (progress_enterEpoch h) (hk out _)

theorem keeps_refreshExternalKeys_pure (a : α) : Keeps Progress (do
    refreshExternalKeys c
    return a : SessionM α) :=
  .bind keeps_progress_refreshExternalKeys fun _ => .pure _

theorem keeps_update (entropy : PathEntropy) : Keeps Progress (update c wire entropy) :=
  .bind (.reads _) fun _ => keeps_commitOwn_bind fun _ =>
    keeps_refreshExternalKeys_pure _

theorem keeps_committing (call : Committing) (entropy : PathEntropy) :
    Keeps Progress (call.run c wire entropy) := by
  cases call with
  | addMember keyPackage welcomeEntropy =>
    refine .bind ?_ fun _ => .pure _
    refine .bind (.lift _) fun _ => .bind (.reads _) fun _ => ?_
    refine .bind_ok (keeps_commitOwn _ entropy) fun s out s₁ h => ?_
    have hcommit : Progress s s₁ := (keeps_commitOwn _ entropy).of_ok h
    refine progress_bind_of_reads (.lift _) hcommit fun newLeafIdx => ?_
    refine progress_bind_of_reads (.reads _) hcommit fun welcome => ?_
    rw [modify_bind_run]
    exact IsTrans.trans _ _ _ (progress_enterEpoch h) (keeps_refreshExternalKeys_pure _ _)
  | removeMember removedLeafIdx =>
    refine .bind ?_ fun _ => .pure _
    exact .bind (.reads _) fun _ => keeps_commitOwn_bind fun out =>
      keeps_refreshExternalKeys_pure _
  | update => exact .bind (keeps_update entropy) fun _ => .pure _
  | createReinitCommit newGroupId newVersion =>
    refine .bind ?_ fun _ => .pure _
    refine .bind (.lift _) fun _ => .bind (.reads _) fun _ => ?_
    refine keeps_commitOwn_bind fun out => .bind (.lift _) fun _ => ?_
    exact .bind (.modify fun _ => .of_eq rfl rfl rfl) fun _ => keeps_refreshExternalKeys_pure _

theorem keeps_rotateEpochIfNeeded (entropy : PathEntropy) :
    Keeps Progress (rotateEpochIfNeeded c wire entropy) := by
  refine .bind (.reads _) fun rotate => ?_
  split_ifs
  · exact (keeps_update entropy).map _
  · exact .pure _

theorem keeps_processCommit (commitBytes : Bytes) :
    Keeps Progress (processCommit c wire commitBytes) := by
  refine .bind (.lift _) fun commit => ?_
  refine .bind (.reads _) fun _ => ?_
  refine .bind_ok (.reads _) fun s processed s' h => ?_
  obtain ⟨hcopy, rfl⟩ := reads_eq_ok.mp h
  obtain ⟨-, hepoch, hstore⟩ := Commit.processCommit_eq_ok (onCopy_eq_ok.mp hcopy)
  simp only [modify_bind_run]
  refine IsTrans.trans _ _ _ (fun _ => ?_) (keeps_progress_refreshExternalKeys _)
  exact ⟨(wf_newSenderStore hstore).1, .inl (hepoch ▸ Nat.lt_succ_self _)⟩

/-- A restored session has the epoch and the chains of the exported one, and no skipped keys. -/
theorem progress_restore (hc : c.Correct) {key sealedData secret : Bytes} {counter minCounter : ℕ}
    {entropy : SealingEntropy}
    (hexport : exportSealedState c wire key counter entropy s = .ok sealedData)
    (hrestore : fromSealedState c wire sealedData key secret minCounter = .ok s') :
    Progress s s' := by
  intro hwf
  obtain ⟨hepoch, hpolicy, hstore⟩ := fromSealedState_export hc hwf hexport hrestore
  rw [hpolicy, hstore]
  exact ⟨hwf.of_skipped fun _ _ h => (by cases h), .inr ⟨hepoch, fun i g h => ⟨rfl, h.2⟩⟩⟩

/-- Every action keeps the sender keys well-formed; it leads to a later epoch or leaves spent keys
spent. -/
theorem keeps_perform (hc : c.Correct) (a : Action) : Keeps Progress (a.perform c wire) := by
  cases a with
  | encrypt call now entropy => exact (keeps_encrypting call now entropy).map _
  | encryptWithAutoRotate plaintext now path entropy =>
    refine Keeps.map (.bind (keeps_rotateEpochIfNeeded path) fun _ => ?_) _
    exact .bind (progress_encryptInternal plaintext {} none now entropy) fun _ => .pure _
  | rotateEpochIfNeeded entropy => exact (keeps_rotateEpochIfNeeded entropy).map _
  | decrypt messageBytes now => exact (progress_decrypt messageBytes now).map _
  | decryptOpenSealed messageBytes now => exact (keeps_decryptOpenSealed messageBytes now).map _
  | commit call entropy => exact (keeps_committing call entropy).map _
  | processCommit commitBytes => exact keeps_processCommit commitBytes
  | authorizeExternalJoin _ _ _ _ => exact (Keeps.reads _).map _
  | setPskResolver resolver => exact .modify fun _ => .of_eq rfl rfl rfl
  | restore key counter minCounter entropy =>
    refine .bind_ok (.reads _) fun s sealedData s' h => ?_
    obtain ⟨hexport, rfl⟩ := reads_eq_ok.mp h
    rw [get_bind_run]
    cases hrestore : fromSealedState c wire sealedData key s'.myEd25519Secret.1 minCounter with
    | error e =>
      rw [lift_bind_of_error rfl]
      exact refl s'
    | ok restored => exact progress_restore hc hexport hrestore

/-- Every session starts with well-formed sender keys. -/
theorem Initial.wf (h : Initial c wire s) : s.senderStore.Wf s.securityPolicy := by
  cases h with
  | created h =>
    simp only [createWithPolicy, except_bind_eq_ok] at h
    obtain ⟨_, -, _, -, _, -, _, -, _, -, _, -, store, hstore, _, -, hs⟩ := h
    cases hs
    exact (wf_newSenderStore hstore).1
  | welcomed h =>
    simp only [fromWelcome, except_bind_eq_ok] at h
    obtain ⟨_, -, _, -, welcome, -, result, hresult, policy, hpolicy, _, -, _, -, hs⟩ := h
    cases hs
    simp only [Welcome.processWelcome, except_bind_eq_ok] at hresult
    obtain ⟨_, -, _, -, _, -, _, -, policy', hpolicy', _, -, _, -, _, -, _, -, store, hstore,
      hresult⟩ := hresult
    cases hresult
    cases hpolicy.symm.trans hpolicy'
    exact (wf_newSenderStore hstore).1
  | joined h =>
    simp only [fromExternalJoin, except_bind_eq_ok] at h
    obtain ⟨_, -, publicState, -, _, -, _, -, _, -, ⟨out, tree⟩, hcreate, _, -, _, -, hs⟩ := h
    cases hs
    obtain ⟨-, -, -, hstore⟩ := Commit.createCommit_eq_ok (onCopy_eq_ok.mp hcreate)
    exact (wf_newSenderStore hstore).1

theorem Reachable.wf (hc : c.Correct) (h : Reachable c wire s) :
    s.senderStore.Wf s.securityPolicy := by
  induction h with
  | initial h => exact h.wf
  | exec a _ ih => exact (keeps_perform hc a _ ih).1

/-! ## Deliveries -/

/-- A message: its epoch, the leaf of its sender and its generation. -/
abbrev MessageName := ℕ × ℕ × UInt32

variable {m : MessageName}

variable (c wire) in
/-- The message that an action delivers. -/
def delivered (s : GroupSession) : Action → Option MessageName
  | .decrypt messageBytes now | .decryptOpenSealed messageBytes now =>
    match (decrypt c wire messageBytes now).run s with
    | .ok result _ => some (s.epoch, result.senderLeafIndex, result.generation)
    | .error _ _ => none
  | _ => none

variable (c wire) in
/-- The messages that a run delivers. -/
def deliveries : GroupSession → List Action → List MessageName
  | _, [] => []
  | s, a :: later =>
    (delivered c wire s a).toList ++ deliveries (a.exec c wire s) later

/-- A message that cannot be delivered any more. -/
def Gone (s : GroupSession) (m : MessageName) : Prop :=
  m.1 < s.epoch ∨ m.1 = s.epoch ∧ s.senderStore.Spent m.2.1 m.2.2.toNat

theorem Progress.gone (h : Progress s s') (hwf : s.senderStore.Wf s.securityPolicy) (hm : Gone s m) :
    Gone s' m := by
  rcases (h hwf).2 with hlt | ⟨heq, hspent⟩
  · rcases hm with hm | ⟨hm, -⟩
    · exact .inl (hm.trans hlt)
    · exact .inl (hm ▸ hlt)
  · rcases hm with hm | ⟨hm, hm'⟩
    · exact .inl (heq.symm ▸ hm)
    · exact .inr ⟨hm.trans heq.symm, hspent _ _ hm'⟩

/-- Opening the seal of a message comes after its decryption and does not touch the session. -/
theorem exec_decryptOpenSealed (messageBytes : Bytes) (now : Option ℕ) :
    Action.exec c wire s (.decryptOpenSealed messageBytes now) =
      endState ((decrypt c wire messageBytes now).run s) := by
  rw [Action.exec, Action.perform, discard_eq_map, endState_map, decryptOpenSealed]
  cases h : (decrypt c wire messageBytes now).run s with
  | error e s₁ => rw [bind_of_error h]
  | ok result s₁ =>
    rw [bind_of_ok h]
    cases result.sealedPayload with
    | none => rfl
    | some payload =>
      change endState ((lift (revealSealed c payload) >>= _).run s₁) = s₁
      cases hreveal : revealSealed c payload with
      | error e => rw [lift_bind_of_error rfl, endState_error]
      | ok plaintext =>
        rw [lift_bind_of_ok rfl]
        rfl

/-- The call of `decrypt` that delivers a message. -/
theorem exists_decrypt_of_delivered (h : delivered c wire s a = some m) :
    ∃ messageBytes now result, (decrypt c wire messageBytes now).run s =
        .ok result (a.exec c wire s) ∧
      m = (s.epoch, result.senderLeafIndex, result.generation) := by
  have hcall : ∃ messageBytes now, a.exec c wire s =
        endState ((decrypt c wire messageBytes now).run s) ∧
      (match (decrypt c wire messageBytes now).run s with
        | .ok result _ => some (s.epoch, result.senderLeafIndex, result.generation)
        | .error _ _ => none) = some m := by
    cases a with
    | decrypt messageBytes now =>
      refine ⟨messageBytes, now, ?_, h⟩
      rw [Action.exec, Action.perform, discard_eq_map, endState_map]
    | decryptOpenSealed messageBytes now =>
      exact ⟨messageBytes, now, exec_decryptOpenSealed messageBytes now, h⟩
    | _ => cases h
  obtain ⟨messageBytes, now, hexec, hm⟩ := hcall
  rw [hexec]
  cases hrun : (decrypt c wire messageBytes now).run s with
  | ok result s₁ =>
    rw [hrun] at hm
    cases hm
    exact ⟨messageBytes, now, result, hrun, rfl⟩
  | error e s₁ =>
    rw [hrun] at hm
    cases hm

theorem not_gone_of_delivered (h : delivered c wire s a = some m) : ¬ Gone s m := by
  obtain ⟨_, _, result, hrun, rfl⟩ := exists_decrypt_of_delivered h
  obtain ⟨appMsg, senderData, key, store, -, -, hkey, hpayload, -⟩ := decrypt_eq_ok hrun
  obtain ⟨hleaf, hgen⟩ := openPayload_eq_ok hpayload
  rintro (hlt | ⟨-, hspent⟩)
  · exact lt_irrefl _ hlt
  · rw [hleaf, hgen] at hspent
    exact not_spent_of_getMessageKey hkey hspent

theorem gone_of_delivered (hwf : s.senderStore.Wf s.securityPolicy)
    (h : delivered c wire s a = some m) : Gone (a.exec c wire s) m := by
  obtain ⟨_, _, result, hrun, rfl⟩ := exists_decrypt_of_delivered h
  obtain ⟨appMsg, senderData, key, store, -, -, hkey, hpayload, hstate⟩ := decrypt_eq_ok hrun
  obtain ⟨hleaf, hgen⟩ := openPayload_eq_ok hpayload
  refine .inr ⟨by rw [hstate]; rfl, ?_⟩
  rw [hstate, hleaf, hgen]
  exact spent_of_getMessageKey hwf hkey

/-- What is gone is not delivered in any run. -/
theorem not_mem_deliveries (hc : c.Correct) {l : List Action}
    (hwf : s.senderStore.Wf s.securityPolicy) (hm : Gone s m) : m ∉ deliveries c wire s l := by
  induction l generalizing s with
  | nil => exact List.not_mem_nil
  | cons a later ih =>
    have hstep : Progress s (a.exec c wire s) := keeps_perform hc a s
    rw [deliveries, List.mem_append, not_or]
    refine ⟨fun hmem => ?_, ih (hstep hwf).1 (hstep.gone hwf hm)⟩
    exact not_gone_of_delivered (Option.mem_toList.mp hmem) hm

end GroupSession

end AuraProtocol.Group
