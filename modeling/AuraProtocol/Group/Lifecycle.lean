import AuraProtocol.Group.Atomic
import AuraProtocol.Lib.Run

/-!
# Runs of a group session

Everything a caller can do with a group session, as one type of actions, with the
restore of an exported state among them.  A run is a list of actions; an action
that fails leaves the state it failed in.

The first result about runs is that a ReInit ends a session: once it is pending
every call is refused (`guarded_error`).  A restore forgets it.
-/

namespace AuraProtocol.Group

open Fallible

namespace GroupSession

/-! ## Actions -/

/-- The calls that encrypt a message. -/
inductive Encrypting where
  | plain (plaintext : Bytes)
  | sealed (plaintext hint : Bytes)
  | disappearing (plaintext : Bytes) (ttlSeconds : ℕ)
  | sealedDisappearing (plaintext hint : Bytes) (ttlSeconds : ℕ)
  | frankable (plaintext : Bytes)
  | withPolicy (plaintext : Bytes) (policy : MessagePolicy)
  | edit (newContent targetMessageId : Bytes)
  | delete (targetMessageId : Bytes)
  | reaction (messageId : Bytes) (emoji : String) (remove : Bool)
  | readReceipt (messageIds : List Bytes) (timestamp : ℕ)
  | typing (isTyping : Bool)

namespace Encrypting

variable (c : Crypto) (wire : Wire)

/-- Makes the call. -/
def run (now : Option ℕ) (entropy : MessageEntropy) : Encrypting → SessionM Bytes
  | plain plaintext => encrypt c wire plaintext now entropy
  | sealed plaintext hint => encryptSealed c wire plaintext hint now entropy
  | disappearing plaintext ttlSeconds => encryptDisappearing c wire plaintext ttlSeconds now entropy
  | sealedDisappearing plaintext hint ttlSeconds =>
    encryptSealedDisappearing c wire plaintext hint ttlSeconds now entropy
  | frankable plaintext => encryptFrankable c wire plaintext now entropy
  | withPolicy plaintext policy => encryptWithPolicy c wire plaintext policy now entropy
  | edit newContent targetMessageId =>
    encryptEdit c wire newContent targetMessageId now entropy
  | delete targetMessageId => encryptDelete c wire targetMessageId now entropy
  | reaction messageId emoji remove => encryptReaction c wire messageId emoji remove now entropy
  | readReceipt messageIds timestamp =>
    encryptReadReceipt c wire messageIds timestamp now entropy
  | typing isTyping => encryptTyping c wire isTyping now entropy

/-- What a call checks before it enters `encrypt_internal`. -/
def check : Encrypting → Except ProtocolError Unit
  | disappearing _ ttlSeconds | sealedDisappearing _ _ ttlSeconds => checkTtl ttlSeconds
  | reaction messageId emoji remove => validateReaction ⟨messageId, emoji, remove⟩
  | readReceipt messageIds timestamp => validateReadReceipt ⟨messageIds, timestamp⟩
  | _ => .ok ()

/-- The content a call passes to `encrypt_internal`. -/
def content : Encrypting → Bytes
  | plain plaintext | disappearing plaintext _ | frankable plaintext => plaintext
  | sealed _ hint | sealedDisappearing _ hint _ => hint
  | withPolicy plaintext policy => if policy.contentType.isSealed then [] else plaintext
  | edit newContent _ => newContent
  | delete _ => []
  | reaction messageId emoji remove => wire.reaction.encode ⟨messageId, emoji, remove⟩
  | readReceipt messageIds timestamp => wire.readReceipt.encode ⟨messageIds, timestamp⟩
  | typing isTyping => wire.typingIndicator.encode ⟨isTyping⟩

/-- The policy a call passes to `encrypt_internal`. -/
def policy : Encrypting → MessagePolicy
  | plain _ => {}
  | sealed _ _ => { contentType := .sealed }
  | disappearing _ ttlSeconds => { contentType := .disappearing, ttlSeconds := ttlSeconds }
  | sealedDisappearing _ _ ttlSeconds =>
    { contentType := .sealedDisappearing, ttlSeconds := ttlSeconds }
  | frankable _ => { frankable := true }
  | withPolicy _ policy => policy
  | edit _ targetMessageId => { contentType := .edit, referencedMessageId := targetMessageId }
  | delete targetMessageId => { contentType := .delete, referencedMessageId := targetMessageId }
  | reaction _ _ _ => { contentType := .reaction }
  | readReceipt _ _ => { contentType := .readReceipt }
  | typing _ => { contentType := .typing }

/-- The plaintext a call passes to `encrypt_internal` to be sealed. -/
def actualPlaintext : Encrypting → Option Bytes
  | sealed plaintext _ | sealedDisappearing plaintext _ _ => some plaintext
  | withPolicy plaintext policy => if policy.contentType.isSealed then some plaintext else none
  | _ => none

variable {c wire}

/-- Every call is a check and then `encrypt_internal`. -/
theorem run_run (call : Encrypting) (now : Option ℕ) (entropy : MessageEntropy) (s : GroupSession) :
    (call.run c wire now entropy).run s =
      (do lift call.check
          encryptInternal c wire (call.content wire) call.policy call.actualPlaintext now
            entropy : SessionM Bytes).run s := by
  cases call with
  | withPolicy plaintext policy =>
    change (encryptWithPolicy c wire plaintext policy now entropy).run s =
      (encryptInternal c wire _ policy _ now entropy).run s
    rw [encryptWithPolicy, content, actualPlaintext]
    split_ifs <;> rfl
  | _ => rfl

end Encrypting

/-- What a caller can do with a group session. -/
inductive Action where
  | encrypt (call : Encrypting) (now : Option ℕ) (entropy : MessageEntropy)
  | encryptWithAutoRotate (plaintext : Bytes) (now : Option ℕ) (path : PathEntropy)
    (entropy : MessageEntropy)
  | rotateEpochIfNeeded (entropy : PathEntropy)
  | decrypt (messageBytes : Bytes) (now : Option ℕ)
  | decryptOpenSealed (messageBytes : Bytes) (now : Option ℕ)
  | commit (call : Committing) (entropy : PathEntropy)
  | processCommit (commitBytes : Bytes)
  | authorizeExternalJoin (joinerIdentityEd25519Public joinerIdentityX25519Public
    joinerCredential : Bytes) (now : Option ℕ)
  | setPskResolver (resolver : PskResolver)
  /-- The state is exported and restored, with the same key and the member's own secret. -/
  | restore (key : Bytes) (externalCounter minExternalCounter : ℕ) (entropy : SealingEntropy)

variable {a : Action}

namespace Action

variable (c : Crypto) (wire : Wire)

/-- Makes the call. -/
def perform : Action → SessionM Unit
  | encrypt call now entropy => discard (call.run c wire now entropy)
  | encryptWithAutoRotate plaintext now path entropy =>
    discard (GroupSession.encryptWithAutoRotate c wire plaintext now path entropy)
  | rotateEpochIfNeeded entropy => discard (GroupSession.rotateEpochIfNeeded c wire entropy)
  | decrypt messageBytes now => discard (GroupSession.decrypt c wire messageBytes now)
  | decryptOpenSealed messageBytes now =>
    discard (GroupSession.decryptOpenSealed c wire messageBytes now)
  | commit call entropy => discard (call.run c wire entropy)
  | processCommit commitBytes => GroupSession.processCommit c wire commitBytes
  | authorizeExternalJoin joinerEd25519 joinerX25519 credential now =>
    discard (reads (GroupSession.authorizeExternalJoin c wire joinerEd25519 joinerX25519 credential
      now))
  | setPskResolver resolver => modify fun s => { s with pskResolver := some resolver }
  | restore key externalCounter minExternalCounter entropy => do
    let sealedData ← reads (exportSealedState c wire key externalCounter entropy)
    let s ← get
    let restored ← lift (fromSealedState c wire sealedData key s.myEd25519Secret.1
      minExternalCounter)
    set restored

/-- The state after an action, whether it succeeds or fails. -/
def exec (s : GroupSession) (a : Action) : GroupSession := endState ((a.perform c wire).run s)

/-- The calls that a pending ReInit must refuse. -/
def isGuarded : Action → Bool
  | rotateEpochIfNeeded _ | setPskResolver _ | restore _ _ _ _ => false
  | _ => true

/-- Whether an action restores an exported state. -/
def isRestore : Action → Bool
  | restore _ _ _ _ => true
  | _ => false

/-- The actions that create or process a ReInit commit. -/
def IsReinit : Action → Prop
  | commit (.createReinitCommit _ _) _ => True
  | processCommit commitBytes =>
    ∃ commit reinit, decodeCommit wire commitBytes = .ok commit ∧
      some (.reInit reinit) ∈ commit.proposals
  | _ => False

end Action

/-- The sessions that a member starts with: those of a creator, and of members who join by a Welcome
or from outside. -/
inductive Initial (c : Crypto) (wire : Wire) : GroupSession → Prop
  | created {identity : IdentityKeys c} {credential : Bytes} {policy : GroupSecurityPolicy}
    {entropy : CreateEntropy} {s : GroupSession} :
    createWithPolicy c wire identity credential policy entropy = .ok s → Initial c wire s
  | welcomed {welcomeBytes x25519Private kyberSecret identityEd25519 identityX25519
    ed25519SecretRaw : Bytes} {s : GroupSession} :
    fromWelcome c wire welcomeBytes x25519Private kyberSecret identityEd25519 identityX25519
      ed25519SecretRaw = .ok s → Initial c wire s
  | joined {publicStateBytes authorizationBytes : Bytes} {identity : IdentityKeys c}
    {credential : Bytes} {now : Option ℕ} {entropy : JoinEntropy} {s : GroupSession}
    {commit : Bytes} :
    fromExternalJoin c wire publicStateBytes authorizationBytes identity credential now entropy =
      .ok (s, commit) → Initial c wire s

/-- The sessions that a member can come to have. -/
inductive Reachable (c : Crypto) (wire : Wire) : GroupSession → Prop
  | initial {s : GroupSession} : Initial c wire s → Reachable c wire s
  | exec {s : GroupSession} (a : Action) : Reachable c wire s → Reachable c wire (a.exec c wire s)

theorem Reachable.of_perform {c : Crypto} {wire : Wire} {s s' : GroupSession} {u : Unit}
    (h : Reachable c wire s) (hrun : (a.perform c wire).run s = .ok u s') :
    Reachable c wire s' := by
  have hexec := h.exec a
  rwa [Action.exec, hrun] at hexec

/-! ## A pending ReInit -/

variable {c : Crypto} {wire : Wire} {s s' : GroupSession}

theorem discard_eq_map {α : Type} (x : SessionM α) : discard x = (fun _ => ()) <$> x := rfl

theorem pendingReinit_of_openHeader {messageBytes : Bytes}
    {header : GroupApplicationMessage × GroupSenderData}
    (h : openHeader c wire s messageBytes = .ok header) : s.pendingReinit = none := by
  simp only [openHeader, except_bind_eq_ok] at h
  obtain ⟨_, -, _, -, _, hpending, -⟩ := h
  exact ensureNoPendingReinit_eq_ok.mp hpending

section Pending

variable (c wire) (h : s.pendingReinit ≠ none)
include h

theorem encryptInternal_pending (content : Bytes) (policy : MessagePolicy)
    (actualPlaintext : Option Bytes) (now : Option ℕ) (entropy : MessageEntropy) :
    ∃ e, (encryptInternal c wire content policy actualPlaintext now entropy).run s =
      .error e s :=
  ⟨_, reads_bind_of_error (require_eq_error.mpr ⟨h, rfl⟩)⟩

theorem encrypting_pending (call : Encrypting) (now : Option ℕ) (entropy : MessageEntropy) :
    ∃ e, (call.run c wire now entropy).run s = .error e s := by
  rw [call.run_run]
  cases call.check with
  | error e => exact ⟨e, lift_bind_of_error rfl s⟩
  | ok _ =>
    rw [lift_bind_of_ok rfl]
    exact encryptInternal_pending c wire h _ _ _ now entropy

theorem committing_pending (call : Committing) (entropy : PathEntropy) :
    ∃ e, (call.run c wire entropy).run s = .error e s := by
  cases hcheck : call.check c s with
  | error e => exact ⟨e, Committing.run_of_check_error hcheck⟩
  | ok _ =>
    refine absurd ?_ h
    cases call <;>
      simp only [Committing.check, except_seq_eq_ok, ensureNoPendingReinit_eq_ok] at hcheck
    · exact hcheck.2.1
    · exact hcheck.1
    · exact hcheck.1
    · exact hcheck.2.1

theorem decrypt_pending (messageBytes : Bytes) (now : Option ℕ) :
    ∃ e, (decrypt c wire messageBytes now).run s = .error e s := by
  cases hheader : openHeader c wire s messageBytes with
  | ok header => exact absurd (pendingReinit_of_openHeader hheader) h
  | error e => exact ⟨e, reads_bind_of_error (g := fun s => openHeader c wire s messageBytes) hheader⟩

theorem rotateEpochIfNeeded_pending (entropy : PathEntropy) :
    (rotateEpochIfNeeded c wire entropy).run s = .ok none s ∨
      ∃ e, (rotateEpochIfNeeded c wire entropy).run s = .error e s := by
  cases hrotate : shouldRotateEpochWithThreshold senderKeyExhaustionWarningPercent s with
  | error e => exact .inr ⟨e, reads_bind_of_error hrotate⟩
  | ok rotate =>
    rw [rotateEpochIfNeeded, reads_bind_of_ok hrotate]
    cases rotate with
    | false => exact .inl rfl
    | true =>
      obtain ⟨e, he⟩ := committing_pending c wire h .update entropy
      exact .inr ⟨e, map_eq_error.mpr (Committing.bind_pure_eq_error he)⟩

/-- Every call but those that only read or set up the session is refused while a ReInit is
pending, and changes nothing. -/
theorem guarded_error (ha : a.isGuarded = true) : ∃ e, (a.perform c wire).run s = .error e s := by
  cases a with
  | encrypt call now entropy =>
    obtain ⟨e, he⟩ := encrypting_pending c wire h call now entropy
    exact ⟨e, map_eq_error.mpr he⟩
  | encryptWithAutoRotate plaintext now path entropy =>
    rcases rotateEpochIfNeeded_pending c wire h path with hrotate | ⟨e, hrotate⟩
    · obtain ⟨e, he⟩ := encryptInternal_pending c wire h plaintext {} none now
        entropy
      exact ⟨e, map_eq_error.mpr ((bind_of_ok hrotate).trans (bind_of_error he))⟩
    · exact ⟨e, map_eq_error.mpr (bind_of_error hrotate)⟩
  | decrypt messageBytes now =>
    obtain ⟨e, he⟩ := decrypt_pending c wire h messageBytes now
    exact ⟨e, map_eq_error.mpr he⟩
  | decryptOpenSealed messageBytes now =>
    obtain ⟨e, he⟩ := decrypt_pending c wire h messageBytes now
    exact ⟨e, map_eq_error.mpr (bind_of_error he)⟩
  | commit call entropy =>
    obtain ⟨e, he⟩ := committing_pending c wire h call entropy
    exact ⟨e, map_eq_error.mpr he⟩
  | processCommit commitBytes =>
    change ∃ e, (GroupSession.processCommit c wire commitBytes).run s = _
    cases hcommit : decodeCommit wire commitBytes with
    | error e => exact ⟨e, lift_bind_of_error hcommit s⟩
    | ok commit =>
      rw [GroupSession.processCommit, lift_bind_of_ok hcommit]
      exact ⟨_, reads_bind_of_error (require_eq_error.mpr ⟨h, rfl⟩)⟩
  | authorizeExternalJoin joinerEd25519 joinerX25519 credential now =>
    cases hauth : GroupSession.authorizeExternalJoin c wire joinerEd25519 joinerX25519 credential
        now s with
    | error e => exact ⟨e, map_eq_error.mpr (reads_eq_error.mpr ⟨hauth, rfl⟩)⟩
    | ok bytes =>
      simp only [GroupSession.authorizeExternalJoin, except_seq_eq_ok,
        ensureNoPendingReinit_eq_ok] at hauth
      exact absurd hauth.2.2.2.1 h
  | rotateEpochIfNeeded _ => cases ha
  | setPskResolver _ => cases ha
  | restore _ _ _ _ => cases ha

/-- While a ReInit is pending nothing but a restore changes that. -/
theorem pendingReinit_exec (ha : a.isRestore = false) : (a.exec c wire s).pendingReinit ≠ none := by
  cases hguard : a.isGuarded with
  | true =>
    obtain ⟨e, he⟩ := guarded_error c wire h hguard
    rw [Action.exec, he]
    exact h
  | false =>
    cases a with
    | rotateEpochIfNeeded entropy =>
      rw [Action.exec, Action.perform, discard_eq_map, endState_map]
      rcases rotateEpochIfNeeded_pending c wire h entropy with hrun | ⟨e, hrun⟩
      all_goals
        rw [hrun]
        exact h
    | setPskResolver resolver => exact h
    | restore _ _ _ _ => cases ha
    | _ => cases hguard

end Pending

theorem keeps_pendingReinit_refreshExternalKeys :
    Keeps (fun s s' => s'.pendingReinit = s.pendingReinit) (refreshExternalKeys c) :=
  .bind (.reads _) fun _ => .modify fun _ => rfl

theorem foldl_noteReinit_ne_none {proposals : List GroupProposal} {pending : Option ReInitInfo}
    (h : pending ≠ none ∨ ∃ reinit, some (.reInit reinit) ∈ proposals) :
    proposals.foldl noteReinit pending ≠ none := by
  induction proposals generalizing pending with
  | nil => exact h.resolve_right fun hmem => by cases hmem.choose_spec
  | cons p rest ih =>
    refine ih ?_
    rcases h with h | ⟨reinit, hmem⟩
    · refine .inl ?_
      unfold noteReinit
      split
      · exact Option.some_ne_none _
      · exact h
    · rcases List.mem_cons.mp hmem with rfl | hmem
      · exact .inl (Option.some_ne_none _)
      · exact .inr ⟨reinit, hmem⟩

theorem pendingReinit_of_createReinitCommit {newGroupId commit : Bytes} {newVersion : ℕ}
    {entropy : PathEntropy}
    (h : (createReinitCommit c wire newGroupId newVersion entropy).run s = .ok commit s') :
    s'.pendingReinit ≠ none := by
  rw [createReinitCommit, lift_bind_eq_ok] at h
  obtain ⟨_, -, h⟩ := h
  rw [reads_bind_eq_ok] at h
  obtain ⟨_, -, h⟩ := h
  obtain ⟨out, s₁, -, h⟩ := bind_eq_ok.mp h
  rw [modify_bind_run, lift_bind_eq_ok] at h
  obtain ⟨reinitGroupId, -, h⟩ := h
  rw [modify_bind_run, bind_eq_ok] at h
  obtain ⟨_, s₂, hrefresh, h⟩ := h
  cases h
  rw [keeps_pendingReinit_refreshExternalKeys.of_ok hrefresh]
  exact Option.some_ne_none _

/-- A ReInit commit, created or processed, is pending. -/
theorem pendingReinit_of_isReinit (ha : a.IsReinit wire) (h : (a.perform c wire).run s = .ok () s') :
    s'.pendingReinit ≠ none := by
  cases a with
  | processCommit commitBytes =>
    obtain ⟨commit, reinit, hdecode, hmem⟩ := ha
    change (GroupSession.processCommit c wire commitBytes).run s = _ at h
    rw [GroupSession.processCommit, lift_bind_of_ok hdecode] at h
    simp only [reads_bind_eq_ok, modify_bind_run] at h
    obtain ⟨-, -, ⟨processed, tree⟩, -, h⟩ := h
    rw [keeps_pendingReinit_refreshExternalKeys.of_ok h]
    exact foldl_noteReinit_ne_none (.inr ⟨reinit, hmem⟩)
  | commit call entropy =>
    cases call with
    | createReinitCommit newGroupId newVersion =>
      rw [Action.perform, discard_eq_map, map_eq_ok] at h
      obtain ⟨_, h, -⟩ := h
      obtain ⟨_, s₁, h, hreturn⟩ := bind_eq_ok.mp h
      cases hreturn
      exact pendingReinit_of_createReinitCommit h
    | _ => cases ha
  | _ => cases ha

/-- Once a ReInit commit has been created or processed every later call is refused, as long as the
session is not restored. -/
theorem reinit_ends_session (s₀ : GroupSession) (before later : List Action) {a : Action}
    (ha : a.IsReinit wire) {s₁ : GroupSession}
    (hok : (a.perform c wire).run (before.foldl (Action.exec c wire) s₀) = .ok () s₁)
    (hlater : ∀ b ∈ later, b.isRestore = false) {b : Action} (hb : b.isGuarded = true) :
    ∃ e s₂, (b.perform c wire).run (later.foldl (Action.exec c wire) s₁) = .error e s₂ := by
  have hpending : (later.foldl (Action.exec c wire) s₁).pendingReinit ≠ none :=
    List.foldlRecOn (motive := fun s : GroupSession ↦ s.pendingReinit ≠ none) later _
      (pendingReinit_of_isReinit ha hok) fun s h b hb ↦ pendingReinit_exec c wire h (hlater b hb)
  obtain ⟨e, he⟩ := guarded_error c wire hpending hb
  exact ⟨e, _, he⟩

/-- A sample of what is drawn for a message. -/
def sampleMessageEntropy (b : UInt8) : MessageEntropy where
  sealedNonce := sampleBytes aesGcmNonceBytes b
  frankingKey := sampleBytes frankingKeyBytes b
  payloadNonce := sampleBytes aesGcmNonceBytes b
  reuseGuard := sampleBytes reuseGuardBytes b
  senderDataNonce := sampleBytes aesGcmNonceBytes b

/-- A sample of what is drawn for a sealed state. -/
def sampleSealingEntropy (b : UInt8) : SealingEntropy where
  dek := sampleBytes 32 b
  dekNonce := sampleBytes aesGcmNonceBytes b
  stateNonce := sampleBytes aesGcmNonceBytes b

/-- The creation of a ReInit commit. -/
def sampleReinit : Action := .commit (.createReinitCommit (sampleBytes 32 9).1 2) (samplePathEntropy 7)

/-- The restore of a session. -/
def sampleRestore : Action := .restore (sampleBytes 32 8).1 1 1 (sampleSealingEntropy 6)

/-- The encryption of a message. -/
def sampleEncrypt : Action := .encrypt (.plain [1, 2, 3]) (some 1000) (sampleMessageEntropy 5)

theorem reinit_ends_session_sample :
    ∃ s₁, (sampleReinit.perform Crypto.transparent Wire.plain).run sampleCreated = .ok () s₁ ∧
      ∃ e s₂, (sampleEncrypt.perform Crypto.transparent Wire.plain).run s₁ = .error e s₂ := by
  have hsome : (onCopy (sampleReinit.perform .transparent Wire.plain)
      sampleCreated).toOption.isSome = true := by decide +kernel
  obtain ⟨r, hr⟩ := Option.isSome_iff_exists.mp hsome
  have hrun := onCopy_eq_ok.mp (toOption_eq_some.mp hr)
  have hended : ∀ s₀ s₁ : GroupSession,
      (sampleReinit.perform .transparent Wire.plain).run s₀ = .ok () s₁ →
        ∃ e s₂, (sampleEncrypt.perform .transparent Wire.plain).run s₁ = .error e s₂ :=
    fun s₀ s₁ h ↦ reinit_ends_session s₀ [] [] (a := sampleReinit) trivial h
      (List.forall_mem_nil _) (b := sampleEncrypt) rfl
  exact ⟨r.2, hrun, hended _ _ hrun⟩

/-- The three actions one after the other. -/
def sampleForgotten : Except ProtocolError Unit := do
  let (_, s₁) ← onCopy (sampleReinit.perform Crypto.transparent Wire.plain) sampleCreated
  let (_, s₂) ← onCopy (sampleRestore.perform Crypto.transparent Wire.plain) s₁
  let (_, _) ← onCopy (sampleEncrypt.perform Crypto.transparent Wire.plain) s₂

theorem sampleForgotten_isSome : sampleForgotten.toOption.isSome = true := by decide +kernel

/-- A restored session has forgotten its ReInit: it encrypts again. -/
theorem reinit_forgotten :
    ∃ s₁ s₂ s₃, sampleReinit.IsReinit Wire.plain ∧ sampleEncrypt.isGuarded = true ∧
      (sampleReinit.perform Crypto.transparent Wire.plain).run sampleCreated = .ok () s₁ ∧
      (sampleRestore.perform Crypto.transparent Wire.plain).run s₁ = .ok () s₂ ∧
      (sampleEncrypt.perform Crypto.transparent Wire.plain).run s₂ = .ok () s₃ := by
  obtain ⟨_, h⟩ := Option.isSome_iff_exists.mp sampleForgotten_isSome
  rw [toOption_eq_some] at h
  simp only [sampleForgotten, except_bind_eq_ok, onCopy_eq_ok] at h
  obtain ⟨r₁, h₁, r₂, h₂, r₃, h₃, -⟩ := h
  exact ⟨r₁.2, r₂.2, r₃.2, trivial, rfl, h₁, h₂, h₃⟩

end GroupSession

end AuraProtocol.Group
