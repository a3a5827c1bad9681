import AuraProtocol.Lib.Run
import AuraProtocol.Voip.Delivery

/-!
# Rekeys in flight

`initiate_rekey` keeps the keys of its offer in the session until `process_rekey_ack` takes
them; while they are there no other rekey can be started.  The offer is for the generation
after the one the session has, so it is of use only until the generation moves.

`process_rekey` moves the generation and leaves a pending offer where it is, and so does
`apply_rekey`.  `timely_iff` says that this is the only way an offer gets stale, and
`glare_leaves_stale_offers` that two honest peers that rekey at the same time both end up with
one: neither can use it, and neither can start another rekey.
-/

namespace AuraProtocol.Voip

open Fallible

variable {c : Crypto} {w : Wire} {e : ProtocolError}

/-- A session after an action. -/
def VoipSession.after (c : Crypto) (w : Wire) (s : VoipSession) (a : Action) : VoipSession :=
  ((CallRun.start s).step c w a).session

/-- The generation in the message that an `initiate_rekey` sends. -/
def announcedBy (c : Crypto) (w : Wire) (s : VoipSession) : Action → Option ℕ
  | .initiateRekey secret peerKyberPublic ephSecret kemRandom =>
    match (initiateRekey c w secret peerKyberPublic ephSecret kemRandom).run s with
    | .ok message _ => (w.rekey.decode message).toOption.map (·.rekeyGeneration)
    | .error _ _ => none
  | _ => none

/-- A session with the generation that its last offer was for. -/
structure RekeyRun where
  session : VoipSession
  announced : ℕ

namespace RekeyRun

/-- A run of a session that has not offered anything. -/
def start (s : VoipSession) : RekeyRun := ⟨s, 0⟩

/-- One step of a run. -/
def step (c : Crypto) (w : Wire) (r : RekeyRun) (a : Action) : RekeyRun :=
  ⟨r.session.after c w a, (announcedBy c w r.session a).getD r.announced⟩

/-- A pending offer is for the next generation. -/
def Timely (r : RekeyRun) : Prop :=
  r.session.pendingRekey.isSome = true → r.announced = r.session.ratchetGeneration + 1

end RekeyRun

/-- The action does not move the generation under a pending offer. -/
def Undisturbed (c : Crypto) (w : Wire) (s : VoipSession) : Action → Prop
  | .processRekey rekeyBytes peerPublic kyberSecret peerKyberPublic secret ephSecret kemRandom =>
    (outcome ((processRekey c w rekeyBytes peerPublic kyberSecret peerKyberPublic secret ephSecret
      kemRandom).run s)).isOk = true → s.pendingRekey = none
  | .applyRekey newKeys => (outcome ((applyRekey newKeys).run s)).isOk = true → s.pendingRekey = none
  | _ => True

/-! ## What a step does to an offer -/

/-- Pending offer and generation are the same. -/
def SameOffer (s s' : VoipSession) : Prop :=
  s'.pendingRekey = s.pendingRekey ∧ s'.ratchetGeneration = s.ratchetGeneration

theorem SameOffer.refl (s : VoipSession) : SameOffer s s := ⟨rfl, rfl⟩

section Steps

variable {s s' : VoipSession} {secret peerKyberPublic kemRandom message rekeyBytes peerPublic
  kyberSecret : Bytes} {ephSecret : Key}

theorem after_encryptFrame (header : FrameHeader) (payload : Bytes) :
    s.after c w (.encryptFrame header payload) =
      endState ((encryptFrame c header payload).run s) := by
  rw [VoipSession.after, CallRun.step, CallRun.start]
  cases (encryptFrame c header payload).run s <;> rfl

theorem after_decryptFrame (frame : EncryptedFrame) :
    s.after c w (.decryptFrame frame) = endState ((decryptFrame c frame).run s) := by
  rw [VoipSession.after, CallRun.step, CallRun.start]
  cases (decryptFrame c frame).run s <;> rfl

theorem after_processRekeyAck (ackBytes peerPublic kyberSecret : Bytes) :
    s.after c w (.processRekeyAck ackBytes peerPublic kyberSecret) =
      endState ((processRekeyAck c w ackBytes peerPublic kyberSecret).run s) := rfl

theorem sameOffer_of_encryptFrame (header : FrameHeader) (payload : Bytes) :
    Keeps SameOffer (encryptFrame c header payload) := by
  have hadvance : ∀ {s s' : VoipSession}, (advanceIfDue c).run s = .ok () s' → SameOffer s s' := by
    intro s s' h
    rcases advanceIfDue_eq_ok.mp h with ⟨-, rfl⟩ | ⟨-, r, -, rfl⟩ <;> exact ⟨rfl, rfl⟩
  intro s
  cases hrun : (encryptFrame c header payload).run s with
  | ok frame s' =>
    obtain ⟨-, s₁, h, -, rfl⟩ := encryptFrame_eq_ok.mp hrun
    obtain ⟨hpending, hgeneration⟩ := hadvance h
    exact ⟨hpending, hgeneration⟩
  | error e s' =>
    rcases state_of_encryptFrame_error hrun with rfl | ⟨-, h, -⟩
    · exact .refl _
    · exact hadvance h

theorem sameOffer_of_decryptFrame (frame : EncryptedFrame) :
    Keeps SameOffer (decryptFrame c frame) := by
  intro s
  cases hrun : (decryptFrame c frame).run s with
  | ok out s' =>
    obtain ⟨-, -, opened, -, -, rfl⟩ := decryptFrame_eq_ok.mp hrun
    exact ⟨rfl, rfl⟩
  | error e s' =>
    rcases state_of_decryptFrame_error hrun with rfl | rfl <;> exact ⟨rfl, rfl⟩

/-- An offer is for the next generation. -/
theorem offerRekey_eq_ok {init : CallInitOutput}
    (h : offerRekey c w secret peerKyberPublic ephSecret kemRandom s = .ok (init, message)) :
    ∃ rekey, message = w.rekey.encode rekey ∧
      rekey.rekeyGeneration = s.ratchetGeneration + 1 := by
  simp only [offerRekey, rekeyInitiate, except_bind_eq_ok, Except.ok.injEq, Prod.mk.injEq] at h
  obtain ⟨-, -, -, -, ⟨init', newGen⟩, ⟨-, -, kem, -, signature, -, -, rfl⟩, -, rfl⟩ := h
  exact ⟨_, rfl, rfl⟩

/-- An answered rekey leads an active call to the next generation. -/
theorem answerRekey_generation {ack : Bytes} {newKeys : CallKeyMaterial} {generation : ℕ}
    (h : answerRekey c w rekeyBytes peerPublic kyberSecret peerKyberPublic secret ephSecret kemRandom
      s = .ok (ack, newKeys, generation)) :
    s.state = .active ∧ generation = s.ratchetGeneration + 1 := by
  simp only [answerRekey, expectedGeneration, except_bind_eq_ok, require_eq_ok, Except.ok.injEq,
    Prod.mk.injEq] at h
  obtain ⟨-, hactive, -, -, rekey, -, -, -, _, ⟨-, -, rfl⟩, -, hgeneration, -, -, _, -, -, -, _, -, _,
    -, _, -, -, -, rfl⟩ := h
  exact ⟨hactive, hgeneration⟩

/-- A failing `process_rekey` changes nothing. -/
theorem state_of_processRekey_error
    (h : (processRekey c w rekeyBytes peerPublic kyberSecret peerKyberPublic secret ephSecret
      kemRandom).run s = .error e s') : s' = s :=
  state_of_reads_bind_error (fun _ _ => ⟨_, _, rfl⟩) h

theorem state_of_processRekeyAck_error {ackBytes : Bytes}
    (h : (processRekeyAck c w ackBytes peerPublic kyberSecret).run s = .error e s') : s' = s :=
  state_of_reads_bind_error (fun _ _ => ⟨_, _, rfl⟩) h

theorem state_of_initiateRekey_error
    (h : (initiateRekey c w secret peerKyberPublic ephSecret kemRandom).run s = .error e s') :
    s' = s := state_of_reads_bind_error (fun _ _ => ⟨_, _, rfl⟩) h

theorem applyRekey_of_active (h : s.state = .active) (newKeys : CallKeyMaterial) :
    (applyRekey newKeys).run s = .ok () (s.install newKeys (s.ratchetGeneration + 1)) := by
  rw [applyRekey]
  exact reads_bind_of_ok (a := ()) (require_eq_ok.mpr h)

theorem applyRekey_of_inactive (h : s.state ≠ .active) (newKeys : CallKeyMaterial) :
    (applyRekey newKeys).run s = .error (.voipCall "cannot rekey: call not active") s := by
  rw [applyRekey]
  exact reads_bind_of_error (require_eq_error.mpr ⟨h, rfl⟩)

/-- A restored session has no offer. -/
theorem pendingRekey_of_fromState {state : VoipSessionState} {now : ℕ}
    (h : fromState c now state = .ok s) : s.pendingRekey = none := by
  rw [fromState, except_bind_eq_ok] at h
  obtain ⟨callId, -, h⟩ := h
  obtain ⟨role, -, h⟩ := except_bind_eq_ok.mp h
  split_ifs at h with hroot
  simp only [except_bind_eq_ok, Except.ok.injEq] at h
  obtain ⟨send, -, recv, -, window, -, -, -, -, -, -, -, -, -, -, -, rfl⟩ := h
  rfl

theorem pendingRekey_of_fromSealedState {data stateKey : Bytes} {minExternalCounter : UInt64}
    {now : ℕ} (h : fromSealedState c w data stateKey minExternalCounter now = .ok s) :
    s.pendingRekey = none := by
  simp only [fromSealedState, except_bind_eq_ok] at h
  obtain ⟨-, -, -, -, -, -, -, -, -, -, stateBytes, -, state, -, -, -, -, -, h⟩ := h
  exact pendingRekey_of_fromState h

theorem reload_pendingRekey (stateKey : Bytes) (externalCounter minExternalCounter : UInt64)
    (nonce : SealNonce) (now : ℕ) (s : VoipSession) :
    reload c w stateKey externalCounter minExternalCounter nonce now s = s ∨
      (reload c w stateKey externalCounter minExternalCounter nonce now s).pendingRekey = none := by
  rw [reload]
  cases exportSealedState c w stateKey externalCounter nonce s with
  | error e => exact .inl rfl
  | ok data =>
    cases hrestore : fromSealedState c w data stateKey minExternalCounter now with
    | error e =>
      simp only [hrestore]
      exact .inl trivial
    | ok s' =>
      simp only [hrestore]
      exact .inr (pendingRekey_of_fromSealedState hrestore)

end Steps

namespace RekeyRun

variable {r : RekeyRun} {a : Action}

/-- An action that changes neither offer nor generation and announces nothing. -/
theorem Timely.of_same (h : r.Timely) (hsame : SameOffer r.session (r.session.after c w a))
    (hnone : announcedBy c w r.session a = none) : (r.step c w a).Timely := by
  intro hpending
  rw [step, hsame.1] at hpending
  rw [step, hnone, hsame.2]
  exact h hpending

/-- An action that changes nothing and announces nothing. -/
theorem Timely.of_eq (h : r.Timely) (hsame : r.session.after c w a = r.session)
    (hnone : announcedBy c w r.session a = none) : (r.step c w a).Timely :=
  h.of_same (by rw [hsame]; exact .refl _) hnone

theorem timely_of_no_offer (hpending : (r.step c w a).session.pendingRekey = none) :
    (r.step c w a).Timely := by
  intro h
  rw [hpending] at h
  cases h

/-- An action that moves the generation by one and leaves the offer keeps the offer timely exactly
if there is none. -/
theorem timely_iff_of_advance (h : r.Timely)
    (hpending : (r.session.after c w a).pendingRekey = r.session.pendingRekey)
    (hgeneration : (r.session.after c w a).ratchetGeneration = r.session.ratchetGeneration + 1)
    (hnone : announcedBy c w r.session a = none) :
    (r.step c w a).Timely ↔ r.session.pendingRekey = none := by
  constructor
  · intro hstep
    by_contra hsome
    have hold := h (Option.isSome_iff_ne_none.mpr hsome)
    have hnew := hstep (by rw [step, hpending]; exact Option.isSome_iff_ne_none.mpr hsome)
    rw [step, hnone, hgeneration] at hnew
    change r.announced = _ at hnew
    omega
  · intro hno
    exact timely_of_no_offer (hpending.trans hno)

theorem timely_step_initiateRekey (h : r.Timely) (secret peerKyberPublic : Bytes) (ephSecret : Key)
    (kemRandom : Bytes) :
    (r.step c w (.initiateRekey secret peerKyberPublic ephSecret kemRandom)).Timely := by
  cases hrun : (initiateRekey c w secret peerKyberPublic ephSecret kemRandom).run r.session with
  | ok message s' =>
    obtain ⟨init, hoffer, rfl⟩ := initiateRekey_eq_ok.mp hrun
    obtain ⟨rekey, rfl, hgeneration⟩ := offerRekey_eq_ok hoffer
    have hannounced : announcedBy c w r.session
        (.initiateRekey secret peerKyberPublic ephSecret kemRandom) =
          some (r.session.ratchetGeneration + 1) := by
      rw [announcedBy, hrun]
      simp only [w.rekey.decode_encode, Except.toOption, Option.map_some, hgeneration]
    have hafter : r.session.after c w (.initiateRekey secret peerKyberPublic ephSecret kemRandom) =
        { r.session with pendingRekey := some init } := congrArg endState hrun
    intro _
    rw [step, hannounced, hafter]
    rfl
  | error e s' =>
    obtain rfl := state_of_initiateRekey_error hrun
    exact h.of_eq (congrArg endState hrun) (by rw [announcedBy, hrun])

/-- A step keeps a pending offer timely exactly if it is undisturbed. -/
theorem timely_step_iff (h : r.Timely) (a : Action) :
    (r.step c w a).Timely ↔ Undisturbed c w r.session a := by
  cases a with
  | encryptFrame header payload =>
    refine iff_of_true (h.of_same ?_ rfl) trivial
    rw [after_encryptFrame]
    exact sameOffer_of_encryptFrame header payload r.session
  | decryptFrame frame =>
    refine iff_of_true (h.of_same ?_ rfl) trivial
    rw [after_decryptFrame]
    exact sameOffer_of_decryptFrame frame r.session
  | initiateRekey secret peerKyberPublic ephSecret kemRandom =>
    exact iff_of_true (timely_step_initiateRekey h _ _ _ _) trivial
  | processRekey rekeyBytes peerPublic kyberSecret peerKyberPublic secret ephSecret kemRandom =>
    cases hrun : (processRekey c w rekeyBytes peerPublic kyberSecret peerKyberPublic secret
      ephSecret kemRandom).run r.session with
    | ok ack s' =>
      obtain ⟨newKeys, generation, hanswer, rfl⟩ := processRekey_eq_ok.mp hrun
      have hafter : r.session.after c w (.processRekey rekeyBytes peerPublic kyberSecret
          peerKyberPublic secret ephSecret kemRandom) = r.session.install newKeys generation :=
        congrArg endState hrun
      rw [timely_iff_of_advance h (by rw [hafter]; rfl)
        (by rw [hafter]; exact (answerRekey_generation hanswer).2) rfl, Undisturbed, hrun]
      exact ⟨fun hno _ => hno, fun hno => hno rfl⟩
    | error e s' =>
      obtain rfl := state_of_processRekey_error hrun
      refine iff_of_true (h.of_eq (congrArg endState hrun) rfl) ?_
      rw [Undisturbed, hrun]
      intro hok
      cases hok
  | processRekeyAck ackBytes peerPublic kyberSecret =>
    refine iff_of_true ?_ trivial
    cases hrun : (processRekeyAck c w ackBytes peerPublic kyberSecret).run r.session with
    | ok u s' =>
      obtain ⟨newKeys, generation, -, rfl⟩ := processRekeyAck_eq_ok.mp hrun
      exact timely_of_no_offer (congrArg (fun x => (endState x).pendingRekey) hrun)
    | error e s' =>
      obtain rfl := state_of_processRekeyAck_error hrun
      exact h.of_eq (congrArg endState hrun) rfl
  | applyRekey newKeys =>
    by_cases hactive : r.session.state = .active
    · have hrun := applyRekey_of_active hactive newKeys
      have hafter : r.session.after c w (.applyRekey newKeys) =
          r.session.install newKeys (r.session.ratchetGeneration + 1) := congrArg endState hrun
      rw [timely_iff_of_advance h (by rw [hafter]; rfl) (by rw [hafter]; rfl) rfl, Undisturbed, hrun]
      exact ⟨fun hno _ => hno, fun hno => hno rfl⟩
    · have hrun := applyRekey_of_inactive hactive newKeys
      refine iff_of_true (h.of_eq (congrArg endState hrun) rfl) ?_
      rw [Undisturbed, hrun]
      intro hok
      cases hok
  | reload stateKey externalCounter minExternalCounter nonce now =>
    refine iff_of_true ?_ trivial
    rcases reload_pendingRekey (c := c) (w := w) stateKey externalCounter minExternalCounter nonce
      now r.session with hsame | hnone
    · exact h.of_eq hsame rfl
    · exact timely_of_no_offer hnone
  | endCall => exact iff_of_true (h.of_same ⟨rfl, rfl⟩ rfl) trivial

end RekeyRun

/-! ## Rekeys over a run -/

/-- The action completes a rekey: of the peer, or the session's own. -/
def Completes (c : Crypto) (w : Wire) (s : VoipSession) : Action → Prop
  | .processRekey rekeyBytes peerPublic kyberSecret peerKyberPublic secret ephSecret kemRandom =>
    (outcome ((processRekey c w rekeyBytes peerPublic kyberSecret peerKyberPublic secret ephSecret
      kemRandom).run s)).isOk = true
  | .processRekeyAck ackBytes peerPublic kyberSecret =>
    (outcome ((processRekeyAck c w ackBytes peerPublic kyberSecret).run s)).isOk = true
  | _ => False

/-- A rekey can be started. -/
def VoipSession.CanRekey (c : Crypto) (w : Wire) (s : VoipSession) : Prop :=
  ∀ secret peerKyberPublic ephSecret kemRandom,
    (outcome ((initiateRekey c w secret peerKyberPublic ephSecret kemRandom).run s)).isOk = true ↔
      (rekeyInitiate c secret peerKyberPublic s.callId s.rootSecret s.ratchetGeneration ephSecret
        kemRandom).isOk = true

theorem canRekey_of_no_offer {s : VoipSession} (hactive : s.state = .active)
    (hpending : s.pendingRekey = none) : s.CanRekey c w := by
  intro secret peerKyberPublic ephSecret kemRandom
  cases hinit : rekeyInitiate c secret peerKyberPublic s.callId s.rootSecret s.ratchetGeneration
    ephSecret kemRandom with
  | ok out =>
    have hoffer : ∃ offer, offerRekey c w secret peerKyberPublic ephSecret kemRandom s =
        .ok offer := by
      rw [offerRekey, (require_eq_ok (u := ())).mpr hactive, (require_eq_ok (u := ())).mpr hpending,
        hinit]
      exact ⟨_, rfl⟩
    obtain ⟨⟨init, message⟩, hoffer⟩ := hoffer
    rw [initiateRekey_eq_ok.mpr ⟨init, hoffer, rfl⟩]
    exact iff_of_true rfl rfl
  | error e =>
    refine iff_of_false (fun hok => ?_) (by simp [Except.isOk, Except.toBool])
    cases hrun : (initiateRekey c w secret peerKyberPublic ephSecret kemRandom).run s with
    | ok message s' =>
      obtain ⟨init, hoffer, -⟩ := initiateRekey_eq_ok.mp hrun
      rw [offerRekey, except_seq_eq_ok, except_seq_eq_ok, except_bind_eq_ok] at hoffer
      obtain ⟨-, -, out, hout, -⟩ := hoffer
      rw [hinit] at hout
      cases hout
    | error e' s' =>
      rw [hrun] at hok
      cases hok

theorem initiateRekey_of_pending {s : VoipSession} (hactive : s.state = .active)
    (hpending : s.pendingRekey.isSome = true) {secret peerKyberPublic kemRandom : Bytes}
    {ephSecret : Key} :
    (initiateRekey c w secret peerKyberPublic ephSecret kemRandom).run s =
      .error (.voipRekey "rekey already pending") s := by
  have hsome : s.pendingRekey ≠ none := Option.isSome_iff_ne_none.mp hpending
  rw [initiateRekey]
  refine reads_bind_of_error ?_
  rw [offerRekey, (require_eq_ok (u := ())).mpr hactive, require_eq_error.mpr ⟨hsome, rfl⟩]
  rfl

theorem active_of_completeRekey {s : VoipSession} {ackBytes peerPublic kyberSecret : Bytes}
    {out : CallKeyMaterial × ℕ}
    (h : completeRekey c w ackBytes peerPublic kyberSecret s = .ok out) : s.state = .active := by
  rw [completeRekey, except_seq_eq_ok, require_eq_ok] at h
  exact h.1

/-- Once a rekey is completed without an offer pending under it, the next one can be started. -/
theorem canRekey_of_completes {s : VoipSession} {a : Action} (h : Completes c w s a)
    (hundisturbed : Undisturbed c w s a) :
    (s.after c w a).pendingRekey = none ∧ (s.after c w a).CanRekey c w := by
  cases a with
  | processRekey rekeyBytes peerPublic kyberSecret peerKyberPublic secret ephSecret kemRandom =>
    have hpending : s.pendingRekey = none := hundisturbed h
    rw [Completes] at h
    cases hrun : (processRekey c w rekeyBytes peerPublic kyberSecret peerKyberPublic secret
      ephSecret kemRandom).run s with
    | error e s' =>
      rw [hrun] at h
      cases h
    | ok ack s' =>
      obtain ⟨newKeys, generation, hanswer, rfl⟩ := processRekey_eq_ok.mp hrun
      have hafter : s.after c w (.processRekey rekeyBytes peerPublic kyberSecret peerKyberPublic
          secret ephSecret kemRandom) = s.install newKeys generation := congrArg endState hrun
      have hactive : s.state = .active := (answerRekey_generation hanswer).1
      rw [hafter]
      exact ⟨hpending, canRekey_of_no_offer hactive hpending⟩
  | processRekeyAck ackBytes peerPublic kyberSecret =>
    rw [Completes] at h
    cases hrun : (processRekeyAck c w ackBytes peerPublic kyberSecret).run s with
    | error e s' =>
      rw [hrun] at h
      cases h
    | ok u s' =>
      obtain ⟨newKeys, generation, hcomplete, rfl⟩ := processRekeyAck_eq_ok.mp hrun
      have hactive : s.state = .active := active_of_completeRekey hcomplete
      rw [after_processRekeyAck, hrun]
      exact ⟨rfl, canRekey_of_no_offer hactive rfl⟩
  | _ => cases h

/-- In a run of a session every pending offer is for the next generation exactly if no rekey of the
peer is accepted, and no new keys are applied, while an offer is pending.  In such a run a
completed rekey always leaves a session that can start another one. -/
theorem timely_iff (s : VoipSession) (hs : s.pendingRekey = none) (actions : List Action) :
    ((∀ done, done <+: actions → (done.foldl (RekeyRun.step c w) (.start s)).Timely) ↔
      Admits (RekeyRun.step c w) (fun r a ↦ Undisturbed c w r.session a) (.start s) actions) ∧
    (Admits (RekeyRun.step c w) (fun r a ↦ Undisturbed c w r.session a) (.start s) actions →
      ∀ done a, done ++ [a] <+: actions →
        Completes c w (done.foldl (RekeyRun.step c w) (.start s)).session a →
          ((done ++ [a]).foldl (RekeyRun.step c w) (.start s)).session.pendingRekey = none ∧
            ((done ++ [a]).foldl (RekeyRun.step c w) (.start s)).session.CanRekey c w) := by
  have hstart : (RekeyRun.start s).Timely := by
    intro hpending
    rw [RekeyRun.start, hs] at hpending
    cases hpending
  have hstep : ∀ (r : RekeyRun) (a : Action), r.Timely →
      ((r.step c w a).Timely ↔ Undisturbed c w r.session a) :=
    fun r a h ↦ RekeyRun.timely_step_iff h a
  refine ⟨(Admits.iff_forall hstep hstart).symm, ?_⟩
  intro hadmits done a hdone hcompletes
  rw [List.foldl_append]
  exact canRekey_of_completes hcompletes (hadmits.of_snoc hdone)

/-- The parties of the example call. -/
def sampleParty : CallRole → CallParty
  | .caller => sampleCaller
  | .callee => sampleCallee

/-- A rekey started by a party of the example call. -/
def sampleInitiate (role : CallRole) : Action :=
  .initiateRekey (sampleParty role).ed25519Secret ((sampleParty role.peer).kyberPublic .transparent)
    ⟨List.replicate 32 3, rfl⟩ [5]

/-- The offer that the party sends. -/
def sampleOffer (role : CallRole) : Bytes :=
  match (initiateRekey .transparent .plain (sampleParty role).ed25519Secret
      ((sampleParty role.peer).kyberPublic .transparent) ⟨List.replicate 32 3, rfl⟩ [5]).run
      (sampleSession role) with
  | .ok message _ => message
  | .error _ _ => []

/-- A party answers the rekey that its peer has started. -/
def sampleAnswer (role : CallRole) : Action :=
  .processRekey (sampleOffer role.peer) ((sampleParty role.peer).ed25519Public .transparent)
    ((sampleParty role).kyberSecret .transparent) ((sampleParty role.peer).kyberPublic .transparent)
    (sampleParty role).ed25519Secret ⟨List.replicate 32 4, rfl⟩ [6]

/-- The acknowledgement of the callee. -/
def sampleAck : Bytes :=
  match (processRekey .transparent .plain (sampleOffer .caller)
      (sampleCaller.ed25519Public .transparent) (sampleCallee.kyberSecret .transparent)
      (sampleCaller.kyberPublic .transparent) sampleCallee.ed25519Secret
      ⟨List.replicate 32 4, rfl⟩ [6]).run (sampleSession .callee) with
  | .ok ack _ => ack
  | .error _ _ => []

/-- The caller starts a rekey and gets it acknowledged. -/
def sampleExchange : List Action :=
  [sampleInitiate .caller,
   .processRekeyAck sampleAck (sampleCallee.ed25519Public .transparent)
    (sampleCaller.kyberSecret .transparent)]

theorem timely_iff_sample :
    (sampleExchange.foldl (RekeyRun.step .transparent .plain)
        (.start (sampleSession .caller))).session.ratchetGeneration = 1 ∧
      (sampleExchange.foldl (RekeyRun.step .transparent .plain)
        (.start (sampleSession .caller))).session.pendingRekey = none := by
  refine ⟨by decide +kernel, ?_⟩
  have hrun := (timely_iff (c := .transparent) (w := .plain) (sampleSession .caller) rfl
    sampleExchange).2 ⟨trivial, trivial, trivial⟩
  refine (hrun [sampleInitiate .caller] _ (List.prefix_refl _) ?_).1
  change (outcome _).isOk = true
  decide +kernel

/-! ## Two rekeys at the same time -/

/-- The run of a party that starts a rekey and then gets the one that its peer has started. -/
def glareEnd (role : CallRole) : RekeyRun :=
  [sampleInitiate role, sampleAnswer role].foldl (RekeyRun.step .transparent .plain)
    (.start (sampleSession role))

/-- Both parties of a call start a rekey and answer the rekey of the other: each is left in the
new generation with an offer for that generation, and cannot start a rekey any more. -/
theorem glare_leaves_stale_offers :
    (¬ (glareEnd .caller).Timely ∧ ¬ (glareEnd .callee).Timely) ∧
      (glareEnd .caller).announced = (glareEnd .caller).session.ratchetGeneration ∧
      (glareEnd .callee).announced = (glareEnd .callee).session.ratchetGeneration ∧
      (∀ secret peerKyberPublic ephSecret kemRandom,
        outcome ((initiateRekey .transparent .plain secret peerKyberPublic ephSecret kemRandom).run
          (glareEnd .caller).session) = .error (.voipRekey "rekey already pending")) ∧
      ∀ secret peerKyberPublic ephSecret kemRandom,
        outcome ((initiateRekey .transparent .plain secret peerKyberPublic ephSecret kemRandom).run
          (glareEnd .callee).session) = .error (.voipRekey "rekey already pending") := by
  have hend : ∀ role, (glareEnd role).session.pendingRekey.isSome = true ∧
      (glareEnd role).announced = 1 ∧ (glareEnd role).session.ratchetGeneration = 1 ∧
      (glareEnd role).session.state = .active := by
    intro role
    cases role <;> decide +kernel
  have hstale : ∀ role, ¬ (glareEnd role).Timely := by
    intro role htimely
    obtain ⟨hpending, hannounced, hgeneration, -⟩ := hend role
    have := htimely hpending
    omega
  have hstuck : ∀ role secret peerKyberPublic ephSecret kemRandom,
      outcome ((initiateRekey .transparent .plain secret peerKyberPublic ephSecret kemRandom).run
        (glareEnd role).session) = .error (.voipRekey "rekey already pending") := by
    intro role secret peerKyberPublic ephSecret kemRandom
    obtain ⟨hpending, -, -, hactive⟩ := hend role
    rw [initiateRekey_of_pending hactive hpending]
    rfl
  have heq : ∀ role, (glareEnd role).announced = (glareEnd role).session.ratchetGeneration :=
    fun role ↦ (hend role).2.1.trans (hend role).2.2.1.symm
  exact ⟨⟨hstale _, hstale _⟩, heq _, heq _, hstuck _, hstuck _⟩

end AuraProtocol.Voip
