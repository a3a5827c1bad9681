import AuraProtocol.Voip.Instance
import AuraProtocol.Voip.Sealed

/-!
# Runs of one call session

A run offers arbitrary frames to a session, encrypts frames, rekeys in every way the session
offers, and now and then replaces the session by what its own export restores to.  Beside the
session the run keeps two logs: the counters of the frames that were accepted, and the frames
that were sent with the keys and nonces they were encrypted under.

One lemma says what a step can do to the replay window, the frame counter and the logs
(`step_cases`); the two results follow from it.  The window stands for the set of accepted
counters, through rekeys and restorations.  The frame counter only grows, so no nonce is used
twice, whatever the keys.
-/

namespace AuraProtocol.Voip

open Fallible List MediaCrypto

variable {payload : Bytes} {header : FrameHeader} {frame : EncryptedFrame} {c : Crypto}

/-- What can happen to a session. -/
inductive Action where
  | encryptFrame (header : FrameHeader) (payload : Bytes)
  | decryptFrame (frame : EncryptedFrame)
  | initiateRekey (identityEd25519Secret peerKyberPublic : Bytes) (ephSecret : Key)
      (kemRandom : Bytes)
  | processRekey (rekeyBytes peerEd25519Public identityKyberSecret peerKyberPublic
      identityEd25519Secret : Bytes) (ephSecret : Key) (kemRandom : Bytes)
  | processRekeyAck (ackBytes peerEd25519Public identityKyberSecret : Bytes)
  | applyRekey (newKeys : CallKeyMaterial)
  | reload (stateKey : Bytes) (externalCounter minExternalCounter : UInt64) (nonce : SealNonce)
      (now : ℕ)
  | endCall

/-- A frame with the keys and nonces it was encrypted under. -/
structure SealedFrame where
  frame : EncryptedFrame
  mediaKey : Key
  nonce : Bytes
  headerKey : Key
  headerNonce : Bytes

/-- A session with what has happened to it. -/
structure CallRun where
  session : VoipSession
  accepted : List ℕ
  sent : List SealedFrame

/-- A run of a session that has not done anything yet. -/
def CallRun.start (s : VoipSession) : CallRun := ⟨s, [], []⟩

/-- The log entry of a frame, from the session that has just sent it. -/
def sealedWith (c : Crypto) (frame : EncryptedFrame) (s : VoipSession) : SealedFrame where
  frame
  mediaKey := s.mediaKey c frame.frameCounter
  nonce := MediaCrypto.buildNonce s.sendRatchet.noncePrefix frame.frameCounter
  headerKey := s.headerKeySend
  headerNonce := MediaCrypto.headerNonce s.sendRatchet.noncePrefix frame.frameCounter

/-- Exports a session and goes on with what the export restores to.  If either fails, the session
stays. -/
def reload (c : Crypto) (w : Wire) (stateKey : Bytes) (externalCounter minExternalCounter : UInt64)
    (nonce : SealNonce) (now : ℕ) (s : VoipSession) : VoipSession :=
  match exportSealedState c w stateKey externalCounter nonce s with
  | .error _ => s
  | .ok data =>
    match fromSealedState c w data stateKey minExternalCounter now with
    | .error _ => s
    | .ok s' => s'

/-- A run after something that logs nothing. -/
def CallRun.after {α : Type} (r : CallRun) (x : SessionM α) : CallRun :=
  { r with session := endState (x.run r.session) }

/-- One step of a run. -/
def CallRun.step (c : Crypto) (w : Wire) (r : CallRun) : Action → CallRun
  | .encryptFrame header payload =>
    match (Voip.encryptFrame c header payload).run r.session with
    | .ok frame s => { r with session := s, sent := r.sent ++ [sealedWith c frame s] }
    | .error _ s => { r with session := s }
  | .decryptFrame frame =>
    match (Voip.decryptFrame c frame).run r.session with
    | .ok _ s => { r with session := s, accepted := r.accepted ++ [frame.frameCounter] }
    | .error _ s => { r with session := s }
  | .initiateRekey secret peerKyberPublic ephSecret kemRandom =>
    r.after (Voip.initiateRekey c w secret peerKyberPublic ephSecret kemRandom)
  | .processRekey rekeyBytes peerPublic kyberSecret peerKyberPublic secret ephSecret kemRandom =>
    r.after (Voip.processRekey c w rekeyBytes peerPublic kyberSecret peerKyberPublic secret ephSecret
      kemRandom)
  | .processRekeyAck ackBytes peerPublic kyberSecret =>
    r.after (Voip.processRekeyAck c w ackBytes peerPublic kyberSecret)
  | .applyRekey newKeys => r.after (Voip.applyRekey newKeys)
  | .reload stateKey externalCounter minExternalCounter nonce now =>
    let s := Voip.reload c w stateKey externalCounter minExternalCounter nonce now r.session
    { r with session := s }
  | .endCall => r.after Voip.endCall

/-- A whole run. -/
def CallRun.exec (c : Crypto) (w : Wire) (r : CallRun) (actions : List Action) : CallRun :=
  actions.foldl (CallRun.step c w) r

/-! ## What a step does -/

/-- The replay window and the frame counter are the same. -/
def SameFrames (s s' : VoipSession) : Prop :=
  s'.replayWindow = s.replayWindow ∧ s'.sendFrameCounter = s.sendFrameCounter

namespace SameFrames

instance : IsPreorder VoipSession SameFrames where
  refl _ := ⟨rfl, rfl⟩
  trans _ _ _ h h' := ⟨h'.1.trans h.1, h'.2.trans h.2⟩

variable {c : Crypto} {w : Wire} {s s' : VoipSession}

theorem of_advanceIfDue (h : (advanceIfDue c).run s = .ok () s') : SameFrames s s' := by
  rcases advanceIfDue_eq_ok.mp h with ⟨-, rfl⟩ | ⟨-, r, -, rfl⟩ <;> exact ⟨rfl, rfl⟩

theorem of_initiateRekey (secret peerKyberPublic : Bytes) (ephSecret : Key) (kemRandom : Bytes) :
    Keeps SameFrames (initiateRekey c w secret peerKyberPublic ephSecret kemRandom) :=
  .bind (.reads _) fun _ => .bind (.modify fun _ => ⟨rfl, rfl⟩) fun _ => .pure _

theorem of_processRekey (rekeyBytes peerPublic kyberSecret peerKyberPublic secret : Bytes)
    (ephSecret : Key) (kemRandom : Bytes) :
    Keeps SameFrames (processRekey c w rekeyBytes peerPublic kyberSecret peerKyberPublic secret
      ephSecret kemRandom) :=
  .bind (.reads _) fun _ => .bind (.modify fun _ => ⟨rfl, rfl⟩) fun _ => .pure _

theorem of_processRekeyAck (ackBytes peerPublic kyberSecret : Bytes) :
    Keeps SameFrames (processRekeyAck c w ackBytes peerPublic kyberSecret) :=
  .bind (.reads _) fun _ => .modify fun _ => ⟨rfl, rfl⟩

theorem of_applyRekey (newKeys : CallKeyMaterial) : Keeps SameFrames (applyRekey newKeys) :=
  .bind (.reads _) fun _ => .modify fun _ => ⟨rfl, rfl⟩

/-- Window and counter survive an export and its restoration. -/
theorem of_reload (hc : c.Correct) (stateKey : Bytes) (externalCounter minExternalCounter : UInt64)
    (nonce : SealNonce) (now : ℕ) (s : VoipSession) :
    SameFrames s (reload c w stateKey externalCounter minExternalCounter nonce now s) := by
  rw [reload]
  cases hexport : exportSealedState c w stateKey externalCounter nonce s with
  | error e => exact refl s
  | ok data =>
    cases hrestore : fromSealedState c w data stateKey minExternalCounter now with
    | error e =>
      simp only [hrestore]
      exact refl s
    | ok s' =>
      simp only [hrestore]
      obtain ⟨-, rfl⟩ := (fromSealedState_of_export hc hexport).mp hrestore
      exact ⟨rfl, rfl⟩

end SameFrames

/-- What a frame that was sent satisfies: payload and header were sealed under the logged keys and
nonces, and the nonces carry the counter. -/
structure SealedFrame.Sound (c : Crypto) (e : SealedFrame) : Prop where
  counter_le : e.frame.frameCounter ≤ maxFrameCounter
  nonce_eq : ∃ noncePrefix, e.nonce = MediaCrypto.buildNonce noncePrefix e.frame.frameCounter ∧
    e.headerNonce = MediaCrypto.headerNonce noncePrefix e.frame.frameCounter
  payload_sealed : ∃ payload aad, c.aeadSeal e.mediaKey.1 e.nonce (padFrame payload) aad =
    some e.frame.encryptedPayload
  header_sealed : ∃ header : FrameHeader,
    c.aeadSeal e.headerKey.1 e.headerNonce header.serialize [] = some e.frame.encryptedHeader

theorem sealFrame_eq_ok {s : VoipSession} :
    sealFrame c header payload s = .ok frame ↔
      ∃ encryptedPayload encryptedHeader,
        MediaCrypto.encryptFrame c (s.mediaKey c s.sendFrameCounter) s.sendRatchet.noncePrefix
          s.sendFrameCounter payload (buildFrameAad s.callId s.ssrc s.sendFrameCounter
            s.sendRatchet.generation) = .ok encryptedPayload ∧
        MediaCrypto.encryptHeader c s.headerKeySend s.sendRatchet.noncePrefix s.sendFrameCounter
          header.serialize = .ok encryptedHeader ∧
        frame = ⟨s.callId.1, s.ssrc, s.sendFrameCounter, s.sendRatchet.generation, encryptedPayload,
          MediaCrypto.buildNonce s.sendRatchet.noncePrefix s.sendFrameCounter,
          encryptedHeader⟩ := by
  simp only [sealFrame, except_bind_eq_ok, Except.ok.injEq]
  constructor
  · rintro ⟨encryptedPayload, hpayload, encryptedHeader, hheader, rfl⟩
    exact ⟨encryptedPayload, encryptedHeader, hpayload, hheader, rfl⟩
  · rintro ⟨encryptedPayload, encryptedHeader, hpayload, hheader, rfl⟩
    exact ⟨encryptedPayload, hpayload, encryptedHeader, hheader, rfl⟩

theorem sealedWith_sound {s : VoipSession}
    (h : sealFrame c header payload s = .ok frame) : (sealedWith c frame s.countSent).Sound c := by
  obtain ⟨encryptedPayload, encryptedHeader, hpayload, hheader, rfl⟩ := sealFrame_eq_ok.mp h
  obtain ⟨-, -, hcounter, hseal⟩ := MediaCrypto.encryptFrame_eq_ok.mp hpayload
  have hseal' := encryptHeader_eq_ok.mp hheader
  exact ⟨hcounter, ⟨s.sendRatchet.noncePrefix, rfl, rfl⟩,
    ⟨payload, _, (AesGcm.encrypt_eq_ok.mp hseal).2⟩, ⟨header, (AesGcm.encrypt_eq_ok.mp hseal').2⟩⟩

/-- A step accepts a frame, or sends one, or touches neither the window nor the counter. -/
inductive StepEffect (c : Crypto) (r r' : CallRun) : Prop
  | quiet (session : SameFrames r.session r'.session) (accepted : r'.accepted = r.accepted)
      (sent : r'.sent = r.sent)
  | accept (counter : ℕ) (passes : r.session.replayWindow.check counter = true)
      (window : r'.session.replayWindow = r.session.replayWindow.mark counter)
      (frameCounter : r'.session.sendFrameCounter = r.session.sendFrameCounter)
      (accepted : r'.accepted = r.accepted ++ [counter]) (sent : r'.sent = r.sent)
  | send (e : SealedFrame) (sound : e.Sound c)
      (counter : e.frame.frameCounter = r.session.sendFrameCounter)
      (window : r'.session.replayWindow = r.session.replayWindow)
      (frameCounter : r'.session.sendFrameCounter = r.session.sendFrameCounter + 1)
      (accepted : r'.accepted = r.accepted) (sent : r'.sent = r.sent ++ [e])

theorem step_encryptFrame (c : Crypto) (w : Wire) (r : CallRun) (header : FrameHeader)
    (payload : Bytes) : StepEffect c r (r.step c w (.encryptFrame header payload)) := by
  rw [CallRun.step]
  cases hrun : (encryptFrame c header payload).run r.session with
  | ok frame s =>
    obtain ⟨-, s₁, hadvance, hseal, rfl⟩ := encryptFrame_eq_ok.mp hrun
    obtain ⟨hwindow, hcounter⟩ := SameFrames.of_advanceIfDue hadvance
    have hframe : frame.frameCounter = s₁.sendFrameCounter := by
      obtain ⟨_, _, -, -, rfl⟩ := sealFrame_eq_ok.mp hseal
      rfl
    exact .send _ (sealedWith_sound hseal) (hframe.trans hcounter) hwindow
      (congrArg (· + 1) hcounter) rfl rfl
  | error e s =>
    have hsame : SameFrames r.session s := by
      rcases state_of_encryptFrame_error hrun with rfl | ⟨-, hadvance, -⟩
      · exact refl _
      · exact .of_advanceIfDue hadvance
    exact .quiet hsame rfl rfl

theorem step_decryptFrame (c : Crypto) (w : Wire) (r : CallRun) (frame : EncryptedFrame) :
    StepEffect c r (r.step c w (.decryptFrame frame)) := by
  rw [CallRun.step]
  cases hrun : (decryptFrame c frame).run r.session with
  | ok out s =>
    obtain ⟨-, hpass, opened, -, -, rfl⟩ := decryptFrame_eq_ok.mp hrun
    exact .accept frame.frameCounter hpass rfl rfl rfl rfl
  | error e s =>
    have hsame : SameFrames r.session s := by
      rcases state_of_decryptFrame_error hrun with rfl | rfl <;> exact ⟨rfl, rfl⟩
    exact .quiet hsame rfl rfl

theorem step_cases (hc : c.Correct) (w : Wire) (r : CallRun) (a : Action) :
    StepEffect c r (r.step c w a) := by
  cases a with
  | encryptFrame header payload => exact step_encryptFrame c w r header payload
  | decryptFrame frame => exact step_decryptFrame c w r frame
  | initiateRekey secret peerKyberPublic ephSecret kemRandom =>
    exact .quiet (SameFrames.of_initiateRekey _ _ _ _ _) rfl rfl
  | processRekey rekeyBytes peerPublic kyberSecret peerKyberPublic secret ephSecret kemRandom =>
    exact .quiet (SameFrames.of_processRekey _ _ _ _ _ _ _ _) rfl rfl
  | processRekeyAck ackBytes peerPublic kyberSecret =>
    exact .quiet (SameFrames.of_processRekeyAck _ _ _ _) rfl rfl
  | applyRekey newKeys => exact .quiet (SameFrames.of_applyRekey _ _) rfl rfl
  | reload stateKey externalCounter minExternalCounter nonce now =>
    exact .quiet (SameFrames.of_reload hc _ _ _ _ _ _) rfl rfl
  | endCall => exact .quiet ⟨rfl, rfl⟩ rfl rfl

/-! ## The replay window over a run -/

/-- The window stands for the accepted counters, none of which was accepted twice. -/
structure CallRun.WindowOk (r : CallRun) : Prop where
  nodup : r.accepted.Nodup
  tracks : r.session.replayWindow.Tracks r.accepted.toFinset

theorem StepEffect.windowOk {r r' : CallRun} (h : StepEffect c r r')
    (hok : r.WindowOk) : r'.WindowOk := by
  cases h with
  | quiet session accepted sent =>
    exact ⟨accepted ▸ hok.nodup, by rw [accepted, session.1]; exact hok.tracks⟩
  | accept counter passes window frameCounter accepted sent =>
    have hnew : counter ∉ r.accepted := by
      have hmem := (hok.tracks.check_iff.mp passes).1
      rwa [mem_toFinset] at hmem
    have hset : (r.accepted ++ [counter]).toFinset = insert counter r.accepted.toFinset := by
      rw [toFinset_append, Finset.union_comm]
      rfl
    refine ⟨?_, ?_⟩
    · rw [accepted, nodup_append_comm]
      exact nodup_cons.mpr ⟨hnew, hok.nodup⟩
    · rw [accepted, window, hset]
      exact hok.tracks.mark passes
  | send e sound counter window frameCounter accepted sent =>
    exact ⟨accepted ▸ hok.nodup, by rw [accepted, window]; exact hok.tracks⟩

theorem exec_windowOk (hc : c.Correct) (w : Wire) {r : CallRun} (hok : r.WindowOk)
    (actions : List Action) : (r.exec c w actions).WindowOk := by
  induction actions generalizing r with
  | nil => exact hok
  | cons a actions ih => exact ih ((step_cases hc w r a).windowOk hok)

theorem tracks_iff_max {seen : Finset ℕ} {counter : ℕ} :
    (∀ m ∈ seen, m < counter + windowSize) ↔
      seen = ∅ ∨ seen.sup id - counter < windowSize := by
  have hsup : seen.sup id < counter + windowSize ↔ ∀ m ∈ seen, m < counter + windowSize :=
    Finset.sup_lt_iff (Nat.add_pos_right counter (by decide))
  rw [← hsup]
  constructor
  · intro h
    rw [windowSize] at h ⊢
    exact .inr (by omega)
  · rintro (rfl | h)
    · exact Nat.add_pos_right counter (by decide)
    · rw [windowSize] at h ⊢
      omega

variable {c : Crypto} {rawCallId : Bytes} {role : CallRole} {keyMaterial : CallKeyMaterial}
  {ratchetIntervalFrames pqRekeyIntervalSecs : ℕ} {shieldMode : Bool}
  {screenShareMeta : Option ScreenShareMetadata} {now : ℕ} {ssrc : UInt32} {s : VoipSession}

/-- The first frame of the caller of the example call. -/
def sampleFrame : EncryptedFrame :=
  match (encryptFrame .transparent ⟨96, 17, 0, 0⟩ [1]).run (sampleSession .caller) with
  | .ok frame _ => frame
  | .error _ _ => ⟨[], 0, 0, 0, [], [], []⟩

/-- Frames both ways, a restoration, a replayed frame and new keys at the callee. -/
def sampleActions : List Action :=
  [.encryptFrame ⟨96, 17, 0, 0⟩ [1],
   .decryptFrame sampleFrame,
   .reload (List.replicate 32 1) 1 1 ⟨List.replicate 12 0, rfl⟩ 1000,
   .decryptFrame sampleFrame,
   .encryptFrame ⟨96, 17, 160, 1⟩ [2],
   .applyRekey (sampleKeys .callee),
   .encryptFrame ⟨96, 17, 320, 2⟩ [3]]

/-- A frame that `decrypt_frame` rejects, for whatever reason, at most adds to the dropped frames:
ratchets, keys, replay window and all other counters are what they were.  The receiving ratchet
moves only when payload and header are both authentic. -/
theorem session_of_rejected_frame {frame : EncryptedFrame} {s' : VoipSession} {e : ProtocolError}
    (h : (decryptFrame c frame).run s = .error e s') :
    { s' with framesDropped := s.framesDropped } = s ∧
      (s'.framesDropped = s.framesDropped ∨ s'.framesDropped = s.framesDropped + 1) := by
  rcases state_of_decryptFrame_error h with rfl | rfl
  · exact ⟨rfl, .inl rfl⟩
  · exact ⟨rfl, .inr rfl⟩

/-- The first frame of the example call under a later generation than it was sent in. -/
def forgedFrame : EncryptedFrame := { sampleFrame with ratchetGeneration := 5 }

theorem session_of_rejected_frame_forged :
    ((sampleSession .callee).recvRatchet.speculativeFrameKey .transparent 5 0).isOk = true ∧
      { endState ((decryptFrame .transparent forgedFrame).run (sampleSession .callee)) with
        framesDropped := 0 } = sampleSession .callee := by
  refine ⟨by decide +kernel, ?_⟩
  cases hrun : (decryptFrame .transparent forgedFrame).run (sampleSession .callee) with
  | ok out s =>
    have hfails : (outcome ((decryptFrame .transparent forgedFrame).run
      (sampleSession .callee))).isOk = false := by decide +kernel
    rw [hrun] at hfails
    cases hfails
  | error e s => exact (session_of_rejected_frame hrun).1

/-! ## Frames that are not sent -/

theorem exists_sealFrame_iff (hs : c.Seals) (header : FrameHeader)
    (hcounter : s.sendFrameCounter ≤ maxFrameCounter) :
    (∃ frame, sealFrame c header payload s = .ok frame) ↔
      payload ≠ [] ∧ payload.length ≤ maxVoipFrameSize := by
  constructor
  · rintro ⟨frame, h⟩
    obtain ⟨_, _, hpayload, -, -⟩ := sealFrame_eq_ok.mp h
    obtain ⟨hne, hlen, -, -⟩ := MediaCrypto.encryptFrame_eq_ok.mp hpayload
    exact ⟨hne, hlen⟩
  · rintro ⟨hne, hlen⟩
    have hpadded : (padFrame payload).length ≤ 2 ^ 36 := by
      rw [length_padFrame, paddedFrameLength, voipFramePaddingBlock]
      rw [maxVoipFrameSize] at hlen
      omega
    have haad : (buildFrameAad s.callId s.ssrc s.sendFrameCounter
        s.sendRatchet.generation).length ≤ 2 ^ 36 := by
      have := s.callId.2
      simp [buildFrameAad, this, callIdBytes]
    have hheader : header.serialize.length ≤ 2 ^ 36 := by
      rw [FrameHeader.length_serialize]
      decide
    have hnil : ([] : Bytes).length ≤ 2 ^ 36 := Nat.zero_le _
    obtain ⟨payloadCt, hpayloadCt⟩ := AesGcm.exists_encrypt_eq_ok hs
      (s.mediaKey c s.sendFrameCounter).2
      (length_buildNonce s.sendRatchet.noncePrefix s.sendFrameCounter) hpadded haad
    obtain ⟨headerCt, hheaderCt⟩ := AesGcm.exists_encrypt_eq_ok hs s.headerKeySend.2
      (length_headerNonce s.sendRatchet.noncePrefix s.sendFrameCounter) hheader hnil
    exact ⟨_, sealFrame_eq_ok.mpr ⟨payloadCt, headerCt,
      MediaCrypto.encryptFrame_eq_ok.mpr ⟨hne, hlen, hcounter, hpayloadCt⟩,
      encryptHeader_eq_ok.mpr hheaderCt, rfl⟩⟩

/-- The ratchet step of a due generation. -/
theorem advanceIfDue_of_due (c : Crypto)
    (hdue : s.ratchetIntervalFrames ≤ s.framesSinceRatchet)
    (hgeneration : s.sendRatchet.generation < maxRatchetGeneration) :
    ∃ s₁, (advanceIfDue c).run s = .ok () s₁ ∧ s₁.sendFrameCounter = s.sendFrameCounter ∧
      s₁.sendRatchet.generation = s.sendRatchet.generation + 1 :=
  ⟨_, advanceIfDue_eq_ok.mpr (.inr ⟨hdue, _,
    except_seq_eq_ok.mpr ⟨require_eq_ok.mpr hgeneration, rfl⟩, rfl⟩), rfl, rfl⟩

/-- A failing `encrypt_frame` leaves the sending side as it was, unless the ratchet was due and
it is the payload that is refused: the checks of the payload come after the ratchet step. -/
theorem failed_send_keeps_iff (hs : c.Seals) (header : FrameHeader) (payload : Bytes)
    (s : VoipSession) :
    (∀ e s', (encryptFrame c header payload).run s = .error e s' →
      s'.sendRatchet = s.sendRatchet ∧ s'.framesSinceRatchet = s.framesSinceRatchet ∧
        s'.sendFrameCounter = s.sendFrameCounter) ↔
    ¬(checkEncrypt header s = .ok () ∧ s.ratchetIntervalFrames ≤ s.framesSinceRatchet ∧
      s.sendRatchet.generation < maxRatchetGeneration ∧
      (payload = [] ∨ maxVoipFrameSize < payload.length)) := by
  constructor
  · rintro hkeeps ⟨hcheck, hdue, hgeneration, hpayload⟩
    obtain ⟨s₁, hadvance, hcounter, hstep⟩ := advanceIfDue_of_due c hdue hgeneration
    have hle : s₁.sendFrameCounter ≤ maxFrameCounter :=
      hcounter.trans_le (checkEncrypt_eq_ok.mp hcheck).2.2
    have hseal : ∀ frame, sealFrame c header payload s₁ ≠ .ok frame := by
      intro frame hok
      obtain ⟨hne, hlen⟩ := (exists_sealFrame_iff hs header hle).mp ⟨frame, hok⟩
      exact hpayload.elim hne fun h ↦ absurd hlen (not_le.mpr h)
    cases hrefused : sealFrame c header payload s₁ with
    | ok frame => exact hseal frame hrefused
    | error e =>
      have hrun : (encryptFrame c header payload).run s = .error e s₁ := by
        rw [encryptFrame, reads_bind_of_ok hcheck, bind_of_ok hadvance,
          reads_bind_of_error hrefused]
      have hsame := congrArg MediaKeyRatchet.generation (hkeeps e s₁ hrun).1
      omega
  · intro hnot e s' hrun
    rcases state_of_encryptFrame_error hrun with rfl | ⟨hcheck, hadvance, hseal⟩
    · exact ⟨rfl, rfl, rfl⟩
    obtain ⟨-, rfl⟩ | ⟨hdue, r, hr, -⟩ := advanceIfDue_eq_ok.mp hadvance
    · exact ⟨rfl, rfl, rfl⟩
    -- the ratchet has moved, so it is the payload that was refused
    refine absurd ⟨hcheck, hdue, ?_, ?_⟩ hnot
    · exact require_eq_ok.mp (except_seq_eq_ok.mp hr).1
    · by_contra hpayload
      obtain ⟨hne, hlen⟩ := not_or.mp hpayload
      have hle : s'.sendFrameCounter ≤ maxFrameCounter :=
        (SameFrames.of_advanceIfDue hadvance).2.trans_le (checkEncrypt_eq_ok.mp hcheck).2.2
      obtain ⟨frame, hok⟩ := (exists_sealFrame_iff hs header hle).mpr ⟨hne, not_lt.mp hlen⟩
      rw [hok] at hseal
      cases hseal

/-- The caller of the example call when its ratchet is due. -/
def dueSession : VoipSession := { sampleSession .caller with framesSinceRatchet := 2 }

theorem failed_send_advances_ratchet :
    ∃ e s', (encryptFrame .transparent ⟨96, 17, 0, 0⟩ []).run dueSession = .error e s' ∧
      dueSession.sendRatchet.generation = 0 ∧ s'.sendRatchet.generation = 1 ∧
      dueSession.framesSinceRatchet = 2 ∧ s'.framesSinceRatchet = 0 := by
  refine ⟨_, _, rfl, rfl, rfl, rfl, rfl⟩

theorem failed_send_keeps_iff_sample :
    (sampleSession .caller).framesSinceRatchet <
        (sampleSession .caller).ratchetIntervalFrames ∧
    ∀ e s', (encryptFrame .transparent ⟨96, 17, 0, 0⟩ []).run (sampleSession .caller) =
        .error e s' →
      s'.sendRatchet = (sampleSession .caller).sendRatchet ∧
        s'.framesSinceRatchet = (sampleSession .caller).framesSinceRatchet ∧
        s'.sendFrameCounter = (sampleSession .caller).sendFrameCounter :=
  ⟨by decide, (failed_send_keeps_iff Crypto.transparent_seals _ _ _).mpr fun h ↦
    absurd h.2.1 (by decide)⟩

/-! ## Nonces over a run -/

/-- The frames sent have growing counters below the next one. -/
structure CallRun.CountersOk (c : Crypto) (r : CallRun) : Prop where
  sound : ∀ e ∈ r.sent, e.Sound c
  below : ∀ e ∈ r.sent, e.frame.frameCounter < r.session.sendFrameCounter
  growing : r.sent.Pairwise fun a b => a.frame.frameCounter < b.frame.frameCounter

theorem StepEffect.countersOk {r r' : CallRun} (h : StepEffect c r r')
    (hok : r.CountersOk c) : r'.CountersOk c := by
  cases h with
  | quiet session accepted sent =>
    obtain ⟨hsound, hbelow, hgrowing⟩ := hok
    rw [← session.2] at hbelow
    rw [← sent] at hsound hbelow hgrowing
    exact ⟨hsound, hbelow, hgrowing⟩
  | accept counter passes window frameCounter accepted sent =>
    obtain ⟨hsound, hbelow, hgrowing⟩ := hok
    rw [← frameCounter] at hbelow
    rw [← sent] at hsound hbelow hgrowing
    exact ⟨hsound, hbelow, hgrowing⟩
  | send e sound counter window frameCounter accepted sent =>
    refine ⟨?_, ?_, ?_⟩
    · rw [sent]
      intro e' he'
      rcases mem_append.mp he' with hold | hnew
      · exact hok.sound e' hold
      · rw [mem_singleton.mp hnew]
        exact sound
    · rw [sent, frameCounter]
      intro e' he'
      rcases mem_append.mp he' with hold | hnew
      · exact Nat.lt_succ_of_lt (hok.below e' hold)
      · rw [mem_singleton.mp hnew, counter]
        exact Nat.lt_succ_self _
    · rw [sent, pairwise_append]
      refine ⟨hok.growing, pairwise_singleton _ _, fun a ha b hb => ?_⟩
      rw [mem_singleton.mp hb, counter]
      exact hok.below a ha

theorem exec_countersOk (hc : c.Correct) (w : Wire) {r : CallRun} (hok : r.CountersOk c)
    (actions : List Action) : (r.exec c w actions).CountersOk c := by
  induction actions generalizing r with
  | nil => exact hok
  | cons a actions ih => exact ih ((step_cases hc w r a).countersOk hok)

/-- Frames with different counters share no nonce. -/
theorem SealedFrame.Sound.nonce_ne {a b : SealedFrame} (ha : a.Sound c) (hb : b.Sound c)
    (hne : a.frame.frameCounter ≠ b.frame.frameCounter) :
    a.nonce ≠ b.nonce ∧ a.headerNonce ≠ b.headerNonce := by
  obtain ⟨_, hnonce, hheader⟩ := ha.nonce_eq
  obtain ⟨_, hnonce', hheader'⟩ := hb.nonce_eq
  rw [hnonce, hnonce', hheader, hheader']
  exact ⟨buildNonce_ne ha.counter_le hb.counter_le hne,
    headerNonce_ne ha.counter_le hb.counter_le hne⟩

theorem CallRun.after_of_error {r : CallRun} {α : Type} {x : SessionM α} {e : ProtocolError}
    (h : x.run r.session = .error e r.session) : r.after x = r := by
  rw [CallRun.after, h, endState_error]

/-- Every call is refused before it changes anything. -/
theorem step_of_ended (w : Wire) {r : CallRun} (h : r.session.state = .ended) (a : Action) :
    r.step c w a = r := by
  have hrefused {β : Type} (e : ProtocolError) (rest : Unit → Except ProtocolError β) :
      (require (r.session.state = .active) e >>= rest) = .error e := by
    rw [require, h]
    rfl
  cases a with
  | encryptFrame header payload =>
    rw [CallRun.step, encryptFrame, reads_bind_of_error (g := checkEncrypt header) (hrefused _ _)]
  | decryptFrame frame =>
    rw [CallRun.step, decryptFrame, reads_bind_of_error (g := checkDecrypt frame) (hrefused _ _)]
  | reload stateKey externalCounter _ nonce =>
    rw [CallRun.step, Voip.reload]
    cases hexport : exportSealedState c w stateKey externalCounter nonce r.session with
    | error => rfl
    | ok =>
      simp only [exportSealedState, except_seq_eq_ok, require_eq_ok] at hexport
      exact absurd h hexport.2.1
  | endCall =>
    obtain ⟨⟨⟩, _, _⟩ := r
    cases h
    rfl
  | applyRekey newKeys =>
    exact CallRun.after_of_error (reads_bind_of_error (require_eq_error.mpr ⟨by simp [h], rfl⟩))
  | _ => exact CallRun.after_of_error (reads_bind_of_error (hrefused _ _))

/-- After `end_call` nothing changes any more: no frame is sent or accepted, no key is replaced, and
the session cannot be exported. -/
theorem endCall_final (w : Wire) (r : CallRun) (actions : List Action) :
    r.exec c w (.endCall :: actions) = r.exec c w [.endCall] := by
  change (r.step c w .endCall).exec c w actions = r.step c w .endCall
  induction actions with
  | nil => rfl
  | cons a actions ih =>
    rw [CallRun.exec, foldl_cons, step_of_ended w rfl a]
    exact ih

end AuraProtocol.Voip
