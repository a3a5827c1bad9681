import AuraProtocol.Session.State
import AuraProtocol.Voip.CallKeys
import AuraProtocol.Voip.ReplayWindow

/-!
# Call sessions

The session of a call, `VoipSessionInner` of `protocol/voip/mod.rs`, and what it does while
the call is active: frames are encrypted and decrypted, and either party may rekey.  A rekey
replaces the root, both ratchets and both header keys; the frame counter and the replay
window go on.

The functions that lock the session and change it are computations on the session; what a
failing function has changed before it failed stays changed.
-/

namespace AuraProtocol.Voip

open Fallible

def defaultRatchetIntervalFrames : ℕ := 512
def defaultPqRekeyIntervalSecs : ℕ := 60
def maxVoipSignalMessageSize : ℕ := 64 * 1024
def maxVoipEncryptedPayloadSize : ℕ := maxVoipFrameSize + voipFramePaddingBlock + aesGcmTagBytes
def maxVoipEncryptedHeaderSize : ℕ := 4 * 1024
def maxScreenShareWidth : UInt32 := 7680
def maxScreenShareHeight : UInt32 := 4320
def maxScreenShareFrameRate : UInt32 := 120
def maxCodecHintChars : ℕ := 64

/-! ## Messages -/

structure CallRekey where
  callId : Bytes
  rekeyGeneration : ℕ
  ephemeralX25519Public : Bytes
  kyberCiphertext : Bytes
  signature : Bytes
  keyConfirmationMac : Bytes
  deriving DecidableEq

structure CallRekeyAck where
  callId : Bytes
  rekeyGeneration : ℕ
  ephemeralX25519Public : Bytes
  kyberCiphertext : Bytes
  signature : Bytes
  keyConfirmationMac : Bytes
  deriving DecidableEq

structure VoipSessionState where
  stateVersion : ℕ
  callId : Bytes
  role : ℕ
  ssrc : UInt32
  sendFrameCounter : ℕ
  replayHighWater : ℕ
  ratchetGeneration : ℕ
  ratchetIntervalFrames : ℕ
  pqRekeyIntervalSecs : ℕ
  shieldMode : Bool
  framesSinceRatchet : ℕ
  rootSecret : Bytes
  externalCounter : ℕ
  sendRatchetChainKey : Bytes
  recvRatchetChainKey : Bytes
  sendRatchetGeneration : ℕ
  recvRatchetGeneration : ℕ
  replayBitmap : Bytes
  screenShareMeta : Option ScreenShareMetadata
  localRecordingConsent : Option ℤ
  remoteRecordingConsent : Option ℤ
  totalRekeyCount : ℕ
  createdAtUnix : ℕ
  framesSent : ℕ
  framesReceived : ℕ
  framesDropped : ℕ
  lastMetricsTimestamp : ℕ
  remoteRecordingConsentTimestampUnix : ℕ
  localRecordingConsentTimestampUnix : ℕ
  deriving DecidableEq

/-- The wire format of the messages of a call. -/
structure Wire where
  rekey : Codec CallRekey
  rekeyAck : Codec CallRekeyAck
  sessionState : Codec VoipSessionState

structure EncryptedFrame where
  callId : Bytes
  ssrc : UInt32
  frameCounter : ℕ
  ratchetGeneration : ℕ
  encryptedPayload : Bytes
  nonce : Bytes
  encryptedHeader : Bytes
  deriving DecidableEq

structure DecryptedFrame where
  header : FrameHeader
  payload : Bytes
  frameCounter : ℕ
  ratchetGeneration : ℕ
  deriving DecidableEq

/-! ## Sessions -/

inductive CallRole where
  | caller
  | callee
  deriving DecidableEq

inductive CallState where
  | init
  | ringing
  | active
  | ended
  deriving DecidableEq

/-- `VoipSessionInner`. -/
structure VoipSession where
  callId : CallId
  role : CallRole
  state : CallState
  ssrc : UInt32
  sendRatchet : MediaKeyRatchet
  recvRatchet : MediaKeyRatchet
  headerKeySend : Key
  headerKeyRecv : Key
  rootSecret : Key
  sendFrameCounter : ℕ
  replayWindow : ReplayWindow
  ratchetGeneration : ℕ
  ratchetIntervalFrames : ℕ
  pqRekeyIntervalSecs : ℕ
  shieldMode : Bool
  framesSinceRatchet : ℕ
  pendingRekey : Option CallInitOutput
  screenShareMeta : Option ScreenShareMetadata
  framesSent : ℕ
  framesReceived : ℕ
  framesDropped : ℕ
  lastMetricsTimestamp : ℕ
  localRecordingConsent : ℤ
  localRecordingConsentTimestampUnix : ℕ
  remoteRecordingConsent : ℤ
  remoteRecordingConsentTimestampUnix : ℕ
  createdAtUnix : ℕ
  deriving DecidableEq

/-- Computations on a call session. -/
abbrev SessionM := EStateM ProtocolError VoipSession

def validateScreenShareMetadata (metadata : ScreenShareMetadata) : Except ProtocolError Unit := do
  require (metadata.width ≠ 0 ∧ metadata.width ≤ maxScreenShareWidth)
    (.invalidInput "screen share width out of range")
  require (metadata.height ≠ 0 ∧ metadata.height ≤ maxScreenShareHeight)
    (.invalidInput "screen share height out of range")
  require (metadata.frameRate ≠ 0 ∧ metadata.frameRate ≤ maxScreenShareFrameRate)
    (.invalidInput "screen share frame_rate out of range")
  match metadata.codecHint with
  | none => .ok ()
  | some hint => require (hint.length ≤ maxCodecHintChars) (.invalidInput "codec_hint too long")

/-- The check of screen-share metadata that may be missing. -/
def validateScreenShare : Option ScreenShareMetadata → Except ProtocolError Unit
  | none => .ok ()
  | some metadata => validateScreenShareMetadata metadata

/-- A zero interval stands for the default. -/
def orDefault (interval default : ℕ) : ℕ := if interval = 0 then default else interval

/-- The session of a new call. -/
def VoipSession.new (callId : CallId) (role : CallRole) (keyMaterial : CallKeyMaterial)
    (ratchetIntervalFrames pqRekeyIntervalSecs : ℕ) (shieldMode : Bool)
    (screenShareMeta : Option ScreenShareMetadata) (now : ℕ) (ssrc : UInt32) : VoipSession where
  callId
  role
  state := .active
  ssrc
  sendRatchet := .new keyMaterial.mediaKeySend keyMaterial.noncePrefixSend
  recvRatchet := .new keyMaterial.mediaKeyRecv keyMaterial.noncePrefixRecv
  headerKeySend := keyMaterial.headerKeySend
  headerKeyRecv := keyMaterial.headerKeyRecv
  rootSecret := keyMaterial.rootSecret
  sendFrameCounter := 0
  replayWindow := .new
  ratchetGeneration := 0
  ratchetIntervalFrames := orDefault ratchetIntervalFrames defaultRatchetIntervalFrames
  pqRekeyIntervalSecs := orDefault pqRekeyIntervalSecs defaultPqRekeyIntervalSecs
  shieldMode
  framesSinceRatchet := 0
  pendingRekey := none
  screenShareMeta
  framesSent := 0
  framesReceived := 0
  framesDropped := 0
  lastMetricsTimestamp := 0
  localRecordingConsent := 0
  localRecordingConsentTimestampUnix := 0
  remoteRecordingConsent := 0
  remoteRecordingConsentTimestampUnix := 0
  createdAtUnix := now

/-- `VoipSession::from_key_material_with_time_provider_and_screen_share`.  The last arguments are
the time and the random stream identifier. -/
def fromKeyMaterial (rawCallId : Bytes) (role : CallRole) (keyMaterial : CallKeyMaterial)
    (ratchetIntervalFrames pqRekeyIntervalSecs : ℕ) (shieldMode : Bool)
    (screenShareMeta : Option ScreenShareMetadata) (now : ℕ) (ssrc : UInt32) :
    Except ProtocolError VoipSession := do
  let callId ← checkCallId rawCallId
  validateScreenShare screenShareMeta
  .ok (.new callId role keyMaterial ratchetIntervalFrames pqRekeyIntervalSecs shieldMode
    screenShareMeta now ssrc)

theorem fromKeyMaterial_eq_ok {rawCallId : Bytes} {role : CallRole} {keyMaterial : CallKeyMaterial}
    {ratchetIntervalFrames pqRekeyIntervalSecs : ℕ} {shieldMode : Bool}
    {screenShareMeta : Option ScreenShareMetadata} {now : ℕ} {ssrc : UInt32} {s : VoipSession} :
    fromKeyMaterial rawCallId role keyMaterial ratchetIntervalFrames pqRekeyIntervalSecs shieldMode
        screenShareMeta now ssrc = .ok s ↔
      ∃ callId, rawCallId = callId.1 ∧ validateScreenShare screenShareMeta = .ok () ∧
        s = .new callId role keyMaterial ratchetIntervalFrames pqRekeyIntervalSecs shieldMode
          screenShareMeta now ssrc := by
  simp only [fromKeyMaterial, ↓except_seq_eq_ok, except_bind_eq_ok, checkCallId_eq_ok,
    Except.ok.injEq, @eq_comm _ s]

/-! ## Frames -/

/-- The ratchet step of `encrypt_frame`, once a generation has sent its frames. -/
def advanceIfDue (c : Crypto) : SessionM Unit := do
  let s ← get
  if s.ratchetIntervalFrames ≤ s.framesSinceRatchet then
    let sendRatchet ← lift (s.sendRatchet.advanceGeneration c)
    modify fun s => { s with sendRatchet, framesSinceRatchet := 0 }

/-- The key that encrypts the payload of a frame. -/
def VoipSession.mediaKey (c : Crypto) (s : VoipSession) (frameCounter : ℕ) : Key :=
  s.sendRatchet.frameKey c frameCounter

/-- The two encryptions of `encrypt_frame` and the frame they make. -/
def sealFrame (c : Crypto) (header : FrameHeader) (payload : Bytes) (s : VoipSession) :
    Except ProtocolError EncryptedFrame := do
  let frameCounter := s.sendFrameCounter
  let ratchetGen := s.sendRatchet.generation
  let aad := buildFrameAad s.callId s.ssrc frameCounter ratchetGen
  let noncePrefix := s.sendRatchet.noncePrefix
  let encryptedPayload ← MediaCrypto.encryptFrame c (s.mediaKey c frameCounter) noncePrefix
    frameCounter payload aad
  let encryptedHeader ← MediaCrypto.encryptHeader c s.headerKeySend noncePrefix frameCounter
    header.serialize
  .ok
    { callId := s.callId.1
      ssrc := s.ssrc
      frameCounter
      ratchetGeneration := ratchetGen
      encryptedPayload
      nonce := MediaCrypto.buildNonce noncePrefix frameCounter
      encryptedHeader }

/-- The checks of `encrypt_frame`. -/
def checkEncrypt (header : FrameHeader) (s : VoipSession) : Except ProtocolError Unit := do
  require (s.state = .active) (.voipCall "call is not active")
  require (header.ssrc = s.ssrc) (.voipMedia "frame header ssrc does not match active call ssrc")
  require (s.sendFrameCounter ≤ maxFrameCounter) (.voipMedia "send frame counter exhausted")

/-- A frame was sent. -/
def VoipSession.countSent (s : VoipSession) : VoipSession :=
  { s with
    sendFrameCounter := s.sendFrameCounter + 1
    framesSinceRatchet := s.framesSinceRatchet + 1
    framesSent := s.framesSent + 1 }

/-- `VoipSession::encrypt_frame`. -/
def encryptFrame (c : Crypto) (header : FrameHeader) (payload : Bytes) : SessionM EncryptedFrame := do
  reads (checkEncrypt header)
  advanceIfDue c
  let frame ← reads (sealFrame c header payload)
  modify VoipSession.countSent
  pure frame

/-- The checks of `decrypt_frame` before the replay window. -/
def checkDecrypt (encrypted : EncryptedFrame) (s : VoipSession) : Except ProtocolError Unit := do
  require (s.state = .active) (.voipCall "call is not active")
  require (encrypted.callId = s.callId.1) (.voipCall "call_id mismatch")
  require (encrypted.encryptedPayload.length ≤ maxVoipEncryptedPayloadSize)
    (.voipMedia "encrypted payload too large")
  require (encrypted.encryptedHeader.length ≤ maxVoipEncryptedHeaderSize)
    (.voipMedia "encrypted header too large")

/-- The decryptions of `decrypt_frame`: header, payload and the ratchet to go on with. -/
def openFrame (c : Crypto) (encrypted : EncryptedFrame) (s : VoipSession) :
    Except ProtocolError (FrameHeader × Bytes × RatchetSnapshot) := do
  let (mediaKey, snapshot) ← s.recvRatchet.speculativeFrameKey c encrypted.ratchetGeneration
    encrypted.frameCounter
  let noncePrefix := s.recvRatchet.noncePrefix
  let aad := buildFrameAad s.callId encrypted.ssrc encrypted.frameCounter
    encrypted.ratchetGeneration
  let payload ← MediaCrypto.decryptFrame c mediaKey noncePrefix encrypted.frameCounter
    encrypted.encryptedPayload aad
  let headerBytes ← MediaCrypto.decryptHeader c s.headerKeyRecv noncePrefix encrypted.frameCounter
    encrypted.encryptedHeader
  let header ← FrameHeader.deserialize headerBytes
  require (header.ssrc = encrypted.ssrc)
    (.voipMedia "frame header ssrc mismatch with encrypted envelope ssrc")
  .ok (header, payload, snapshot)

/-- The replay check of `decrypt_frame`: a frame that does not pass is counted as dropped. -/
def checkReplay (frameCounter : ℕ) : SessionM Unit := do
  let s ← get
  if s.replayWindow.check frameCounter then pure ()
  else
    modify fun s => { s with framesDropped := s.framesDropped + 1 }
    lift (.error (.replayAttack (s!"VoIP frame replay or too old: counter={frameCounter}, " ++
      s!"window_high={s.replayWindow.highWater}")))

/-- A frame was received. -/
def VoipSession.accept (frameCounter : ℕ) (snapshot : RatchetSnapshot) (s : VoipSession) :
    VoipSession :=
  { s with
    recvRatchet := s.recvRatchet.commitSnapshot snapshot
    replayWindow := s.replayWindow.mark frameCounter
    framesReceived := s.framesReceived + 1 }

/-- `VoipSession::decrypt_frame`. -/
def decryptFrame (c : Crypto) (encrypted : EncryptedFrame) : SessionM DecryptedFrame := do
  reads (checkDecrypt encrypted)
  checkReplay encrypted.frameCounter
  let (header, payload, snapshot) ← reads (openFrame c encrypted)
  modify (VoipSession.accept encrypted.frameCounter snapshot)
  pure
    { header
      payload
      frameCounter := encrypted.frameCounter
      ratchetGeneration := encrypted.ratchetGeneration }

/-! ## Rekeying -/

/-- New keys for an active call.  Frame counter and replay window stay. -/
def VoipSession.install (newKeys : CallKeyMaterial) (generation : ℕ) (s : VoipSession) :
    VoipSession :=
  { s with
    sendRatchet := .reset newKeys.mediaKeySend newKeys.noncePrefixSend
    recvRatchet := .reset newKeys.mediaKeyRecv newKeys.noncePrefixRecv
    headerKeySend := newKeys.headerKeySend
    headerKeyRecv := newKeys.headerKeyRecv
    rootSecret := newKeys.rootSecret
    ratchetGeneration := generation
    framesSinceRatchet := 0 }

/-- `VoipSession::apply_rekey`. -/
def applyRekey (newKeys : CallKeyMaterial) : SessionM Unit := do
  reads fun s => require (s.state = .active) (.voipCall "cannot rekey: call not active")
  modify fun s => s.install newKeys (s.ratchetGeneration + 1)

/-- The offer of `initiate_rekey` and the message that carries it. -/
def offerRekey (c : Crypto) (w : Wire) (identityEd25519Secret peerKyberPublic : Bytes)
    (ephSecret : Key) (kemRandom : Bytes) (s : VoipSession) :
    Except ProtocolError (CallInitOutput × Bytes) := do
  require (s.state = .active) (.voipRekey "cannot rekey: call not active")
  require (s.pendingRekey = none) (.voipRekey "rekey already pending")
  let (initOutput, newGen) ← rekeyInitiate c identityEd25519Secret peerKyberPublic s.callId
    s.rootSecret s.ratchetGeneration ephSecret kemRandom
  .ok (initOutput, w.rekey.encode
    { callId := s.callId.1
      rekeyGeneration := newGen
      ephemeralX25519Public := initOutput.ephemeralX25519Public
      kyberCiphertext := initOutput.kyberCiphertext
      signature := initOutput.signature
      keyConfirmationMac := initOutput.keyConfirmationMac })

/-- `VoipSession::initiate_rekey`. -/
def initiateRekey (c : Crypto) (w : Wire) (identityEd25519Secret peerKyberPublic : Bytes)
    (ephSecret : Key) (kemRandom : Bytes) : SessionM Bytes := do
  let (initOutput, message) ← reads (offerRekey c w identityEd25519Secret peerKyberPublic ephSecret
    kemRandom)
  modify fun s => { s with pendingRekey := some initOutput }
  pure message

/-- The Diffie–Hellman step of a rekey. -/
def rekeyDh (c : Crypto) (privateKey : Key) (peerPublic : Bytes) (sizeError zeroError : String) :
    Except ProtocolError Bytes := do
  require (peerPublic.length = x25519PublicKeyBytes) (.voipRekey sizeError)
  DhValidator.validateX25519PublicKey peerPublic
  require (isAllZero (c.x25519 privateKey.1 peerPublic) = false) (.voipRekey zeroError)
  .ok (c.x25519 privateKey.1 peerPublic)

/-- The generation the next rekey must have. -/
def expectedGeneration (s : VoipSession) : Except ProtocolError ℕ := do
  require (s.ratchetGeneration + 1 < 2 ^ 32) (.voipRekey "rekey generation overflow")
  .ok (s.ratchetGeneration + 1)

/-- The answer of `process_rekey`: the acknowledgement, the new keys and their generation. -/
def answerRekey (c : Crypto) (w : Wire) (rekeyBytes peerEd25519Public identityKyberSecret
    peerKyberPublic identityEd25519Secret : Bytes) (ephSecret : Key) (kemRandom : Bytes)
    (s : VoipSession) : Except ProtocolError (Bytes × CallKeyMaterial × ℕ) := do
  require (s.state = .active) (.voipRekey "cannot process rekey: call not active")
  require (rekeyBytes.length ≤ maxVoipSignalMessageSize) (.voipRekey "rekey message too large")
  let rekey ← (w.rekey.decode rekeyBytes).mapError fun e => .decode s!"CallRekey decode: {e}"
  require (rekey.callId = s.callId.1) (.voipRekey "rekey call_id mismatch")
  let expected ← expectedGeneration s
  require (rekey.rekeyGeneration = expected) (.voipRekey "unexpected rekey generation")
  verifyRekeySignature c peerEd25519Public s.callId rekey.rekeyGeneration
    rekey.ephemeralX25519Public rekey.kyberCiphertext rekey.signature
  let calleeKyberSs ← KyberInterop.decapsulate c rekey.kyberCiphertext identityKyberSecret
  require (rekey.keyConfirmationMac = computeRekeyMacBound c s.rootSecret calleeKyberSs
    voipKeyConfirmCallerInfo s.callId rekey.rekeyGeneration)
    (.voipRekey "rekey MAC verification failed")
  let ephPublic := c.x25519Public ephSecret.1
  let classicalSs ← rekeyDh c ephSecret rekey.ephemeralX25519Public "invalid rekey ephemeral key"
    "X25519 rekey DH produced all-zero output"
  let (respKyberCt, respKyberSs) ← KyberInterop.encapsulate c peerKyberPublic kemRandom
  let newKeys := rekeyComplete c s.rootSecret classicalSs (calleeKyberSs ++ respKyberSs) s.callId
    false s.shieldMode
  let ackSignature ← signRekeyMaterial c identityEd25519Secret s.callId rekey.rekeyGeneration
    ephPublic respKyberCt
  .ok (w.rekeyAck.encode
    { callId := s.callId.1
      rekeyGeneration := rekey.rekeyGeneration
      ephemeralX25519Public := ephPublic
      kyberCiphertext := respKyberCt
      signature := ackSignature
      keyConfirmationMac := computeRekeyMac c newKeys.rootSecret.1 voipKeyConfirmCalleeInfo s.callId
        rekey.rekeyGeneration }, newKeys, rekey.rekeyGeneration)

/-- `VoipSession::process_rekey`.  A pending rekey of its own stays pending. -/
def processRekey (c : Crypto) (w : Wire) (rekeyBytes peerEd25519Public identityKyberSecret
    peerKyberPublic identityEd25519Secret : Bytes) (ephSecret : Key) (kemRandom : Bytes) :
    SessionM Bytes := do
  let (ack, newKeys, generation) ← reads (answerRekey c w rekeyBytes peerEd25519Public
    identityKyberSecret peerKyberPublic identityEd25519Secret ephSecret kemRandom)
  modify (VoipSession.install newKeys generation)
  pure ack

/-- The checks of `process_rekey_ack`: the new keys and their generation. -/
def completeRekey (c : Crypto) (w : Wire) (ackBytes peerEd25519Public identityKyberSecret : Bytes)
    (s : VoipSession) : Except ProtocolError (CallKeyMaterial × ℕ) := do
  require (s.state = .active) (.voipRekey "cannot process rekey ack: call not active")
  require (ackBytes.length ≤ maxVoipSignalMessageSize) (.voipRekey "rekey ack message too large")
  let ack ← (w.rekeyAck.decode ackBytes).mapError fun e => .decode s!"CallRekeyAck decode: {e}"
  require (ack.callId = s.callId.1) (.voipRekey "rekey ack call_id mismatch")
  let expected ← expectedGeneration s
  require (ack.rekeyGeneration = expected) (.voipRekey "unexpected rekey ack generation")
  verifyRekeySignature c peerEd25519Public s.callId ack.rekeyGeneration ack.ephemeralX25519Public
    ack.kyberCiphertext ack.signature
  let pending ← orError s.pendingRekey (.voipRekey "no pending rekey")
  let classicalSs ← rekeyDh c pending.ephemeralX25519Private ack.ephemeralX25519Public
    "invalid rekey ack ephemeral key" "X25519 rekey ack DH produced all-zero output"
  let respKyberSs ← KyberInterop.decapsulate c ack.kyberCiphertext identityKyberSecret
  let newKeys := rekeyComplete c s.rootSecret classicalSs (pending.kyberSharedSecret ++ respKyberSs)
    s.callId true s.shieldMode
  require (ack.keyConfirmationMac = computeRekeyMac c newKeys.rootSecret.1 voipKeyConfirmCalleeInfo
    s.callId ack.rekeyGeneration) (.voipRekey "rekey ack MAC verification failed")
  .ok (newKeys, ack.rekeyGeneration)

/-- `VoipSession::process_rekey_ack`. -/
def processRekeyAck (c : Crypto) (w : Wire) (ackBytes peerEd25519Public identityKyberSecret : Bytes) :
    SessionM Unit := do
  let (newKeys, generation) ← reads (completeRekey c w ackBytes peerEd25519Public
    identityKyberSecret)
  modify fun s => { s.install newKeys generation with pendingRekey := none }

/-- `VoipSession::end_call`. -/
def endCall : SessionM Unit := modify fun s => { s with state := .ended }

/-! ## What a successful or failing call does -/

section Inversion

variable {c : Crypto} {w : Wire} {s s' : VoipSession} {header : FrameHeader} {payload : Bytes}
  {frame : EncryptedFrame} {out : DecryptedFrame} {e : ProtocolError}

/-- A new generation starts once the interval is used up. -/
theorem advanceIfDue_eq_ok :
    (advanceIfDue c).run s = .ok () s' ↔
      (s.framesSinceRatchet < s.ratchetIntervalFrames ∧ s' = s) ∨
        (s.ratchetIntervalFrames ≤ s.framesSinceRatchet ∧
          ∃ r, s.sendRatchet.advanceGeneration c = .ok r ∧
            s' = { s with sendRatchet := r, framesSinceRatchet := 0 }) := by
  rw [advanceIfDue, get_bind_run]
  by_cases hdue : s.ratchetIntervalFrames ≤ s.framesSinceRatchet
  · rw [if_pos hdue, lift_bind_eq_ok]
    simp only [not_lt.mpr hdue, false_and, false_or, hdue, true_and, modify_run,
      EStateM.Result.ok.injEq, eq_comm]
  · rw [if_neg hdue, pure_run]
    simp only [not_le.mp hdue, true_and, hdue, false_and, or_false, EStateM.Result.ok.injEq,
      eq_comm]

theorem state_of_advanceIfDue_error (h : (advanceIfDue c).run s = .error e s') : s' = s := by
  rw [advanceIfDue, get_bind_run] at h
  split_ifs at h with hdue
  · rcases lift_bind_eq_error.mp h with ⟨-, hs⟩ | ⟨r, -, hrun⟩
    · exact hs
    · cases hrun
  · cases h

theorem checkEncrypt_eq_ok {u : Unit} :
    checkEncrypt header s = .ok u ↔
      s.state = .active ∧ header.ssrc = s.ssrc ∧ s.sendFrameCounter ≤ maxFrameCounter := by
  simp only [checkEncrypt, except_bind_eq_ok, exists_const, require_eq_ok]

theorem encryptFrame_eq_ok :
    (encryptFrame c header payload).run s = .ok frame s' ↔
      checkEncrypt header s = .ok () ∧ ∃ s₁, (advanceIfDue c).run s = .ok () s₁ ∧
        sealFrame c header payload s₁ = .ok frame ∧ s' = s₁.countSent := by
  simp only [encryptFrame, bind_eq_ok, reads_eq_ok, modify_bind_run, pure_run, existsAndEq,
    Unique.exists_iff, EStateM.Result.ok.injEq, and_assoc, true_and, @eq_comm _ s']

/-- A failing `encrypt_frame` leaves at most a ratchet step behind, and that only if the frame could
not be sealed. -/
theorem state_of_encryptFrame_error (h : (encryptFrame c header payload).run s = .error e s') :
    s' = s ∨ (checkEncrypt header s = .ok () ∧ (advanceIfDue c).run s = .ok () s' ∧
      sealFrame c header payload s' = .error e) := by
  rw [encryptFrame] at h
  rcases reads_bind_eq_error.mp h with ⟨-, hs⟩ | ⟨_, hcheck, h⟩
  · exact .inl hs
  rcases bind_eq_error.mp h with hadvance | ⟨_, s₁, hadvance, h⟩
  · exact .inl (state_of_advanceIfDue_error hadvance)
  rcases reads_bind_eq_error.mp h with ⟨hseal, rfl⟩ | ⟨_, -, h⟩
  · exact .inr ⟨hcheck, hadvance, hseal⟩
  · cases h

theorem checkReplay_eq_ok {frameCounter : ℕ} {u : Unit} :
    (checkReplay frameCounter).run s = .ok u s' ↔
      s.replayWindow.check frameCounter = true ∧ s' = s := by
  rw [checkReplay, get_bind_run]
  split_ifs with hcheck
  · simp only [pure_run, EStateM.Result.ok.injEq, hcheck, true_and, @eq_comm _ s']
  · exact iff_of_false (by rintro ⟨⟩) fun h => hcheck h.1

theorem decryptFrame_eq_ok :
    (decryptFrame c frame).run s = .ok out s' ↔
      checkDecrypt frame s = .ok () ∧ s.replayWindow.check frame.frameCounter = true ∧
        ∃ opened, openFrame c frame s = .ok opened ∧
          out = ⟨opened.1, opened.2.1, frame.frameCounter, frame.ratchetGeneration⟩ ∧
            s' = s.accept frame.frameCounter opened.2.2 := by
  simp only [decryptFrame, bind_eq_ok, reads_eq_ok, checkReplay_eq_ok, modify_bind_run, pure_run,
    existsAndEq, Unique.exists_iff, EStateM.Result.ok.injEq, and_assoc, true_and, @eq_comm _ s',
    @eq_comm _ out]

/-- A failing `decrypt_frame` at most counts a dropped frame. -/
theorem state_of_decryptFrame_error (h : (decryptFrame c frame).run s = .error e s') :
    s' = s ∨ s' = { s with framesDropped := s.framesDropped + 1 } := by
  rw [decryptFrame] at h
  rcases reads_bind_eq_error.mp h with ⟨-, hs⟩ | ⟨_, -, h⟩
  · exact .inl hs
  rcases bind_eq_error.mp h with hreplay | ⟨_, s₁, hreplay, hrest⟩
  · rw [checkReplay, get_bind_run] at hreplay
    split_ifs at hreplay with hcheck
    · cases hreplay
    · rw [modify_bind_run] at hreplay
      exact .inr (lift_eq_error.mp hreplay).2
  · obtain ⟨-, rfl⟩ := checkReplay_eq_ok.mp hreplay
    rcases reads_bind_eq_error.mp hrest with ⟨-, hs⟩ | ⟨_, -, hend⟩
    · exact .inl hs
    · cases hend

theorem initiateRekey_eq_ok {secret peerKyberPublic kemRandom message : Bytes} {ephSecret : Key} :
    (initiateRekey c w secret peerKyberPublic ephSecret kemRandom).run s = .ok message s' ↔
      ∃ init, offerRekey c w secret peerKyberPublic ephSecret kemRandom s = .ok (init, message) ∧
        s' = { s with pendingRekey := some init } := by
  simp only [initiateRekey, reads_bind_eq_ok, modify_bind_run, pure_run, EStateM.Result.ok.injEq,
    Prod.exists, existsAndEq, true_and, @eq_comm _ s']

theorem processRekey_eq_ok {rekeyBytes peerPublic kyberSecret peerKyberPublic secret kemRandom ack :
    Bytes} {ephSecret : Key} :
    (processRekey c w rekeyBytes peerPublic kyberSecret peerKyberPublic secret ephSecret
        kemRandom).run s = .ok ack s' ↔
      ∃ newKeys generation, answerRekey c w rekeyBytes peerPublic kyberSecret peerKyberPublic secret
          ephSecret kemRandom s = .ok (ack, newKeys, generation) ∧
        s' = s.install newKeys generation := by
  simp only [processRekey, reads_bind_eq_ok, modify_bind_run, pure_run, EStateM.Result.ok.injEq,
    Prod.exists, existsAndEq, true_and, @eq_comm _ s']

theorem processRekeyAck_eq_ok {ackBytes peerPublic kyberSecret : Bytes} {u : PUnit} :
    (processRekeyAck c w ackBytes peerPublic kyberSecret).run s = .ok u s' ↔
      ∃ newKeys generation, completeRekey c w ackBytes peerPublic kyberSecret s =
          .ok (newKeys, generation) ∧
        s' = { s.install newKeys generation with pendingRekey := none } := by
  simp only [processRekeyAck, reads_bind_eq_ok, modify_run, EStateM.Result.ok.injEq, Prod.exists,
    true_and, @eq_comm _ s']

end Inversion

end AuraProtocol.Voip
