import AuraProtocol.Session.Instance
import AuraProtocol.Voip.Session
import AuraProtocol.Voip.Setup

/-!
# An instance of the call messages

Codes for the messages of a call, so that the wire format assumed of them exists, and the two
sessions of an example call.
-/

namespace AuraProtocol.Voip

open Serial

/-- Code of a 32-bit number. -/
def serialUInt32 : Serial UInt32 :=
  nat.iso UInt32.ofNat UInt32.toNat fun _ => UInt32.ofNat_toNat

/-- Code of a `ScreenShareMetadata`. -/
def serialScreenShare : Serial ScreenShareMetadata :=
  (serialUInt32.prod (serialUInt32.prod (serialUInt32.prod (option bytes)))).iso
    (fun t => ⟨t.1, t.2.1, t.2.2.1, t.2.2.2⟩)
    (fun m => (m.width, m.height, m.frameRate, m.codecHint)) (fun _ => rfl)

/-- Code of the fields that both rekey messages have. -/
def serialRekeyFields : Serial (Bytes × ℕ × Bytes × Bytes × Bytes × Bytes) :=
  bytes.prod (nat.prod (bytes.prod (bytes.prod (bytes.prod bytes))))

/-- Code of a `CallRekey`. -/
def serialCallRekey : Serial CallRekey :=
  serialRekeyFields.iso (fun t => ⟨t.1, t.2.1, t.2.2.1, t.2.2.2.1, t.2.2.2.2.1, t.2.2.2.2.2⟩)
    (fun m => (m.callId, m.rekeyGeneration, m.ephemeralX25519Public, m.kyberCiphertext, m.signature,
      m.keyConfirmationMac)) (fun _ => rfl)

/-- Code of a `CallRekeyAck`. -/
def serialCallRekeyAck : Serial CallRekeyAck :=
  serialRekeyFields.iso (fun t => ⟨t.1, t.2.1, t.2.2.1, t.2.2.2.1, t.2.2.2.2.1, t.2.2.2.2.2⟩)
    (fun m => (m.callId, m.rekeyGeneration, m.ephemeralX25519Public, m.kyberCiphertext, m.signature,
      m.keyConfirmationMac)) (fun _ => rfl)

/-- The fields of a `VoipSessionState` up to the replay bitmap. -/
def serialStateHead : Serial (ℕ × Bytes × ℕ × UInt32 × ℕ × ℕ × ℕ × ℕ × ℕ × Bool × ℕ × Bytes × ℕ ×
    Bytes × Bytes × ℕ × ℕ × Bytes) :=
  nat.prod (bytes.prod (nat.prod (serialUInt32.prod (nat.prod (nat.prod (nat.prod (nat.prod (nat.prod
    (bool.prod (nat.prod (bytes.prod (nat.prod (bytes.prod (bytes.prod (nat.prod (nat.prod
      bytes))))))))))))))))

/-- The remaining fields of a `VoipSessionState`. -/
def serialStateRest : Serial (Option ScreenShareMetadata × Option ℤ × Option ℤ × ℕ × ℕ × ℕ × ℕ × ℕ ×
    ℕ × ℕ × ℕ) :=
  (option serialScreenShare).prod ((option int).prod ((option int).prod (nat.prod (nat.prod (nat.prod
    (nat.prod (nat.prod (nat.prod (nat.prod nat)))))))))

/-- Code of a `VoipSessionState`. -/
def serialSessionState : Serial VoipSessionState :=
  (serialStateHead.prod serialStateRest).iso
    (fun (⟨version, callId, role, ssrc, sendFrameCounter, replayHighWater, ratchetGeneration,
        ratchetInterval, pqRekeyInterval, shieldMode, framesSinceRatchet, rootSecret, externalCounter,
        sendChain, recvChain, sendGeneration, recvGeneration, replayBitmap⟩,
      ⟨screenShare, localConsent, remoteConsent, totalRekeys, createdAt, framesSent, framesReceived,
        framesDropped, lastMetrics, remoteTimestamp, localTimestamp⟩) =>
      ⟨version, callId, role, ssrc, sendFrameCounter, replayHighWater, ratchetGeneration,
        ratchetInterval, pqRekeyInterval, shieldMode, framesSinceRatchet, rootSecret, externalCounter,
        sendChain, recvChain, sendGeneration, recvGeneration, replayBitmap, screenShare, localConsent,
        remoteConsent, totalRekeys, createdAt, framesSent, framesReceived, framesDropped, lastMetrics,
        remoteTimestamp, localTimestamp⟩)
    (fun s => (⟨s.stateVersion, s.callId, s.role, s.ssrc, s.sendFrameCounter, s.replayHighWater,
        s.ratchetGeneration, s.ratchetIntervalFrames, s.pqRekeyIntervalSecs, s.shieldMode,
        s.framesSinceRatchet, s.rootSecret, s.externalCounter, s.sendRatchetChainKey,
        s.recvRatchetChainKey, s.sendRatchetGeneration, s.recvRatchetGeneration, s.replayBitmap⟩,
      ⟨s.screenShareMeta, s.localRecordingConsent, s.remoteRecordingConsent, s.totalRekeyCount,
        s.createdAtUnix, s.framesSent, s.framesReceived, s.framesDropped, s.lastMetricsTimestamp,
        s.remoteRecordingConsentTimestampUnix, s.localRecordingConsentTimestampUnix⟩))
    (fun _ => rfl)

/-- Codecs of the messages of a call. -/
def Wire.plain : Wire where
  rekey := .ofSerial serialCallRekey
  rekeyAck := .ofSerial serialCallRekeyAck
  sessionState := .ofSerial serialSessionState

/-! ## An example call -/

/-- The root secret of the example call. -/
def sampleRoot : Key := ⟨List.replicate 32 7, rfl⟩

/-- The keys of a party of the example call. -/
def sampleKeys (role : CallRole) : CallKeyMaterial :=
  deriveCallKeys .transparent sampleRoot sampleCallId (role = .caller) true

theorem sampleKeys_callee : sampleKeys .callee = (sampleKeys .caller).mirror :=
  deriveCallKeys_not .transparent sampleRoot sampleCallId true true

/-- A session of the example call, which starts a new generation after every second frame. -/
def sampleSession (role : CallRole) : VoipSession :=
  .new sampleCallId role (sampleKeys role) 2 60 true none 1000 17

theorem fromKeyMaterial_sampleSession (role : CallRole) :
    fromKeyMaterial sampleCallId.1 role (sampleKeys role) 2 60 true none 1000 17 =
      .ok (sampleSession role) :=
  fromKeyMaterial_eq_ok.mpr ⟨sampleCallId, rfl, rfl, rfl⟩

end AuraProtocol.Voip
