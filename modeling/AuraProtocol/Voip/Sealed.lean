import AuraProtocol.Voip.Session

/-!
# Sealed state of a call

`export_sealed_state` and `from_sealed_state_with_time_provider`.  The chain keys and the
replay window are stored as they are; header keys and nonce prefixes are not stored but
derived again from the root secret and the role in the call.  A pending rekey is not stored.
-/

namespace AuraProtocol.Voip

open Fallible

variable {c : Crypto} {externalCounter : UInt64}

def voipProtocolVersion : ℕ := 2
def voipStateHmacInfo : Bytes := ascii "Aura-VoIP-StateHMAC"
def maxFutureTimestampSkewSecs : ℕ := 300

/-- The nonce of a sealed state. -/
abbrev SealNonce := { n : Bytes // n.length = aesGcmNonceBytes }

/-! ## Export -/

/-- The bitmap of a replay window, word by word. -/
def replayBitmapBytes (w : ReplayWindow) : Bytes :=
  (w.bitmap.toList.map fun word => leBytes 8 word.toNat).flatten

/-- The number that stands for a role. -/
def CallRole.toNat : CallRole → ℕ
  | .caller => 1
  | .callee => 2

/-- The state that an export stores. -/
def VoipSession.toState (s : VoipSession) (externalCounter : UInt64) : VoipSessionState where
  stateVersion := voipProtocolVersion
  callId := s.callId.1
  role := s.role.toNat
  ssrc := s.ssrc
  sendFrameCounter := s.sendFrameCounter
  replayHighWater := s.replayWindow.highWater
  ratchetGeneration := s.ratchetGeneration
  ratchetIntervalFrames := s.ratchetIntervalFrames
  pqRekeyIntervalSecs := s.pqRekeyIntervalSecs
  shieldMode := s.shieldMode
  framesSinceRatchet := s.framesSinceRatchet
  rootSecret := s.rootSecret.1
  externalCounter := externalCounter.toNat
  sendRatchetChainKey := s.sendRatchet.chainKey.1
  recvRatchetChainKey := s.recvRatchet.chainKey.1
  sendRatchetGeneration := s.sendRatchet.generation
  recvRatchetGeneration := s.recvRatchet.generation
  replayBitmap := replayBitmapBytes s.replayWindow
  screenShareMeta := s.screenShareMeta
  localRecordingConsent := some s.localRecordingConsent
  remoteRecordingConsent := some s.remoteRecordingConsent
  totalRekeyCount := s.ratchetGeneration
  createdAtUnix := s.createdAtUnix
  framesSent := s.framesSent
  framesReceived := s.framesReceived
  framesDropped := s.framesDropped
  lastMetricsTimestamp := s.lastMetricsTimestamp
  remoteRecordingConsentTimestampUnix := s.remoteRecordingConsentTimestampUnix
  localRecordingConsentTimestampUnix := s.localRecordingConsentTimestampUnix

/-- The HMAC of a sealed state. -/
def sealedStateHmac (c : Crypto) (stateKey : Bytes) (externalCounter : UInt64) (ct nonce : Bytes) :
    Bytes :=
  c.hmacSha256 (derive c stateKey (leBytes 8 externalCounter.toNat) voipStateHmacInfo).1 (ct ++ nonce)

/-- `VoipSession::export_sealed_state`. -/
def exportSealedState (c : Crypto) (w : Wire) (stateKey : Bytes) (externalCounter : UInt64)
    (nonce : SealNonce) (s : VoipSession) : Except ProtocolError Bytes := do
  require (externalCounter ≠ 0)
    (.invalidInput "sealed state external counter must be greater than zero")
  require (s.state ≠ .ended) (.voipCall "cannot export ended call state")
  let ct ← AesGcm.encrypt c stateKey nonce.1 (w.sessionState.encode (s.toState externalCounter)) []
  .ok (leBytes 8 externalCounter.toNat ++ nonce.1 ++
    sealedStateHmac c stateKey externalCounter ct nonce.1 ++ ct)

/-! ## Restoration -/

def validateRecordingConsentValue (consent : ℤ) : Except ProtocolError Unit :=
  require (0 ≤ consent ∧ consent ≤ 2) (.invalidInput "recording consent must be 0, 1, or 2")

/-- The check of a consent that may be missing. -/
def validateRecordingConsent : Option ℤ → Except ProtocolError Unit
  | none => .ok ()
  | some consent => validateRecordingConsentValue consent

def validateTimestampNotTooFarInFuture (timestampUnix : ℕ) (label : String) (now : ℕ) :
    Except ProtocolError Unit :=
  require (timestampUnix ≤ min (now + maxFutureTimestampSkewSecs) u64Max) (.voipCall
    s!"{label} timestamp {timestampUnix} is too far in the future (now {now})")

/-- The check of a timestamp that is zero when it is not set. -/
def validateConsentTimestamp (timestampUnix : ℕ) (label : String) (now : ℕ) :
    Except ProtocolError Unit :=
  if 0 < timestampUnix then validateTimestampNotTooFarInFuture timestampUnix label now else .ok ()

/-- The role a number stands for. -/
def roleOfNat (n : ℕ) : Except ProtocolError CallRole :=
  if n = 1 then .ok .caller
  else if n = 2 then .ok .callee
  else .error (.voipCall "invalid role in sealed state")

/-- A stored ratchet, or the first one if none was stored and the stream is unused. -/
def restoreRatchet (chainKey : Bytes) (generation : ℕ) (unused : Bool) (missing : String)
    (mediaKey : Key) (noncePrefix : NoncePrefix) : Except ProtocolError MediaKeyRatchet :=
  if chainKey = [] then do
    require (unused = true) (.voipCall missing)
    .ok (.new mediaKey noncePrefix)
  else MediaKeyRatchet.fromState chainKey generation noncePrefix

/-- The replay window of a stored bitmap. -/
def restoreWindow (highWater : ℕ) (bitmap : Bytes) : Except ProtocolError ReplayWindow := do
  require (bitmap ≠ []) (.voipCall "sealed state replay bitmap missing")
  require (bitmap.length = bitmapWords * 8) (.voipCall "invalid replay bitmap size in sealed state")
  .ok ⟨highWater, Vector.ofFn fun i => BitVec.ofNat 64 (leNat ((bitmap.drop (i * 8)).take 8))⟩

/-- The session of a decrypted state. -/
def fromState (c : Crypto) (now : ℕ) (state : VoipSessionState) : Except ProtocolError VoipSession := do
  let callId ← (checkCallId state.callId).mapError fun _ =>
    .voipCall "invalid call_id in sealed state"
  let role ← roleOfNat state.role
  if hroot : state.rootSecret.length = rootKeyBytes then
    let keys := deriveCallKeys c ⟨state.rootSecret, hroot⟩ callId (role = .caller) state.shieldMode
    let sendRatchet ← restoreRatchet state.sendRatchetChainKey state.sendRatchetGeneration
      (state.sendFrameCounter = 0 ∧ state.framesSinceRatchet = 0)
      "sealed state missing send ratchet state" keys.mediaKeySend keys.noncePrefixSend
    let recvRatchet ← restoreRatchet state.recvRatchetChainKey state.recvRatchetGeneration
      (state.replayHighWater = 0) "sealed state missing recv ratchet state" keys.mediaKeyRecv
      keys.noncePrefixRecv
    let replayWindow ← restoreWindow state.replayHighWater state.replayBitmap
    validateScreenShare state.screenShareMeta
    validateRecordingConsent state.localRecordingConsent
    validateRecordingConsent state.remoteRecordingConsent
    validateConsentTimestamp state.localRecordingConsentTimestampUnix "local recording consent" now
    validateConsentTimestamp state.remoteRecordingConsentTimestampUnix "remote recording consent" now
    .ok
      { callId
        role
        state := .active
        ssrc := state.ssrc
        sendRatchet
        recvRatchet
        headerKeySend := keys.headerKeySend
        headerKeyRecv := keys.headerKeyRecv
        rootSecret := ⟨state.rootSecret, hroot⟩
        sendFrameCounter := state.sendFrameCounter
        replayWindow
        ratchetGeneration := state.ratchetGeneration
        ratchetIntervalFrames := orDefault state.ratchetIntervalFrames defaultRatchetIntervalFrames
        pqRekeyIntervalSecs := orDefault state.pqRekeyIntervalSecs defaultPqRekeyIntervalSecs
        shieldMode := state.shieldMode
        framesSinceRatchet := state.framesSinceRatchet
        pendingRekey := none
        screenShareMeta := state.screenShareMeta
        framesSent := state.framesSent
        framesReceived := state.framesReceived
        framesDropped := state.framesDropped
        lastMetricsTimestamp := state.lastMetricsTimestamp
        localRecordingConsent := state.localRecordingConsent.getD 0
        localRecordingConsentTimestampUnix := state.localRecordingConsentTimestampUnix
        remoteRecordingConsent := state.remoteRecordingConsent.getD 0
        remoteRecordingConsentTimestampUnix := state.remoteRecordingConsentTimestampUnix
        createdAtUnix := orDefault state.createdAtUnix now }
  else .error (.voipCall "invalid root secret size in sealed state")

/-- The size of what stands before the ciphertext of a sealed state. -/
def sealedHeaderSize : ℕ := 8 + aesGcmNonceBytes + hmacBytes

/-- `VoipSession::from_sealed_state_with_time_provider`. -/
def fromSealedState (c : Crypto) (w : Wire) (data stateKey : Bytes) (minExternalCounter : UInt64)
    (now : ℕ) : Except ProtocolError VoipSession := do
  require (sealedHeaderSize + aesGcmTagBytes ≤ data.length) (.voipCall "sealed state too short")
  require (data.length ≤ maxVoipSignalMessageSize + maxVoipEncryptedPayloadSize)
    (.voipCall "sealed state too large")
  let storedCounter := UInt64.ofNat (leNat (data.take 8))
  require (storedCounter ≠ 0)
    (.invalidInput "sealed state external counter must be greater than zero")
  require (minExternalCounter ≤ storedCounter) (.voipCall "sealed state rollback detected")
  let nonce := (data.drop 8).take aesGcmNonceBytes
  let storedHmac := (data.drop (8 + aesGcmNonceBytes)).take hmacBytes
  let ct := data.drop sealedHeaderSize
  require (storedHmac = sealedStateHmac c stateKey storedCounter ct nonce)
    (.voipCall "sealed state HMAC mismatch")
  let stateBytes ← AesGcm.decrypt c stateKey nonce ct []
  let state ← (w.sessionState.decode stateBytes).mapError fun e =>
    .decode s!"VoipSessionState decode: {e}"
  require (state.stateVersion = voipProtocolVersion) (.voipCall
    (s!"unsupported sealed VoIP state version: expected {voipProtocolVersion}, " ++
      s!"got {state.stateVersion}"))
  require (state.externalCounter = storedCounter.toNat)
    (.voipCall "sealed state external counter mismatch")
  fromState c now state

/-! ## What a restored session is -/

/-- The session that restoring an export of `s` gives. -/
def VoipSession.restored (c : Crypto) (now : ℕ) (s : VoipSession) : VoipSession :=
  let keys := deriveCallKeys c s.rootSecret s.callId (s.role = .caller) s.shieldMode
  { s with
    state := .active
    sendRatchet := { s.sendRatchet with noncePrefix := keys.noncePrefixSend }
    recvRatchet := { s.recvRatchet with noncePrefix := keys.noncePrefixRecv }
    headerKeySend := keys.headerKeySend
    headerKeyRecv := keys.headerKeyRecv
    ratchetIntervalFrames := orDefault s.ratchetIntervalFrames defaultRatchetIntervalFrames
    pqRekeyIntervalSecs := orDefault s.pqRekeyIntervalSecs defaultPqRekeyIntervalSecs
    pendingRekey := none
    createdAtUnix := orDefault s.createdAtUnix now }

/-- The checks of a restoration that depend on the session. -/
structure VoipSession.Restorable (now : ℕ) (s : VoipSession) : Prop where
  screenShare : validateScreenShare s.screenShareMeta = .ok ()
  localConsent : validateRecordingConsentValue s.localRecordingConsent = .ok ()
  remoteConsent : validateRecordingConsentValue s.remoteRecordingConsent = .ok ()
  localTimestamp : validateConsentTimestamp s.localRecordingConsentTimestampUnix
    "local recording consent" now = .ok ()
  remoteTimestamp : validateConsentTimestamp s.remoteRecordingConsentTimestampUnix
    "remote recording consent" now = .ok ()

theorem roleOfNat_toNat (role : CallRole) : roleOfNat role.toNat = .ok role := by
  cases role <;> rfl

theorem restoreRatchet_chainKey (r : MediaKeyRatchet) (unused : Bool) (missing : String)
    (mediaKey : Key) (noncePrefix : NoncePrefix) :
    restoreRatchet r.chainKey.1 r.generation unused missing mediaKey noncePrefix =
      .ok { r with noncePrefix } := by
  have hne : r.chainKey.1 ≠ [] := by
    intro h
    have hlen := r.chainKey.2
    rw [h] at hlen
    exact absurd hlen (by decide)
  rw [restoreRatchet, if_neg hne, MediaKeyRatchet.fromState, dif_pos r.chainKey.2]

/-- The stored bitmap gives back the window. -/
theorem restoreWindow_replayBitmapBytes (w : ReplayWindow) :
    restoreWindow w.highWater (replayBitmapBytes w) = .ok w := by
  have hword : ∀ v : BitVec 64, BitVec.ofNat 64 (leNat (leBytes 8 v.toNat)) = v := by
    intro v
    rw [leNat_leBytes 8 v.toNat v.isLt, BitVec.ofNat_toNat, BitVec.setWidth_eq]
  obtain ⟨high, ⟨⟨words⟩, hsize⟩⟩ := w
  obtain ⟨a, b, rfl⟩ := List.length_eq_two.mp hsize
  have hbytes : replayBitmapBytes ⟨high, ⟨⟨[a, b]⟩, rfl⟩⟩ =
      leBytes 8 a.toNat ++ leBytes 8 b.toNat := by
    change ([a, b].map fun word => leBytes 8 word.toNat).flatten = _
    simp
  have hlen : (leBytes 8 a.toNat ++ leBytes 8 b.toNat).length = bitmapWords * 8 := by
    simp [bitmapWords]
  have hne : leBytes 8 a.toNat ++ leBytes 8 b.toNat ≠ [] := by
    intro h
    rw [h] at hlen
    exact absurd hlen (by decide)
  rw [hbytes, restoreWindow, except_seq_eq_ok, except_seq_eq_ok]
  refine ⟨require_eq_ok.mpr hne, require_eq_ok.mpr hlen, congrArg Except.ok ?_⟩
  rw [ReplayWindow.mk.injEq]
  refine ⟨rfl, Vector.ext fun i hi => ?_⟩
  rw [Vector.getElem_ofFn]
  have hi' : i < 2 := hi
  rcases (by omega : i = 0 ∨ i = 1) with rfl | rfl
  · rw [Nat.zero_mul, List.drop_zero, List.take_left' (length_leBytes _ _), hword]
    rfl
  · rw [Nat.one_mul, List.drop_left' (length_leBytes _ _),
      List.take_of_length_le (length_leBytes _ _).le, hword]
    rfl

theorem fromState_toState {now : ℕ} {s s' : VoipSession} :
    fromState c now (s.toState externalCounter) = .ok s' ↔
      s.Restorable now ∧ s' = s.restored c now := by
  have hid : (checkCallId (s.toState externalCounter).callId).mapError (fun _ =>
      ProtocolError.voipCall "invalid call_id in sealed state") = .ok s.callId :=
    mapError_eq_ok.mpr (checkCallId_eq_ok.mpr rfl)
  have hrole : roleOfNat (s.toState externalCounter).role = .ok s.role := roleOfNat_toNat _
  have hroot : (s.toState externalCounter).rootSecret.length = rootKeyBytes := s.rootSecret.2
  have hsend := restoreRatchet_chainKey s.sendRatchet
  have hrecv := restoreRatchet_chainKey s.recvRatchet
  have hwindow := restoreWindow_replayBitmapBytes s.replayWindow
  simp only [fromState, hid, hrole, ↓except_bind_eq_ok, Except.ok.injEq, exists_eq_left']
  rw [dif_pos hroot]
  simp only [VoipSession.toState, hsend, hrecv, hwindow, ↓except_seq_eq_ok, except_bind_eq_ok,
    Except.ok.injEq, exists_eq_left']
  constructor
  · rintro ⟨hshare, hlocal, hremote, hlocalTime, hremoteTime, rfl⟩
    exact ⟨⟨hshare, hlocal, hremote, hlocalTime, hremoteTime⟩, rfl⟩
  · rintro ⟨⟨hshare, hlocal, hremote, hlocalTime, hremoteTime⟩, rfl⟩
    exact ⟨hshare, hlocal, hremote, hlocalTime, hremoteTime, rfl⟩

theorem exportSealedState_eq_ok {w : Wire} {stateKey data : Bytes} {nonce : SealNonce}
    {s : VoipSession} :
    exportSealedState c w stateKey externalCounter nonce s = .ok data ↔
      externalCounter ≠ 0 ∧ s.state ≠ .ended ∧
        ∃ ct, AesGcm.encrypt c stateKey nonce.1
            (w.sessionState.encode (s.toState externalCounter)) [] = .ok ct ∧
          leBytes 8 externalCounter.toNat ++ nonce.1 ++
            sealedStateHmac c stateKey externalCounter ct nonce.1 ++ ct = data := by
  simp only [exportSealedState, except_bind_eq_ok, require_eq_ok, exists_const, Except.ok.injEq]

/-- The parts of a sealed state are found where the export put them. -/
theorem sealed_parts {counter nonce hmac ct data : Bytes} (hcounter : counter.length = 8)
    (hnonce : nonce.length = aesGcmNonceBytes) (hhmac : hmac.length = hmacBytes)
    (h : counter ++ nonce ++ hmac ++ ct = data) :
    data.take 8 = counter ∧ (data.drop 8).take aesGcmNonceBytes = nonce ∧
      (data.drop (8 + aesGcmNonceBytes)).take hmacBytes = hmac ∧ data.drop sealedHeaderSize = ct := by
  subst h
  refine ⟨?_, ?_, ?_, ?_⟩
  · rw [List.append_assoc, List.append_assoc, List.take_left' hcounter]
  · rw [List.append_assoc, List.append_assoc, List.drop_left' hcounter, List.take_left' hnonce]
  · rw [List.append_assoc (counter ++ nonce), List.drop_left', List.take_left' hhmac]
    rw [List.length_append, hcounter, hnonce]
  · rw [List.drop_left']
    rw [List.length_append, List.length_append, hcounter, hnonce, hhmac, sealedHeaderSize]

/-- Restoring an export gives the restored session, if its size, the counter and the session pass
the checks. -/
theorem fromSealedState_of_export (hc : c.Correct) {w : Wire} {stateKey data : Bytes}
    {minExternalCounter : UInt64} {nonce : SealNonce} {s s' : VoipSession} {now : ℕ}
    (h : exportSealedState c w stateKey externalCounter nonce s = .ok data) :
    fromSealedState c w data stateKey minExternalCounter now = .ok s' ↔
      (data.length ≤ maxVoipSignalMessageSize + maxVoipEncryptedPayloadSize ∧
        minExternalCounter ≤ externalCounter ∧ s.Restorable now) ∧ s' = s.restored c now := by
  obtain ⟨hcounter, -, ct, hct, hdata⟩ := exportSealedState_eq_ok.mp h
  have hdec := AesGcm.decrypt_of_encrypt hc hct
  have htag := (AesGcm.decrypt_eq_ok.mp hdec).2.1
  obtain ⟨hparts, hnonce, hhmac, hrest⟩ :=
    sealed_parts (length_leBytes _ _) nonce.2 (c.length_hmacSha256 _ _) hdata
  have hstored : UInt64.ofNat (leNat (data.take 8)) = externalCounter := by
    rw [hparts, leNat_leBytes 8 _ externalCounter.toNat_lt, UInt64.ofNat_toNat]
  have hsize : sealedHeaderSize + aesGcmTagBytes ≤ data.length := by
    have hlen := congrArg List.length hrest
    rw [List.length_drop] at hlen
    rw [aesGcmTagBytes] at htag ⊢
    omega
  have hdecode : (w.sessionState.decode (w.sessionState.encode (s.toState externalCounter))).mapError
      (fun e => ProtocolError.decode s!"VoipSessionState decode: {e}") =
        .ok (s.toState externalCounter) := mapError_eq_ok.mpr (w.sessionState.decode_encode _)
  rw [fromSealedState, except_seq_eq_ok, except_seq_eq_ok, require_eq_ok, require_eq_ok]
  dsimp only
  rw [hstored, hnonce, hhmac, hrest, except_seq_eq_ok, except_seq_eq_ok, except_seq_eq_ok,
    require_eq_ok, require_eq_ok, require_eq_ok, except_bind_eq_ok]
  simp only [hdec, Except.ok.injEq, exists_eq_left']
  rw [except_bind_eq_ok]
  simp only [hdecode, Except.ok.injEq, exists_eq_left']
  rw [except_seq_eq_ok, except_seq_eq_ok, require_eq_ok, require_eq_ok, fromState_toState]
  constructor
  · rintro ⟨-, hlarge, -, hmin, -, -, -, hrestorable, hs'⟩
    exact ⟨⟨hlarge, hmin, hrestorable⟩, hs'⟩
  · rintro ⟨⟨hlarge, hmin, hrestorable⟩, hs'⟩
    exact ⟨hsize, hlarge, hcounter, hmin, rfl, rfl, rfl, hrestorable, hs'⟩

end AuraProtocol.Voip
