import AuraProtocol.Voip.Instance
import AuraProtocol.Voip.Sealed

/-!
# Recording consent

`build_recording_consent_message` and `process_recording_consent_message` of
`protocol/voip/mod.rs`.  A party signs its consent together with a timestamp, and the peer takes a
message over only if its timestamp is later than that of the consent it has.  So the consent a
session ends up with does not depend on the order in which messages arrive, nor on how often:
it is that of the latest message (`consent_over_deliveries`).
-/

namespace AuraProtocol.Voip

open Fallible List

/-! ## The messages -/

structure RecordingConsentMessage where
  callId : Bytes
  consent : ℤ
  timestampUnix : ℕ
  signature : Bytes
  deriving DecidableEq

variable {rest : List RecordingConsentMessage}

/-- `append_recording_consent_signature_input`: what it appends. -/
def recordingConsentSignatureInput (callId : Bytes) (consent : ℤ) (timestampUnix : ℕ) : Bytes :=
  ascii "Aura-VoIP-RecordingConsent-v1" ++ callId ++ leBytes 4 (consent % 2 ^ 32).toNat ++
    leBytes 8 timestampUnix

def signRecordingConsentMessage (c : Crypto) (identityEd25519Secret callId : Bytes) (consent : ℤ)
    (timestampUnix : ℕ) : Except ProtocolError Bytes := do
  require (identityEd25519Secret.length = ed25519SecretKeyBytes)
    (.voipCall "invalid Ed25519 secret key size")
  require (c.ed25519KeypairValid identityEd25519Secret = true)
    (.voipCall "invalid Ed25519 keypair bytes")
  .ok (c.ed25519Sign identityEd25519Secret
    (recordingConsentSignatureInput callId consent timestampUnix))

def verifyRecordingConsentSignature (c : Crypto) (peerEd25519Public callId : Bytes) (consent : ℤ)
    (timestampUnix : ℕ) (signature : Bytes) : Except ProtocolError Unit := do
  require (peerEd25519Public.length = ed25519PublicKeyBytes)
    (.voipCall "invalid Ed25519 public key size")
  require (signature.length = ed25519SignatureBytes)
    (.voipCall "invalid recording consent signature size")
  require (c.ed25519KeyValid peerEd25519Public = true) (.voipCall "invalid Ed25519 public key")
  require (c.ed25519Verify peerEd25519Public
      (recordingConsentSignatureInput callId consent timestampUnix) signature = true)
    (.voipCall "recording consent signature verification failed")

/-- The checks that both functions make of a consent and its timestamp. -/
def checkConsent (consent : ℤ) (timestampUnix now : ℕ) : Except ProtocolError Unit := do
  validateRecordingConsentValue consent
  require (timestampUnix ≠ 0) (.voipCall "recording consent timestamp must be > 0")
  validateTimestampNotTooFarInFuture timestampUnix "recording consent" now

/-- The message of `build_recording_consent_message`. -/
def makeConsentMessage (c : Crypto) (consent : ℤ) (timestampUnix : ℕ)
    (identityEd25519Secret : Bytes) (now : ℕ) (s : VoipSession) :
    Except ProtocolError RecordingConsentMessage := do
  checkConsent consent timestampUnix now
  require (s.state = .active) (.voipCall "call is not active")
  require (s.localRecordingConsentTimestampUnix < timestampUnix)
    (.voipCall "stale local recording consent timestamp rejected")
  let signature ← signRecordingConsentMessage c identityEd25519Secret s.callId.1 consent
    timestampUnix
  .ok { callId := s.callId.1, consent, timestampUnix, signature }

def buildRecordingConsentMessage (c : Crypto) (codec : Codec RecordingConsentMessage)
    (consent : ℤ) (timestampUnix : ℕ) (identityEd25519Secret : Bytes) (now : ℕ) :
    SessionM Bytes := do
  let message ← reads (makeConsentMessage c consent timestampUnix identityEd25519Secret now)
  modify fun s => { s with
    localRecordingConsent := consent
    localRecordingConsentTimestampUnix := timestampUnix }
  pure (codec.encode message)

/-- The checks of `process_recording_consent_message`, and the message they let through. -/
def acceptConsent (c : Crypto) (codec : Codec RecordingConsentMessage)
    (messageBytes peerEd25519Public : Bytes) (now : ℕ) (s : VoipSession) :
    Except ProtocolError RecordingConsentMessage := do
  require (messageBytes.length ≤ maxVoipSignalMessageSize)
    (.voipCall "RecordingConsentMessage too large")
  let message ← (codec.decode messageBytes).mapError fun e =>
    .decode s!"RecordingConsentMessage decode: {e}"
  checkConsent message.consent message.timestampUnix now
  require (s.state = .active) (.voipCall "call is not active")
  require (message.callId = s.callId.1) (.voipCall "recording consent call_id mismatch")
  require (s.remoteRecordingConsentTimestampUnix < message.timestampUnix)
    (.voipCall "stale recording consent message rejected")
  verifyRecordingConsentSignature c peerEd25519Public message.callId message.consent
    message.timestampUnix message.signature
  .ok message

/-- The session after it took a consent over. -/
def VoipSession.withConsent (s : VoipSession) (message : RecordingConsentMessage) : VoipSession :=
  { s with
    remoteRecordingConsent := message.consent
    remoteRecordingConsentTimestampUnix := message.timestampUnix }

def processRecordingConsentMessage (c : Crypto) (codec : Codec RecordingConsentMessage)
    (messageBytes peerEd25519Public : Bytes) (now : ℕ) : SessionM ℤ := do
  let message ← reads (acceptConsent c codec messageBytes peerEd25519Public now)
  modify fun s => s.withConsent message
  pure message.consent

section Deliveries

variable {c : Crypto} {codec : Codec RecordingConsentMessage} {peerPublic messageBytes : Bytes}
  {now : ℕ} {s s' : VoipSession} {m : RecordingConsentMessage}

/-! ## One message -/

/-- The bytes are a consent that the peer signed for this call, with a timestamp that is neither
zero nor too far in the future.  Whether it is later than what the session has is left open. -/
structure Consents (c : Crypto) (codec : Codec RecordingConsentMessage) (peerPublic : Bytes)
    (now : ℕ) (s : VoipSession) (messageBytes : Bytes) (m : RecordingConsentMessage) : Prop where
  active : s.state = .active
  size : messageBytes.length ≤ maxVoipSignalMessageSize
  decode : codec.decode messageBytes = .ok m
  consent : checkConsent m.consent m.timestampUnix now = .ok ()
  callId : m.callId = s.callId.1
  signature : verifyRecordingConsentSignature c peerPublic m.callId m.consent m.timestampUnix
    m.signature = .ok ()

theorem acceptConsent_eq_ok :
    acceptConsent c codec messageBytes peerPublic now s = .ok m ↔
      Consents c codec peerPublic now s messageBytes m ∧
        s.remoteRecordingConsentTimestampUnix < m.timestampUnix := by
  simp only [acceptConsent, except_bind_eq_ok, require_eq_ok, mapError_eq_ok, Except.ok.injEq]
  constructor
  · rintro ⟨_, hsize, message, hdecode, _, hconsent, _, hactive, _, hcall, _, hlater, _, hsign, rfl⟩
    exact ⟨⟨hactive, hsize, hdecode, hconsent, hcall, hsign⟩, hlater⟩
  · rintro ⟨h, hlater⟩
    exact ⟨(), h.size, m, h.decode, (), h.consent, (), h.active, (), h.callId, (), hlater, (),
      h.signature, rfl⟩

/-- The session after a message: errors are dropped, a later consent is taken over. -/
def deliver (c : Crypto) (codec : Codec RecordingConsentMessage) (peerPublic : Bytes) (now : ℕ)
    (s : VoipSession) (messageBytes : Bytes) : VoipSession :=
  endState ((processRecordingConsentMessage c codec messageBytes peerPublic now).run s)

theorem deliver_of_consents (h : Consents c codec peerPublic now s messageBytes m) :
    deliver c codec peerPublic now s messageBytes =
      if s.remoteRecordingConsentTimestampUnix < m.timestampUnix then s.withConsent m else s := by
  rw [deliver, processRecordingConsentMessage]
  split_ifs with hlater
  · have haccept := acceptConsent_eq_ok.mpr ⟨h, hlater⟩
    rw [reads_bind_of_ok haccept]
    rfl
  · cases haccept : acceptConsent c codec messageBytes peerPublic now s with
    | error e =>
      rw [reads_bind_of_error haccept]
      rfl
    | ok m' =>
      obtain ⟨h', hlater'⟩ := acceptConsent_eq_ok.mp haccept
      have hsame := h.decode.symm.trans h'.decode
      cases hsame
      exact absurd hlater' hlater

/-- What messages a session takes does not depend on the consent it has. -/
theorem Consents.withConsent {m' : RecordingConsentMessage}
    (h : Consents c codec peerPublic now s messageBytes m) :
    Consents c codec peerPublic now (s.withConsent m') messageBytes m :=
  ⟨h.active, h.size, h.decode, h.consent, h.callId, h.signature⟩

/-! ## Many messages -/

/-- The session after some messages, in the order in which they arrive. -/
def deliverAll (c : Crypto) (codec : Codec RecordingConsentMessage) (peerPublic : Bytes) (now : ℕ)
    (s : VoipSession) (arrivals : List Bytes) : VoipSession :=
  arrivals.foldl (deliver c codec peerPublic now) s

/-- The session `s'` has the latest consent of the messages and of what `s` had; nothing else has
changed. -/
inductive Newest (s : VoipSession) (messages : List RecordingConsentMessage) : VoipSession → Prop
  | stored (h : ∀ m ∈ messages, m.timestampUnix ≤ s.remoteRecordingConsentTimestampUnix) :
      Newest s messages s
  | received (m : RecordingConsentMessage) (hmem : m ∈ messages)
      (hlater : s.remoteRecordingConsentTimestampUnix < m.timestampUnix)
      (h : ∀ m' ∈ messages, m'.timestampUnix ≤ m.timestampUnix) : Newest s messages (s.withConsent m)

theorem Newest.cons_later (hlater : s.remoteRecordingConsentTimestampUnix < m.timestampUnix)
    (h : Newest (s.withConsent m) rest s') : Newest s (m :: rest) s' := by
  cases h with
  | stored hle =>
    exact .received m mem_cons_self hlater (forall_mem_cons.mpr ⟨le_rfl, hle⟩)
  | received m' hmem hlater' hle =>
    exact .received m' (mem_cons_of_mem _ hmem) (hlater.trans hlater')
      (forall_mem_cons.mpr ⟨hlater'.le, hle⟩)

theorem Newest.cons_stale (hstale : m.timestampUnix ≤ s.remoteRecordingConsentTimestampUnix)
    (h : Newest s rest s') : Newest s (m :: rest) s' := by
  cases h with
  | stored hle => exact .stored (forall_mem_cons.mpr ⟨hstale, hle⟩)
  | received m' hmem hlater hle =>
    exact .received m' (mem_cons_of_mem _ hmem) hlater
      (forall_mem_cons.mpr ⟨hstale.trans hlater.le, hle⟩)

theorem deliverAll_newest {arrivals : List Bytes} {messages : List RecordingConsentMessage}
    (h : List.Forall₂ (Consents c codec peerPublic now s) arrivals messages) :
    Newest s messages (deliverAll c codec peerPublic now s arrivals) := by
  -- over the arrivals; the session changes, but what it takes does not
  induction arrivals generalizing s messages with
  | nil =>
    cases h
    exact .stored fun _ hm => absurd hm not_mem_nil
  | cons messageBytes arrivals ih =>
    obtain ⟨m, rest, hm, hrest, rfl⟩ := forall₂_cons_left_iff.mp h
    rw [deliverAll, foldl_cons, deliver_of_consents hm]
    split_ifs with hlater
    · exact .cons_later hlater (ih (hrest.imp fun _ _ h => h.withConsent))
    · exact .cons_stale (not_lt.mp hlater) (ih hrest)

/-- What `build_recording_consent_message` makes, the other session of the call takes. -/
theorem consents_of_makeConsentMessage (hc : c.Correct) (hk : c.ProperKeys) {peer : VoipSession}
    {secret : Bytes} {consent : ℤ} {timestampUnix : ℕ}
    (h : makeConsentMessage c consent timestampUnix secret now peer = .ok m)
    (hactive : s.state = .active) (hcall : s.callId = peer.callId)
    (hsize : (codec.encode m).length ≤ maxVoipSignalMessageSize) :
    Consents c codec (c.ed25519Public secret) now s (codec.encode m) m := by
  simp only [makeConsentMessage, signRecordingConsentMessage, except_bind_eq_ok, require_eq_ok,
    Except.ok.injEq] at h
  obtain ⟨_, hconsent, _, -, _, -, _, ⟨_, hlength, _, hvalid, rfl⟩, rfl⟩ := h
  refine ⟨hactive, hsize, codec.decode_encode _, hconsent, congrArg Subtype.val hcall.symm, ?_⟩
  simp only [verifyRecordingConsentSignature, except_seq_eq_ok, require_eq_ok]
  exact ⟨c.length_ed25519Public _, c.length_ed25519Sign _ _, hk.ed25519Public_valid _ hvalid,
    hc.ed25519Verify_ed25519Sign _ _⟩

end Deliveries

/-- Code of a `RecordingConsentMessage`. -/
def serialConsent : Serial RecordingConsentMessage :=
  (Serial.bytes.prod (Serial.int.prod (Serial.nat.prod Serial.bytes))).iso
    (fun t => ⟨t.1, t.2.1, t.2.2.1, t.2.2.2⟩)
    (fun m => (m.callId, m.consent, m.timestampUnix, m.signature)) (fun _ => rfl)

/-- A codec of consents. -/
def sampleConsentCodec : Codec RecordingConsentMessage := .ofSerial serialConsent

/-- The signing key of the caller of the example call. -/
def sampleConsentKey : Bytes := List.replicate 64 9

/-- A consent of the caller of the example call. -/
def sampleConsent (consent : ℤ) (timestampUnix : ℕ) : RecordingConsentMessage :=
  ⟨sampleCallId.1, consent, timestampUnix, Crypto.transparent.ed25519Sign sampleConsentKey
    (recordingConsentSignatureInput sampleCallId.1 consent timestampUnix)⟩

theorem consents_sampleConsent : ∀ m ∈ [sampleConsent 1 10, sampleConsent 2 20],
    Consents .transparent sampleConsentCodec (Crypto.transparent.ed25519Public sampleConsentKey)
      1000 (sampleSession .callee) (sampleConsentCodec.encode m) m := by
  have hearly : makeConsentMessage .transparent 1 10 sampleConsentKey 1000
      (sampleSession .caller) = .ok (sampleConsent 1 10) := rfl
  have hlate : makeConsentMessage .transparent 2 20 sampleConsentKey 1000
      (sampleSession .caller) = .ok (sampleConsent 2 20) := rfl
  refine forall_mem_cons.mpr ⟨?_, forall_mem_singleton.mpr ?_⟩
  · exact consents_of_makeConsentMessage Crypto.transparent_correct
      Crypto.transparent_properKeys hearly rfl rfl (by decide +kernel)
  · exact consents_of_makeConsentMessage Crypto.transparent_correct
      Crypto.transparent_properKeys hlate rfl rfl (by decide +kernel)

end AuraProtocol.Voip
