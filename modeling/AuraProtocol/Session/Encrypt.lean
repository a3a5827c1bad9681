import AuraProtocol.Crypto.Padding
import AuraProtocol.Session.Receive

/-!
# Encryption

`Session::encrypt` and the send ratchet it may turn first.  The randomness one
call draws is an argument, with the sizes `get_random_bytes` and the key
generators guarantee.
-/

namespace AuraProtocol.Session

open Fallible

variable {c : Crypto} {w : Wire} {clock : Clock} {s s' : SessionInner} {envelope : SecureEnvelope}
  {envelope' : SecureEnvelope} {handle : Option Bytes}

/-- The randomness drawn by one `encrypt` call; all but the header nonce is only used when the
call rotates the send ratchet. -/
structure Entropy where
  /-- The new X25519 private key. -/
  x25519Private : Bytes
  /-- The randomness of the encapsulation to the peer's KEM key. -/
  kyberEncapsulation : Bytes
  /-- The randomness of the new KEM key pair. -/
  kyberSeed : Bytes
  /-- The randomness of the key generation's self-test. -/
  kyberSelfTest : Bytes
  /-- The new nonce prefix. -/
  noncePrefix : Bytes
  headerNonce : Bytes
  length_x25519Private : x25519Private.length = x25519PrivateKeyBytes
  length_noncePrefix : noncePrefix.length = noncePrefixBytes
  length_headerNonce : headerNonce.length = aesGcmNonceBytes

/-- The caller's part of a message. -/
structure Message where
  payload : Bytes
  envelopeType : ℤ
  envelopeId : ℕ
  correlationId : Option String
  deriving DecidableEq, Repr

/-! ## The send ratchet -/

def sendRatchetRotationNeeded (s : SessionInner) : Except ProtocolError Bool := do
  let chainIdx := (s.state.sendChain.map ChainState.messageIndex).getD 0
  require (s.state.maxMessagesPerChain ≠ 0 ∧
      s.state.maxMessagesPerChain ≤ AuraProtocol.maxMessagesPerChain)
    (.invalidState "Invalid max messages per chain")
  .ok (s.sendRatchetPending || decide (s.state.maxMessagesPerChain ≤ chainIdx))

/-- The keys a send ratchet generates and derives. -/
structure SendRatchet where
  keys : RatchetOutput
  newPublic : Bytes
  kyberCiphertext : Bytes
  newKyberSecret : Bytes
  newKyberPublic : Bytes

/-- The checks, key generation and derivation of `maybe_rotate_send_ratchet`. -/
def deriveSendRatchet (c : Crypto) (rnd : Entropy) (s : SessionInner) :
    Except ProtocolError SendRatchet := do
  require (s.state.dhRemotePublic.length = x25519PublicKeyBytes ∧
      s.state.rootKey.length = rootKeyBytes)
    (.invalidState "Cannot rotate ratchet: missing key material")
  require (s.state.kyberRemotePublic.length = kyberPublicKeyBytes)
    (.invalidState "Peer Kyber public key missing")
  DhValidator.validateX25519PublicKey s.state.dhRemotePublic
  let dhSecret ← computeDh c rnd.x25519Private s.state.dhRemotePublic
  let (kyberCt, kyberSs) ← KyberInterop.encapsulate c s.state.kyberRemotePublic
    rnd.kyberEncapsulation
  let (newKyberSk, newKyberPk) ← KyberInterop.generateKeypair c rnd.kyberSeed rnd.kyberSelfTest
  let keys ← deriveRatchet c s.state.rootKey dhSecret kyberSs newKyberPk
  .ok { keys := keys
        newPublic := c.x25519Public rnd.x25519Private
        kyberCiphertext := kyberCt
        newKyberSecret := newKyberSk
        newKyberPublic := newKyberPk }

/-- Installs the derived keys of the new sending epoch. -/
def installSendKeys (keys : RatchetOutput) (s : SessionInner) : SessionInner :=
  { s with
    state := { s.state with
      rootKey := keys.rootKey
      sendMetadataKey := keys.metadataKey
      sendChain := some { messageIndex := 0, chainKey := keys.chainKey, skippedMessageKeys := [] } } }

/-- Enters the new sending epoch with the new local key pairs. -/
def enterSendEpoch (epoch : ℕ) (dhHandle : Bytes) (step : SendRatchet) (s : SessionInner) :
    SessionInner :=
  { s with
    dhPrivateHandle := some dhHandle
    kyberSecretHandle := some step.newKyberSecret
    sendRatchetPending := false
    messagesSinceLastDhRatchet := 0
    state := { s.state with
      sendRatchetEpoch := epoch
      dhLocal := some
        { privateKey := List.replicate x25519PrivateKeyBytes 0, publicKey := step.newPublic }
      kyberLocal := s.state.kyberLocal.map fun _ =>
        { secretKey := List.replicate kyberSecretKeyBytes 0, publicKey := step.newKyberPublic }
      sendRatchetPending := false } }

/-- The rotating branch of `maybe_rotate_send_ratchet`. -/
def rotateSendRatchet (c : Crypto) (rnd : Entropy) (envelope : SecureEnvelope) :
    SessionM SecureEnvelope := do
  let step ← reads (deriveSendRatchet c rnd)
  let prevChainLen := ((← get).state.sendChain.map ChainState.messageIndex).getD 0
  modify (installSendKeys step.keys)
  let epoch ← reads fun s => orError (checkedAdd s.state.sendRatchetEpoch 1)
    (.invalidState "Send ratchet epoch overflow")
  let dhHandle ← lift (secureHandle x25519PrivateKeyBytes rnd.x25519Private)
  modify (enterSendEpoch epoch dhHandle step)
  let state ← reads fun s => resetNonceGenerator s.state rnd.noncePrefix
  modify fun s => { s with state := state }
  pure { envelope with
    previousChainLength := some prevChainLen
    dhPublicKey := some step.newPublic
    kyberCiphertext := some step.kyberCiphertext
    newKyberPublic := some step.newKyberPublic }

def maybeRotateSendRatchet (c : Crypto) (rnd : Entropy) (envelope : SecureEnvelope) :
    SessionM SecureEnvelope := do
  let shouldRatchet ← reads sendRatchetRotationNeeded
  if shouldRatchet then rotateSendRatchet c rnd envelope else pure envelope

/-! ## Snapshots -/

structure SendProgressSnapshot where
  sendChain : Option ChainState
  nonceGenerator : Option NonceState
  messagesSinceLastDhRatchet : ℕ

def SendProgressSnapshot.capture (s : SessionInner) : SendProgressSnapshot where
  sendChain := s.state.sendChain
  nonceGenerator := s.state.nonceGenerator
  messagesSinceLastDhRatchet := s.messagesSinceLastDhRatchet

def SendProgressSnapshot.restore (snap : SendProgressSnapshot) (s : SessionInner) : SessionInner :=
  { s with
    state := { s.state with sendChain := snap.sendChain, nonceGenerator := snap.nonceGenerator }
    messagesSinceLastDhRatchet := snap.messagesSinceLastDhRatchet }

structure SendRatchetSnapshot where
  state : ProtocolState
  dhPrivateKey : Option Bytes
  kyberSecretKey : Option Bytes
  sendRatchetPending : Bool
  messagesSinceLastDhRatchet : ℕ

/-- Reads an optional secure memory region. -/
def readHandle (handle : Option Bytes) (len : ℕ) : Except ProtocolError (Option Bytes) :=
  match handle with
  | none => .ok none
  | some handle => do
    let bytes ← readBytes handle len
    .ok (some bytes)

def SendRatchetSnapshot.capture (s : SessionInner) : Except ProtocolError SendRatchetSnapshot := do
  let dhPrivateKey ← readHandle s.dhPrivateHandle x25519PrivateKeyBytes
  let kyberSecretKey ← readHandle s.kyberSecretHandle kyberSecretKeyBytes
  .ok { state := s.state
        dhPrivateKey := dhPrivateKey
        kyberSecretKey := kyberSecretKey
        sendRatchetPending := s.sendRatchetPending
        messagesSinceLastDhRatchet := s.messagesSinceLastDhRatchet }

/-- `restore_secret_handle`: a secret of another size is dropped. -/
def restoreSecretHandle (secret : Option Bytes) (expectedLen : ℕ) : Option Bytes :=
  secret.filter fun bytes => bytes.length = expectedLen

def SendRatchetSnapshot.restore (snap : SendRatchetSnapshot) (s : SessionInner) : SessionInner :=
  { s with
    state := snap.state
    sendRatchetPending := snap.sendRatchetPending
    messagesSinceLastDhRatchet := snap.messagesSinceLastDhRatchet
    dhPrivateHandle := restoreSecretHandle snap.dhPrivateKey x25519PrivateKeyBytes
    kyberSecretHandle := restoreSecretHandle snap.kyberSecretKey kyberSecretKeyBytes }

/-- What `encrypt` does when the ratchet itself fails. -/
def rollbackSendRatchet (snapshot : Option SendRatchetSnapshot) (s : SessionInner) :
    SessionInner :=
  match snapshot with
  | some snap => snap.restore s
  | none => s

def rollbackSendEncryptState (snapshot : Option SendRatchetSnapshot)
    (progress : SendProgressSnapshot) (s : SessionInner) : SessionInner :=
  match snapshot with
  | some snap => snap.restore s
  | none => progress.restore s

/-! ## Sealing -/

/-- The checks of `next_send_message_key`; the result is the sending chain. -/
def checkSendChain (s : SessionInner) : Except ProtocolError ChainState := do
  let chain ← orError s.state.sendChain (.invalidState "Send chain not initialized")
  require (chain.chainKey.length = chainKeyBytes) (.invalidState "Sending chain key missing")
  require (chain.messageIndex ≤ maxMessageIndex) (.invalidState "Message index exceeds maximum")
  .ok chain

/-- Moves the sending chain one message forward. -/
def advanceSendChain (chain : ChainState) (nextChainKey : Bytes) (s : SessionInner) :
    SessionInner :=
  { s with
    state := { s.state with
      sendChain := some
        { chain with chainKey := nextChainKey, messageIndex := chain.messageIndex + 1 } } }

/-- `next_send_message_key`: the index and the key of the next message. -/
def nextSendMessageKey (c : Crypto) : SessionM (ℕ × Bytes) := do
  let chain ← reads checkSendChain
  let (messageKey, nextChainKey) ← lift (deriveMessageAndChainKey c chain.chainKey)
  modify (advanceSendChain chain nextChainKey)
  pure (chain.messageIndex, messageKey)

/-- Stores the nonce state after a nonce was drawn, and counts the message. -/
def recordNonce (ns : NonceState) (s : SessionInner) : SessionInner :=
  { s with
    state := { s.state with nonceGenerator := some ns }
    messagesSinceLastDhRatchet := s.messagesSinceLastDhRatchet + 1 }

/-- Draws the next payload nonce. -/
def drawNonce (messageIndex : ℕ) (s : SessionInner) : Except ProtocolError (Bytes × NonceState) := do
  let (ns, limit) ← loadNonceGenerator s.state
  nextNonce ns limit messageIndex

/-- Encrypts metadata and payload of a message whose key and nonce are known. -/
def sealMessage (c : Crypto) (w : Wire) (clock : Clock) (headerNonce : Bytes) (m : Message)
    (messageIndex : ℕ) (messageKey payloadNonce : Bytes) (envelope : SecureEnvelope)
    (s : SessionInner) : Except ProtocolError SecureEnvelope := do
  let metadata : EnvelopeMetadata :=
    { messageIndex := messageIndex
      payloadNonce := payloadNonce
      envelopeType := m.envelopeType
      envelopeId := m.envelopeId
      correlationId := m.correlationId }
  let metadataBytes := w.metadata.encode metadata
  require (headerNonce.length = aesGcmNonceBytes) (.generic "Failed to generate header nonce")
  let metadataAad ← buildMetadataAad s.state envelope.ratchetEpoch envelope.previousChainLength
  let encryptedMetadata ← AesGcm.encrypt c s.state.sendMetadataKey headerNonce metadataBytes
    metadataAad
  let payloadAad ← buildPayloadAad s.state envelope.ratchetEpoch messageIndex
    envelope.previousChainLength
  let encryptedPayload ← AesGcm.encrypt c messageKey payloadNonce
    (MessagePadding.pad m.payload) payloadAad
  let now ← clock.sent
  let sentAt ← timestampFromUnixSecs now
  .ok { envelope with
    encryptedMetadata := encryptedMetadata
    encryptedPayload := encryptedPayload
    headerNonce := headerNonce
    sentAt := some sentAt }

/-- The part of `encrypt` after the ratchet: key, nonce, seal. -/
def sealNext (c : Crypto) (w : Wire) (clock : Clock) (rnd : Entropy) (m : Message)
    (envelope : SecureEnvelope) : SessionM SecureEnvelope := do
  let (messageIndex, messageKey) ← nextSendMessageKey c
  let (payloadNonce, ns) ← reads (drawNonce messageIndex)
  modify (recordNonce ns)
  reads (sealMessage c w clock rnd.headerNonce m messageIndex messageKey payloadNonce envelope)

/-- The checks before `encrypt` touches the ratchet. -/
def checkEncrypt (clock : Clock) (m : Message) (s : SessionInner) :
    Except ProtocolError (ℕ × ℕ) := do
  require (s.state.version ≠ 0) (.invalidState "Session has been destroyed")
  let expired ← checkInnerExpired s.state clock.expiry
  require (expired = false) (.invalidState "Session expired")
  let activityUnix ← clock.activity
  let nextTotalSent ← orError (checkedAdd s.state.totalMessagesSent 1)
    (.invalidState "Sent-message counter overflow")
  require (s.state.sendMetadataKey.length = metadataKeyBytes)
    (.invalidState "Send metadata key not initialized")
  require (m.payload.length ≤ maxBufferSize) (.invalidInput "Payload too large")
  .ok (activityUnix, nextTotalSent)

/-- The snapshot `encrypt` takes if it is going to rotate. -/
def captureIfRotating (s : SessionInner) : Except ProtocolError (Option SendRatchetSnapshot) := do
  let needed ← sendRatchetRotationNeeded s
  if needed then do
    let snap ← SendRatchetSnapshot.capture s
    .ok (some snap)
  else .ok none

/-- The envelope `encrypt` starts from. -/
def emptyEnvelope : SecureEnvelope where
  version := protocolVersion
  encryptedMetadata := []
  encryptedPayload := []
  headerNonce := []
  ratchetEpoch := 0
  dhPublicKey := none
  kyberCiphertext := none
  sentAt := none
  newKyberPublic := none
  previousChainLength := none

/-- What a successful `encrypt` records besides the keys. -/
def recordSent (activityUnix totalSent : ℕ) (s : SessionInner) : SessionInner :=
  { s with
    state := { s.state with
      lastActivityUnix := some activityUnix
      totalMessagesSent := totalSent } }

def encrypt (c : Crypto) (w : Wire) (clock : Clock) (rnd : Entropy) (m : Message) :
    SessionM SecureEnvelope := do
  let (activityUnix, totalSent) ← reads (checkEncrypt clock m)
  let snapshot ← reads captureIfRotating
  let envelope ← onError (maybeRotateSendRatchet c rnd emptyEnvelope) (rollbackSendRatchet snapshot)
  let s ← get
  let envelope ← onError
    (sealNext c w clock rnd m { envelope with ratchetEpoch := s.state.sendRatchetEpoch })
    (rollbackSendEncryptState snapshot (SendProgressSnapshot.capture s))
  modify (recordSent activityUnix totalSent)
  pure envelope

/-! ## What a successful call does -/

/-- The session after a send ratchet, before the first message of the new epoch. -/
def rotated (rnd : Entropy) (step : SendRatchet) (s : SessionInner) : SessionInner :=
  let s := enterSendEpoch (s.state.sendRatchetEpoch + 1) rnd.x25519Private step
    (installSendKeys step.keys s)
  { s with
    state := { s.state with
      nonceGenerator := some { noncePrefix := rnd.noncePrefix, counter := 0 } } }

/-- The length of the current sending chain. -/
def sendIndex (s : SessionInner) : ℕ := (s.state.sendChain.map ChainState.messageIndex).getD 0

/-- An envelope with the header of a send ratchet. -/
def withRatchetHeader (step : SendRatchet) (prevChainLen : ℕ) (envelope : SecureEnvelope) :
    SecureEnvelope :=
  { envelope with
    previousChainLength := some prevChainLen
    dhPublicKey := some step.newPublic
    kyberCiphertext := some step.kyberCiphertext
    newKyberPublic := some step.newKyberPublic }

variable {rnd : Entropy}

/-- The keys of a send ratchet come from a Diffie–Hellman and a KEM secret shared with the peer. -/
theorem deriveSendRatchet_eq_ok {step : SendRatchet} (h : deriveSendRatchet c rnd s = .ok step) :
    ∃ dhSecret out, s.state.rootKey.length = rootKeyBytes ∧
      computeDh c rnd.x25519Private s.state.dhRemotePublic = .ok dhSecret ∧
      KyberInterop.encapsulate c s.state.kyberRemotePublic rnd.kyberEncapsulation = .ok out ∧
      deriveRatchet c s.state.rootKey dhSecret out.2 (c.kemKeygen rnd.kyberSeed).2 = .ok step.keys ∧
      step = { keys := step.keys, newPublic := c.x25519Public rnd.x25519Private,
               kyberCiphertext := out.1, newKyberSecret := (c.kemKeygen rnd.kyberSeed).1,
               newKyberPublic := (c.kemKeygen rnd.kyberSeed).2 } := by
  simp only [deriveSendRatchet, except_bind_eq_ok, require_eq_ok] at h
  obtain ⟨_, hroot, _, -, _, -, dhSecret, hdh, out, hout, kp, hkp, keys, hkeys, h⟩ := h
  obtain rfl := KyberInterop.generateKeypair_eq_ok hkp
  cases h
  exact ⟨dhSecret, out, hroot.2, hdh, hout, hkeys, rfl⟩

theorem rotateSendRatchet_eq_ok :
    (rotateSendRatchet c rnd envelope).run s = .ok envelope' s' ↔
      ∃ step, deriveSendRatchet c rnd s = .ok step ∧ s.state.sendRatchetEpoch + 1 ≤ u64Max ∧
        s' = rotated rnd step s ∧ envelope' = withRatchetHeader step (sendIndex s) envelope := by
  have hhandle : secureHandle x25519PrivateKeyBytes rnd.x25519Private = .ok rnd.x25519Private :=
    secureHandle_of_length_eq rnd.length_x25519Private
  have hreset : ∀ st, resetNonceGenerator st rnd.noncePrefix =
      .ok { st with nonceGenerator := some { noncePrefix := rnd.noncePrefix, counter := 0 } } := by
    intro st
    rw [resetNonceGenerator, except_seq_eq_ok]
    exact ⟨require_eq_ok.mpr rnd.length_noncePrefix, rfl⟩
  simp only [rotateSendRatchet, bind_eq_ok, reads_eq_ok, get_bind_run, modify_bind_run, lift_eq_ok,
    hhandle, hreset, pure_run, orError_eq_ok, checkedAdd_eq_some, Except.ok.injEq, existsAndEq,
    and_assoc, true_and, EStateM.Result.ok.injEq, @eq_comm _ s', @eq_comm _ envelope',
    @and_comm (_ = envelope')]
  rfl

/-- How a call prepares its epoch: it goes on in the current one, or it rotates. -/
inductive Prepared (c : Crypto) (rnd : Entropy) (s : SessionInner) :
    SecureEnvelope → SessionInner → Prop
  | stay : sendRatchetRotationNeeded s = .ok false → Prepared c rnd s emptyEnvelope s
  | rotate {step : SendRatchet} : sendRatchetRotationNeeded s = .ok true →
      deriveSendRatchet c rnd s = .ok step → s.state.sendRatchetEpoch + 1 ≤ u64Max →
      Prepared c rnd s (withRatchetHeader step (sendIndex s) emptyEnvelope) (rotated rnd step s)

theorem maybeRotateSendRatchet_eq_ok
    (h : (maybeRotateSendRatchet c rnd emptyEnvelope).run s = .ok envelope s') :
    Prepared c rnd s envelope s' := by
  obtain ⟨needed, hneeded, h⟩ := reads_bind_eq_ok.mp h
  cases needed with
  | false =>
    cases h
    exact .stay hneeded
  | true =>
    obtain ⟨step, hstep, hle, rfl, rfl⟩ := rotateSendRatchet_eq_ok.mp h
    exact .rotate hneeded hstep hle

/-- The session after a message was sealed in a prepared epoch. -/
def sealedNext (c : Crypto) (chain : ChainState) (ns : NonceState) (s : SessionInner) :
    SessionInner :=
  recordNonce ns (advanceSendChain chain (nextChainKeyOf c chain.chainKey) s)

variable {m : Message}

theorem sealNext_eq_ok :
    (sealNext c w clock rnd m envelope).run s = .ok envelope' s' ↔
      ∃ chain nonce ns, checkSendChain s = .ok chain ∧
        drawNonce chain.messageIndex s = .ok (nonce, ns) ∧ s' = sealedNext c chain ns s ∧
        sealMessage c w clock rnd.headerNonce m chain.messageIndex
          (messageKeyOf c chain.chainKey) nonce envelope s' = .ok envelope' := by
  simp only [sealNext, nextSendMessageKey, bind_eq_ok, reads_eq_ok, lift_eq_ok,
    deriveMessageAndChainKey_eq, modify_bind_run, pure_run, Except.ok.injEq]
  constructor
  · rintro ⟨_, _, ⟨chain, _, ⟨hchain, rfl⟩, keys, _, ⟨rfl, rfl⟩, ⟨⟩⟩, drawn, _, ⟨hdraw, rfl⟩, hseal,
      rfl⟩
    exact ⟨chain, drawn.1, drawn.2, hchain, hdraw, rfl, hseal⟩
  · rintro ⟨chain, nonce, ns, hchain, hdraw, rfl, hseal⟩
    exact ⟨_, _, ⟨chain, s, ⟨hchain, rfl⟩, _, _, ⟨rfl, rfl⟩, rfl⟩, (nonce, ns), _, ⟨hdraw, rfl⟩,
      hseal, rfl⟩

/-- A successful `encrypt`, step by step. -/
structure Sent (c : Crypto) (w : Wire) (clock : Clock) (rnd : Entropy) (m : Message)
    (s : SessionInner) (envelope : SecureEnvelope) (s' : SessionInner) where
  activityUnix : ℕ
  totalSent : ℕ
  /-- The envelope after the ratchet. -/
  header : SecureEnvelope
  /-- The session after the ratchet. -/
  prepared : SessionInner
  chain : ChainState
  nonce : Bytes
  nonceState : NonceState
  check : checkEncrypt clock m s = .ok (activityUnix, totalSent)
  isPrepared : Prepared c rnd s header prepared
  checkChain : checkSendChain prepared = .ok chain
  draw : drawNonce chain.messageIndex prepared = .ok (nonce, nonceState)
  isSealed : sealMessage c w clock rnd.headerNonce m chain.messageIndex
    (messageKeyOf c chain.chainKey) nonce
    { header with ratchetEpoch := prepared.state.sendRatchetEpoch }
    (sealedNext c chain nonceState prepared) = .ok envelope
  final_eq : s' = recordSent activityUnix totalSent (sealedNext c chain nonceState prepared)

theorem encrypt_eq_ok (h : (encrypt c w clock rnd m).run s = .ok envelope s') :
    Nonempty (Sent c w clock rnd m s envelope s') := by
  obtain ⟨⟨activityUnix, totalSent⟩, hcheck, h⟩ := reads_bind_eq_ok.mp h
  obtain ⟨snapshot, -, h⟩ := reads_bind_eq_ok.mp h
  rw [bind_eq_ok] at h
  obtain ⟨header, prepared, hprep, h⟩ := h
  rw [get_bind_run, bind_eq_ok] at h
  obtain ⟨envelope', sealed', hseal, h⟩ := h
  obtain ⟨chain, nonce, ns, hchain, hdraw, rfl, hseal⟩ := sealNext_eq_ok.mp (onError_eq_ok.mp hseal)
  cases h
  exact ⟨⟨_, _, _, _, chain, nonce, ns, hcheck,
    maybeRotateSendRatchet_eq_ok (onError_eq_ok.mp hprep), hchain, hdraw, hseal, rfl⟩⟩

/-! ## A failing call leaves the session as it was -/

/-- What `encrypt` never writes, whether it succeeds or fails. -/
structure SendFrame (s s' : SessionInner) : Prop where
  pendingKyberSharedSecret : s'.pendingKyberSharedSecret = s.pendingKyberSharedSecret
  skippedMessageKeys : s'.skippedMessageKeys = s.skippedMessageKeys
  cachedMetadataKeys : s'.cachedMetadataKeys = s.cachedMetadataKeys
  replayEpoch : s'.replayEpoch = s.replayEpoch
  seenPayloadNonces : s'.seenPayloadNonces = s.seenPayloadNonces
  seenPayloadNonceOrder : s'.seenPayloadNonceOrder = s.seenPayloadNonceOrder
  isInitiator : s'.isInitiator = s.isInitiator

theorem SendFrame.refl (s : SessionInner) : SendFrame s s := ⟨rfl, rfl, rfl, rfl, rfl, rfl, rfl⟩

theorem SendFrame.trans {s₁ s₂ s₃ : SessionInner} (h : SendFrame s₁ s₂) (h' : SendFrame s₂ s₃) :
    SendFrame s₁ s₃ :=
  ⟨h'.1.trans h.1, h'.2.trans h.2, h'.3.trans h.3, h'.4.trans h.4, h'.5.trans h.5, h'.6.trans h.6,
    h'.7.trans h.7⟩

instance : IsPreorder SessionInner SendFrame where
  refl := .refl
  trans _ _ _ := .trans

theorem rotateSendRatchet_keeps (c : Crypto) (rnd : Entropy) (envelope : SecureEnvelope) :
    Keeps SendFrame (rotateSendRatchet c rnd envelope) := by
  refine .bind (.reads _) fun step => ?_
  refine .bind .get fun s => ?_
  refine .bind (.modify fun s => ⟨rfl, rfl, rfl, rfl, rfl, rfl, rfl⟩) fun _ => ?_
  refine .bind (.reads _) fun epoch => ?_
  refine .bind (.lift _) fun handle => ?_
  refine .bind (.modify fun s => ⟨rfl, rfl, rfl, rfl, rfl, rfl, rfl⟩) fun _ => ?_
  refine .bind (.reads _) fun state => ?_
  refine .bind (.modify fun s => ⟨rfl, rfl, rfl, rfl, rfl, rfl, rfl⟩) fun _ => ?_
  exact .pure _

theorem maybeRotateSendRatchet_keeps (c : Crypto) (rnd : Entropy) (envelope : SecureEnvelope) :
    Keeps SendFrame (maybeRotateSendRatchet c rnd envelope) := by
  refine .bind (.reads _) fun needed => ?_
  cases needed with
  | false => exact .pure _
  | true => exact rotateSendRatchet_keeps c rnd envelope

/-- What sealing a message writes: the sending chain, the nonce state and the message count. -/
def SealFrame (s s' : SessionInner) : Prop :=
  s' = { s with
    state := { s.state with
      sendChain := s'.state.sendChain
      nonceGenerator := s'.state.nonceGenerator }
    messagesSinceLastDhRatchet := s'.messagesSinceLastDhRatchet }

theorem SealFrame.refl (s : SessionInner) : SealFrame s s := rfl

theorem SealFrame.trans {s₁ s₂ s₃ : SessionInner} (h : SealFrame s₁ s₂) (h' : SealFrame s₂ s₃) :
    SealFrame s₁ s₃ := by
  rw [SealFrame] at h h' ⊢
  rw [h] at h'
  exact h'

instance : IsPreorder SessionInner SealFrame where
  refl := .refl
  trans _ _ _ := .trans

theorem SealFrame.sendFrame (h : SealFrame s s') : SendFrame s s' := by
  rw [SealFrame] at h
  rw [h]
  exact ⟨rfl, rfl, rfl, rfl, rfl, rfl, rfl⟩

theorem sealNext_keeps (c : Crypto) (w : Wire) (clock : Clock) (rnd : Entropy) (m : Message)
    (envelope : SecureEnvelope) : Keeps SealFrame (sealNext c w clock rnd m envelope) := by
  refine .bind ?_ fun keyed => ?_
  · refine .bind (.reads _) fun chain => ?_
    refine .bind (.lift _) fun keys => ?_
    refine .bind (.modify fun s => rfl) fun _ => ?_
    exact .pure _
  · refine .bind (.reads _) fun drawn => ?_
    refine .bind (.modify fun s => rfl) fun _ => ?_
    exact .reads _

theorem readHandle_of_size {len : ℕ} (h : ∀ b ∈ handle, b.length = len) :
    readHandle handle len = .ok handle := by
  cases handle with
  | none => rfl
  | some b =>
    rw [readHandle, readBytes_of_length_eq (h b rfl)]
    rfl

theorem restoreSecretHandle_of_size {len : ℕ} (h : ∀ b ∈ handle, b.length = len) :
    restoreSecretHandle handle len = handle := by
  cases handle with
  | none => rfl
  | some b => rw [restoreSecretHandle, Option.filter_some_pos (by simpa using h b rfl)]

/-- A snapshot brings back every field that `encrypt` may have written. -/
theorem SendRatchetSnapshot.restore_of_capture {snap : SendRatchetSnapshot} (hs : HandleSizes s)
    (hsnap : SendRatchetSnapshot.capture s = .ok snap) (hframe : SendFrame s s') :
    snap.restore s' = s := by
  rw [SendRatchetSnapshot.capture, readHandle_of_size hs.dhPrivateHandle,
    readHandle_of_size hs.kyberSecretHandle] at hsnap
  cases hsnap
  rw [SendRatchetSnapshot.restore, restoreSecretHandle_of_size hs.dhPrivateHandle,
    restoreSecretHandle_of_size hs.kyberSecretHandle, hframe.pendingKyberSharedSecret,
    hframe.skippedMessageKeys, hframe.cachedMetadataKeys, hframe.replayEpoch,
    hframe.seenPayloadNonces, hframe.seenPayloadNonceOrder, hframe.isInitiator]

theorem SendProgressSnapshot.restore_of_sealFrame (h : SealFrame s s') :
    (SendProgressSnapshot.capture s).restore s' = s := by
  rw [SealFrame] at h
  rw [h]
  rfl

/-- The snapshot is there exactly if the call rotates. -/
theorem captureIfRotating_eq_ok {snapshot : Option SendRatchetSnapshot}
    (h : captureIfRotating s = .ok snapshot) :
    (sendRatchetRotationNeeded s = .ok false ∧ snapshot = none) ∨
      (sendRatchetRotationNeeded s = .ok true ∧
        ∃ snap, SendRatchetSnapshot.capture s = .ok snap ∧ snapshot = some snap) := by
  obtain ⟨needed, hneeded, h⟩ := except_bind_eq_ok.mp h
  cases needed with
  | false =>
    cases h
    exact .inl ⟨hneeded, rfl⟩
  | true =>
    obtain ⟨snap, hsnap, h⟩ := except_bind_eq_ok.mp h
    cases h
    exact .inr ⟨hneeded, snap, hsnap, rfl⟩

/-- A failing `encrypt` leaves the session as it was. -/
theorem encrypt_eq_error {e : ProtocolError} (hs : HandleSizes s)
    (h : (encrypt c w clock rnd m).run s = .error e s') : s' = s := by
  obtain h | ⟨_, -, h⟩ := reads_bind_eq_error.mp h
  · exact h.2
  obtain h | ⟨snapshot, hcapture, h⟩ := reads_bind_eq_error.mp h
  · exact h.2
  have hrotates := captureIfRotating_eq_ok hcapture
  rw [bind_eq_error] at h
  rcases h with h | ⟨header, prepared, hprep, h⟩
  · -- the ratchet itself failed
    obtain ⟨s₁, herr, rfl⟩ := onError_eq_error.mp h
    rcases hrotates with ⟨hneeded, -⟩ | ⟨-, snap, hsnap', rfl⟩
    · rw [maybeRotateSendRatchet, reads_bind_of_ok hneeded] at herr
      cases herr
    · exact SendRatchetSnapshot.restore_of_capture hs hsnap'
        ((maybeRotateSendRatchet_keeps c rnd _).of_error herr)
  have hprepared := onError_eq_ok.mp hprep
  rw [get_bind_run, bind_eq_error] at h
  rcases h with h | ⟨_, _, _, h⟩
  · -- the ratchet succeeded or was not needed, and sealing failed
    obtain ⟨s₁, herr, rfl⟩ := onError_eq_error.mp h
    have hseal := (sealNext_keeps c w clock rnd m _).of_error herr
    rcases hrotates with ⟨hneeded, rfl⟩ | ⟨-, snap, hsnap', rfl⟩
    · rw [maybeRotateSendRatchet, reads_bind_of_ok hneeded] at hprepared
      cases hprepared
      exact SendProgressSnapshot.restore_of_sealFrame hseal
    · exact SendRatchetSnapshot.restore_of_capture hs hsnap'
        (((maybeRotateSendRatchet_keeps c rnd _).of_ok hprepared).trans hseal.sendFrame)
  · cases h

end AuraProtocol.Session
