import AuraProtocol.Session.Decrypt
import AuraProtocol.Session.Encrypt

/-!
# Honest envelopes open

What a receiver needs to open an envelope that a peer sealed: the same session
id and identity binding, the metadata key and the message key
(`SealedFor.openMetadata`, `SealedFor.openPayload`), and after a ratchet the same
root key and matching key pairs (`recvRatchetOutput_of_send`).  The results about
conversations place these keys; this module does the opening.
-/

namespace AuraProtocol.Session

open Fallible

variable {clock : Clock} {rnd : Entropy} {m : Message} {s' : SessionInner} {key : Bytes}
  {activityUnix : ℕ} {c : Crypto} {w : Wire} {s : SessionInner} {envelope : SecureEnvelope}
  {metadata : EnvelopeMetadata}

/-- The metadata that `encrypt` seals for a message. -/
def metadataFor (m : Message) (index : ℕ) (nonce : Bytes) : EnvelopeMetadata where
  messageIndex := index
  payloadNonce := nonce
  envelopeType := m.envelopeType
  envelopeId := m.envelopeId
  correlationId := m.correlationId

/-- An envelope that holds given metadata and a given payload under given keys; the associated
data is that of the session state `t`. -/
structure SealedFor (c : Crypto) (w : Wire) (t : ProtocolState) (metadataKey messageKey : Bytes)
    (metadata : EnvelopeMetadata) (payload : Bytes) (envelope : SecureEnvelope) : Prop where
  version : envelope.version = protocolVersion
  headerNonce : envelope.headerNonce.length = aesGcmNonceBytes
  sealsMetadata : ∃ aad,
    buildMetadataAad t envelope.ratchetEpoch envelope.previousChainLength = .ok aad ∧
      AesGcm.encrypt c metadataKey envelope.headerNonce (w.metadata.encode metadata) aad =
        .ok envelope.encryptedMetadata
  sealsPayload : ∃ aad,
    buildPayloadAad t envelope.ratchetEpoch metadata.messageIndex envelope.previousChainLength =
        .ok aad ∧
      AesGcm.encrypt c messageKey metadata.payloadNonce (MessagePadding.pad payload) aad =
        .ok envelope.encryptedPayload

/-- The two states belong to the same session. -/
def SameSession (t s : ProtocolState) : Prop :=
  t.sessionId = s.sessionId ∧ t.identityBindingHash = s.identityBindingHash

section Opening

variable {t : ProtocolState} {metadataKey messageKey : Bytes} {payload : Bytes}

section

variable (hc : c.Correct) (h : SealedFor c w t metadataKey messageKey metadata payload envelope)
  (hsame : SameSession t s.state)
include hc h hsame

theorem SealedFor.openMetadata {isOldEpoch : Bool}
    (hkey : metadataKeyFor envelope isOldEpoch s = .ok metadataKey) :
    openMetadata c w envelope isOldEpoch s = .ok metadata := by
  obtain ⟨aad, haad, hseal⟩ := h.sealsMetadata
  rw [buildMetadataAad_congr hsame.1 hsame.2] at haad
  rw [Session.openMetadata, except_bind_eq_ok]
  refine ⟨metadataKey, hkey, except_bind_eq_ok.mpr ⟨aad, haad, except_bind_eq_ok.mpr ⟨_,
    AesGcm.decrypt_of_encrypt hc hseal, ?_⟩⟩⟩
  rw [w.metadata.decode_encode]

theorem SealedFor.openPayload :
    openPayload c envelope metadata messageKey s = .ok payload := by
  obtain ⟨aad, haad, hseal⟩ := h.sealsPayload
  rw [buildPayloadAad_congr hsame.1 hsame.2] at haad
  rw [Session.openPayload, except_bind_eq_ok]
  exact ⟨aad, haad, except_bind_eq_ok.mpr ⟨_, AesGcm.decrypt_of_encrypt hc hseal,
    MessagePadding.unpad_pad payload⟩⟩

end

end Opening

/-- What the receiver checks about the metadata of a message, apart from replays. -/
structure GoodMetadata (s : SessionInner) (metadata : EnvelopeMetadata) : Prop where
  index_lt : metadata.messageIndex < s.state.maxMessagesPerChain
  index_le : metadata.messageIndex ≤ maxMessageIndex
  nonceIndex : extractNonceIndex metadata.payloadNonce = .ok metadata.messageIndex

theorem length_of_extractNonceIndex {nonce : Bytes} {i : ℕ} (h : extractNonceIndex nonce = .ok i) :
    nonce.length = aesGcmNonceBytes := by
  rw [extractNonceIndex, except_seq_eq_ok] at h
  exact require_eq_ok.mp h.1

theorem GoodMetadata.check
    (h : GoodMetadata s metadata) (hfresh : metadata.payloadNonce ∉ s.seenPayloadNonces) :
    checkMetadata metadata s = .ok () := by
  simp only [checkMetadata, except_bind_eq_ok, require_eq_ok]
  exact ⟨(), length_of_extractNonceIndex h.nonceIndex, (), h.index_le, (), h.index_lt, _,
    h.nonceIndex, (), rfl, hfresh⟩

/-! ## What `encrypt` seals -/

/-- Two envelopes with the same plain fields. -/
structure SamePlain (env env' : SecureEnvelope) : Prop where
  ratchetEpoch : env'.ratchetEpoch = env.ratchetEpoch
  dhPublicKey : env'.dhPublicKey = env.dhPublicKey
  kyberCiphertext : env'.kyberCiphertext = env.kyberCiphertext
  newKyberPublic : env'.newKyberPublic = env.newKyberPublic
  previousChainLength : env'.previousChainLength = env.previousChainLength

theorem SamePlain.hasRatchetHeader {env env' : SecureEnvelope} (h : SamePlain env env') :
    env'.hasRatchetHeader = env.hasRatchetHeader := by
  rw [SecureEnvelope.hasRatchetHeader, h.dhPublicKey, h.kyberCiphertext, h.newKyberPublic,
    SecureEnvelope.hasRatchetHeader]

theorem sealMessage_eq_ok {headerNonce : Bytes} {i : ℕ} {nonce : Bytes}
    {env env' : SecureEnvelope}
    (h : sealMessage c w clock headerNonce m i key nonce env s = .ok env')
    (hversion : env.version = protocolVersion) :
    SealedFor c w s.state s.state.sendMetadataKey key (metadataFor m i nonce) m.payload env' ∧
      SamePlain env env' := by
  simp only [sealMessage, except_bind_eq_ok, require_eq_ok] at h
  obtain ⟨_, hlen, aad, haad, ct, hct, aad', haad', ct', hct', _, -, _, -, h⟩ := h
  cases h
  exact ⟨⟨hversion, hlen, ⟨aad, haad, hct⟩, ⟨aad', haad', hct'⟩⟩, ⟨rfl, rfl, rfl, rfl, rfl⟩⟩

theorem Prepared.version {header : SecureEnvelope}
    (h : Prepared c rnd s header s') : header.version = protocolVersion := by
  cases h <;> rfl

theorem Sent.sealedFor
    (h : Sent c w clock rnd m s envelope s') :
    SealedFor c w h.prepared.state h.prepared.state.sendMetadataKey
      (messageKeyOf c h.chain.chainKey) (metadataFor m h.chain.messageIndex h.nonce) m.payload
      envelope := by
  obtain ⟨hs, -⟩ := sealMessage_eq_ok h.isSealed h.isPrepared.version
  exact ⟨hs.1, hs.2, hs.3, hs.4⟩

/-- The plain fields of a sent envelope. -/
theorem Sent.samePlain
    (h : Sent c w clock rnd m s envelope s') :
    SamePlain { h.header with ratchetEpoch := h.prepared.state.sendRatchetEpoch } envelope :=
  (sealMessage_eq_ok h.isSealed h.isPrepared.version).2

/-! ## Opening at the receiver -/

/-- If the receiver can enter an honest envelope's epoch and take its key, it decrypts it. -/
theorem decrypt_of_entered (hc : c.Correct)
    {t : ProtocolState} {metadataKey payload : Bytes}
    {s entered keyed : SessionInner} {totalReceived : ℕ} {isOldEpoch : Bool}
    {snapshot : Option RatchetSnapshot}
    (hsealed : SealedFor c w t metadataKey key metadata payload envelope)
    (hcheck : checkDecrypt clock envelope s = .ok (activityUnix, totalReceived))
    (henter : Entered c envelope s isOldEpoch snapshot entered)
    (hmetadataKey : metadataKeyFor envelope isOldEpoch entered = .ok metadataKey)
    (hsame : SameSession t entered.state) (hgood : GoodMetadata entered metadata)
    (hfresh : metadata.payloadNonce ∉ entered.seenPayloadNonces)
    (htake : (takeMessageKey c envelope isOldEpoch metadata.messageIndex).run entered =
      .ok key keyed) (hsame' : SameSession t keyed.state) :
    (decrypt c w clock envelope).run s =
      .ok { plaintext := payload, metadata := metadata }
        (recordReceived metadata.payloadNonce activityUnix totalReceived keyed) := by
  have hread : readMetadata c w envelope isOldEpoch entered = .ok metadata := by
    rw [readMetadata, except_bind_eq_ok]
    exact ⟨metadata, hsealed.openMetadata hc hsame hmetadataKey,
      except_seq_eq_ok.mpr ⟨hgood.check hfresh, rfl⟩⟩
  exact decrypt_eq_ok.mpr ⟨{
    activityUnix := activityUnix, totalReceived := totalReceived, isOldEpoch := isOldEpoch
    snapshot := snapshot, entered := entered, key := key, keyed := keyed, check := hcheck
    isEntered := henter, metadata := hread, take := htake
    payload := hsealed.openPayload hc hsame', final_eq := rfl }⟩

/-- The session is alive, has valid limits and keys, and its clock runs within its lifetime. -/
structure CanReceive (clock : Clock) (s : SessionInner) (activityUnix : ℕ) : Prop where
  alive : s.state.version ≠ 0
  notExpired : checkInnerExpired s.state clock.expiry = .ok false
  activity : clock.activity = .ok activityUnix
  total_lt : s.state.totalMessagesReceived + 1 ≤ u64Max
  metadataKey : s.state.metadataKey.length = metadataKeyBytes
  maxMessagesPerChain : s.state.maxMessagesPerChain ≠ 0 ∧
    s.state.maxMessagesPerChain ≤ AuraProtocol.maxMessagesPerChain

theorem CanReceive.check (h : CanReceive clock s activityUnix)
    {t : ProtocolState} {metadataKey payload : Bytes}
   
    (hsealed : SealedFor c w t metadataKey key metadata payload envelope) :
    checkDecrypt clock envelope s = .ok (activityUnix, s.state.totalMessagesReceived + 1) := by
  simp only [checkDecrypt, except_bind_eq_ok, require_eq_ok, orError_eq_ok, checkedAdd_eq_some]
  exact ⟨(), h.alive, false, h.notExpired, (), rfl, activityUnix, h.activity, _,
    ⟨h.total_lt, rfl⟩, (), hsealed.version, (), hsealed.headerNonce, (), h.metadataKey, (),
    h.maxMessagesPerChain, rfl⟩

/-- The session after a message at or ahead of the chain position was received. -/
def afterAhead (c : Crypto) (rc : ChainState) (index : ℕ) (nonce : Bytes) (activityUnix : ℕ)
    (s : SessionInner) : SessionInner :=
  recordReceived nonce activityUnix (s.state.totalMessagesReceived + 1)
    ((cacheAhead c rc (index - rc.messageIndex) s).setRecvChain
      (chainKeyAt c rc.chainKey (index - rc.messageIndex + 1)) (index + 1))

/-- An honest envelope of the current epoch, at or ahead of the chain position. -/
structure HonestAhead (c : Crypto) (w : Wire) (s : SessionInner) (rc : ChainState)
    (metadata : EnvelopeMetadata) (payload : Bytes) (envelope : SecureEnvelope) : Prop where
  isSealed : ∃ t, SameSession t s.state ∧ SealedFor c w t s.state.metadataKey
    (messageKeyOf c (chainKeyAt c rc.chainKey (metadata.messageIndex - rc.messageIndex)))
    metadata payload envelope
  noHeader : envelope.hasRatchetHeader = false
  epoch : envelope.ratchetEpoch = s.state.recvRatchetEpoch
  previousChainLength : envelope.previousChainLength = none
  good : GoodMetadata s metadata
  fresh : metadata.payloadNonce ∉ s.seenPayloadNonces
  chain : s.state.recvChain = some rc
  chainKey : rc.chainKey.length = chainKeyBytes
  ahead : rc.messageIndex ≤ metadata.messageIndex
  gap : metadata.messageIndex - rc.messageIndex ≤ maxSkippedMessageKeys

theorem HonestAhead.aheadOfChain (hc : c.Correct)
    {payload : Bytes}
    {rc : ChainState} (h : HonestAhead c w s rc metadata payload envelope)
    (hcan : CanReceive clock s activityUnix) : AheadOfChain c w clock envelope s metadata rc := by
  obtain ⟨t, hsame, hsealed⟩ := h.isSealed
  have hopen : readMetadata c w envelope false s = .ok metadata := by
    rw [readMetadata, except_bind_eq_ok]
    exact ⟨metadata, hsealed.openMetadata hc hsame rfl,
      except_seq_eq_ok.mpr ⟨h.good.check h.fresh, rfl⟩⟩
  exact ⟨⟨_, hcan.check hsealed⟩, h.noHeader, h.epoch, h.previousChainLength, hopen,
    checkRecvMessageIndex_eq_ok.mpr ⟨h.chain, h.chainKey, h.good.index_le⟩, h.ahead, h.gap⟩

theorem HonestAhead.decrypt (hc : c.Correct)
    {payload : Bytes} {rc : ChainState}
    (h : HonestAhead c w s rc metadata payload envelope) (hcan : CanReceive clock s activityUnix) :
    (decrypt c w clock envelope).run s = .ok { plaintext := payload, metadata := metadata }
      (afterAhead c rc metadata.messageIndex metadata.payloadNonce activityUnix s) := by
  obtain ⟨t, hsame, hsealed⟩ := h.isSealed
  have htake : (takeMessageKey c envelope false metadata.messageIndex).run s = .ok _ _ :=
    getRecvMessageKey_eq_ok.mpr ⟨rc, (h.aheadOfChain hc hcan).chain,
      .inr ⟨h.ahead, h.gap, rfl, rfl⟩⟩
  exact decrypt_of_entered hc hsealed (hcan.check hsealed)
    (.current h.noHeader h.epoch h.previousChainLength) rfl hsame h.good h.fresh htake hsame

/-! ## The two sides of a ratchet -/

/-- A receiver's private keys belong to the public keys the sender has of it. -/
structure KeysMatch (c : Crypto) (dhPublic kyberPublic : Bytes) (s : SessionInner) : Prop where
  dh : ∃ sk, s.dhPrivateHandle = some sk ∧ sk.length = x25519PrivateKeyBytes ∧
    dhPublic = c.x25519Public sk
  kyber : ∃ seed, s.kyberSecretHandle = some (c.kemKeygen seed).1 ∧
    kyberPublic = (c.kemKeygen seed).2

/-- The ratchet header of a step. -/
def SendRatchet.header (step : SendRatchet) : RatchetHeader where
  dhPublic := step.newPublic
  kyberCiphertext := step.kyberCiphertext
  newKyberPublic := step.newKyberPublic

theorem checkRatchetHeader_of_send (hc : c.Correct) {s r : SessionInner}
    {step : SendRatchet} (hstep : deriveSendRatchet c rnd s = .ok step)
    (hdh : envelope.dhPublicKey = some step.newPublic)
    (hct : envelope.kyberCiphertext = some step.kyberCiphertext)
    (hpk : envelope.newKyberPublic = some step.newKyberPublic)
    (hroot : r.state.rootKey.length = rootKeyBytes) :
    checkRatchetHeader c envelope r = .ok step.header := by
  obtain ⟨_, out, -, -, hout, -, hstep⟩ := deriveSendRatchet_eq_ok hstep
  obtain ⟨-, -, rfl⟩ := KyberInterop.encapsulate_eq_ok.mp hout
  have hctlen := c.length_kemEncaps_ciphertext s.state.kyberRemotePublic rnd.kyberEncapsulation
  have hct0 := hc.kemEncaps_ne_zero s.state.kyberRemotePublic rnd.kyberEncapsulation
  simp only [checkRatchetHeader, except_bind_eq_ok, orError_eq_ok, require_eq_ok,
    KyberInterop.validateCiphertext]
  rw [hdh, hct, hpk, hstep]
  exact ⟨_, rfl, _, rfl, _, rfl, (), ⟨c.length_x25519Public _, hctlen⟩, (),
    c.length_kemKeygen_public _, (), hc.x25519Public_valid _, (), ⟨(), hctlen, hct0⟩, (),
    hc.kemKeygen_valid _, (), hroot, rfl⟩

/-- With the same root and matching keys, the receiver of a ratchet derives the sender's keys. -/
theorem recvRatchetOutput_of_send (hc : c.Correct) {s r : SessionInner}
    {step : SendRatchet} (hstep : deriveSendRatchet c rnd s = .ok step)
    (hroot : r.state.rootKey = s.state.rootKey)
    (hkeys : KeysMatch c s.state.dhRemotePublic s.state.kyberRemotePublic r) :
    recvRatchetOutput c step.header r = .ok step.keys := by
  obtain ⟨dhSecret, out, -, hdh, hout, hkeysOut, hstep⟩ := deriveSendRatchet_eq_ok hstep
  obtain ⟨sk, hhandle, hsk, hpub⟩ := hkeys.dh
  obtain ⟨seed, hkhandle, hkpub⟩ := hkeys.kyber
  rw [hpub] at hdh
  rw [hkpub] at hout
  have hheader : step.header =
      ⟨c.x25519Public rnd.x25519Private, out.1, (c.kemKeygen rnd.kyberSeed).2⟩ := by
    rw [hstep]
    rfl
  have hdh' : computeDh c sk step.header.dhPublic = .ok dhSecret := by
    rw [hheader]
    exact computeDh_comm hc hsk hdh
  have hdecaps : KyberInterop.decapsulate c step.header.kyberCiphertext (c.kemKeygen seed).1 =
      .ok out.2 := by
    rw [hheader]
    exact KyberInterop.decapsulate_of_encapsulate hc hout
  rw [recvRatchetOutput, except_bind_eq_ok]
  refine ⟨sk, orError_eq_ok.mpr hhandle, except_bind_eq_ok.mpr ⟨sk, readBytes_of_length_eq hsk,
    except_bind_eq_ok.mpr ⟨_, hdh', except_bind_eq_ok.mpr ⟨_, orError_eq_ok.mpr hkhandle,
    except_bind_eq_ok.mpr ⟨_, hdecaps, ?_⟩⟩⟩⟩⟩
  rw [hroot, hheader]
  exact hkeysOut

end AuraProtocol.Session
