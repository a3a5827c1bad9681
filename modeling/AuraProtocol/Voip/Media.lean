import AuraProtocol.Crypto.Padding
import AuraProtocol.Voip.KeyRatchet

/-!
# Encryption of media frames

`protocol/voip/frame.rs` and `protocol/voip/media_crypto.rs`: the header of a frame and its
serialisation, the associated data, the padding and the two AEAD calls of a frame.  The
payload and the header of a frame use the same counter; the nonce of the header differs in
its first byte.
-/

namespace AuraProtocol.Voip

open Fallible List

variable {key : Key} {header plaintext aad ct : Bytes}

def callIdBytes : ℕ := 32
def maxFrameCounter : ℕ := (1 <<< 48) - 1
def maxVoipFrameSize : ℕ := 64 * 1024
def voipFramePaddingBlock : ℕ := 16

/-- The identifier of a call. -/
abbrev CallId := { bs : Bytes // bs.length = callIdBytes }

/-! ## Frame headers -/

structure FrameHeader where
  payloadType : UInt8
  ssrc : UInt32
  timestamp : UInt32
  sequenceNumber : UInt16
  deriving DecidableEq

namespace FrameHeader

def serializedSize : ℕ := 11

def serialize (h : FrameHeader) : Bytes :=
  h.payloadType :: (beBytes 4 h.ssrc.toNat ++ beBytes 4 h.timestamp.toNat ++
    beBytes 2 h.sequenceNumber.toNat)

def deserialize (data : Bytes) : Except ProtocolError FrameHeader := do
  require (serializedSize ≤ data.length) (.voipMedia "frame header too short")
  .ok
    { payloadType := data.headD 0
      ssrc := UInt32.ofNat (beNat ((data.drop 1).take 4))
      timestamp := UInt32.ofNat (beNat ((data.drop 5).take 4))
      sequenceNumber := UInt16.ofNat (beNat ((data.drop 9).take 2)) }

@[simp] theorem length_serialize (h : FrameHeader) : h.serialize.length = serializedSize := by
  simp [serialize, serializedSize]

/-- Deserialising recovers every serialised header. -/
theorem deserialize_serialize (h : FrameHeader) : deserialize h.serialize = .ok h := by
  have hssrc : (h.serialize.drop 1).take 4 = beBytes 4 h.ssrc.toNat := by
    rw [serialize, drop_one, tail_cons, append_assoc,
      take_left' (length_beBytes _ _)]
  have htimestamp : (h.serialize.drop 5).take 4 = beBytes 4 h.timestamp.toNat := by
    rw [serialize, drop_succ_cons, append_assoc,
      drop_left' (length_beBytes _ _), take_left' (length_beBytes _ _)]
  have hsequence : (h.serialize.drop 9).take 2 = beBytes 2 h.sequenceNumber.toNat := by
    rw [serialize, drop_succ_cons, drop_left' (by simp),
      take_of_length_le (length_beBytes _ _).le]
  have hsize : serializedSize ≤ h.serialize.length := (length_serialize h).ge
  rw [deserialize, except_seq_eq_ok]
  refine ⟨require_eq_ok.mpr hsize, congrArg Except.ok ?_⟩
  rw [hssrc, htimestamp, hsequence, beNat_beBytes _ _ h.ssrc.toNat_lt,
    beNat_beBytes _ _ h.timestamp.toNat_lt, beNat_beBytes _ _ h.sequenceNumber.toNat_lt,
    UInt32.ofNat_toNat, UInt32.ofNat_toNat, UInt16.ofNat_toNat]
  rfl

end FrameHeader

def buildFrameAad (callId : CallId) (ssrc : UInt32) (frameCounter ratchetGeneration : ℕ) : Bytes :=
  callId.1 ++ beBytes 4 ssrc.toNat ++ beBytes 8 frameCounter ++ beBytes 4 ratchetGeneration

/-! ## Padding -/

/-- The length of a padded frame. -/
def paddedFrameLength (len : ℕ) : ℕ :=
  (len + 1 + (voipFramePaddingBlock - 1)) / voipFramePaddingBlock * voipFramePaddingBlock

def padFrame (data : Bytes) : Bytes :=
  data ++ 0x01 :: List.replicate (paddedFrameLength data.length - (data.length + 1)) 0x00

/-- `unpad_frame`: as `MessagePadding::unpad`, and an empty payload is refused. -/
def unpadFrame (padded : Bytes) : Except ProtocolError Bytes := do
  require (padded ≠ []) (.voipMedia "invalid padding: empty")
  require (padded.length % voipFramePaddingBlock = 0) (.voipMedia "invalid padding: not aligned")
  let foundPos ← orError (MessagePadding.lastSentinel padded 0 none)
    (.voipMedia "invalid padding: no sentinel found")
  require (foundPos ≠ 0) (.voipMedia "empty decrypted frame payload")
  require (MessagePadding.nonZeroAfterSentinel foundPos padded 0 0 = 0)
    (.voipMedia "invalid padding: non-zero after sentinel")
  .ok (padded.take foundPos)

theorem length_padFrame (data : Bytes) :
    (padFrame data).length = paddedFrameLength data.length := by
  rw [padFrame, length_append, length_cons, length_replicate, paddedFrameLength,
    voipFramePaddingBlock]
  omega

/-- When `unpad_frame` succeeds, and with what. -/
theorem unpadFrame_eq_ok {padded data : Bytes} :
    unpadFrame padded = .ok data ↔ padded ≠ [] ∧ padded.length % voipFramePaddingBlock = 0 ∧
      data ≠ [] ∧ ∃ n, padded = data ++ 0x01 :: List.replicate n 0x00 := by
  rw [unpadFrame, except_seq_eq_ok, except_seq_eq_ok, require_eq_ok, require_eq_ok,
    except_bind_eq_ok, ← MessagePadding.loops_iff]
  refine and_congr_right fun _ => and_congr_right fun _ => ?_
  simp only [except_seq_eq_ok, require_eq_ok, orError_eq_ok, Except.ok.injEq]
  constructor
  · rintro ⟨pos, hfound, hpos, hzeros, rfl⟩
    have hlt := (MessagePadding.eq_of_loops hfound hzeros).1
    refine ⟨fun hnil => ?_, pos, hfound, hzeros, rfl⟩
    have hlength := congrArg List.length hnil
    rw [length_take, length_nil] at hlength
    omega
  · rintro ⟨hne, pos, hfound, hzeros, rfl⟩
    refine ⟨pos, hfound, fun hpos => hne ?_, hzeros, rfl⟩
    rw [hpos, take_zero]

/-- Unpadding recovers every padded payload that is not empty. -/
theorem unpadFrame_padFrame {data : Bytes} (hne : data ≠ []) :
    unpadFrame (padFrame data) = .ok data := by
  refine unpadFrame_eq_ok.mpr ⟨?_, ?_, hne, _, rfl⟩
  · exact append_ne_nil_of_left_ne_nil hne _
  · rw [length_padFrame, paddedFrameLength]
    exact Nat.mul_mod_left _ _

/-! ## Nonces and ciphertexts -/

namespace MediaCrypto

def buildNonce (noncePrefix : NoncePrefix) (frameCounter : ℕ) : Bytes :=
  noncePrefix.1 ++ beBytes 8 frameCounter

/-- The nonce of the header: the first byte of the frame's nonce is inverted. -/
def headerNonce (noncePrefix : NoncePrefix) (frameCounter : ℕ) : Bytes :=
  (buildNonce noncePrefix frameCounter).modifyHead (· ^^^ 0xFF)

def encryptFrame (c : Crypto) (mediaKey : Key) (noncePrefix : NoncePrefix) (frameCounter : ℕ)
    (plaintext aad : Bytes) : Except ProtocolError Bytes := do
  require (plaintext ≠ []) (.voipMedia "empty frame payload")
  require (plaintext.length ≤ maxVoipFrameSize) (.voipMedia "frame payload too large")
  require (frameCounter ≤ maxFrameCounter) (.voipMedia "frame counter overflow")
  (AesGcm.encrypt c mediaKey.1 (buildNonce noncePrefix frameCounter) (padFrame plaintext)
    aad).mapError fun _ => .voipMedia "AES-256-GCM-SIV frame encryption failed"

def decryptFrame (c : Crypto) (mediaKey : Key) (noncePrefix : NoncePrefix) (frameCounter : ℕ)
    (ciphertext aad : Bytes) : Except ProtocolError Bytes := do
  require (aesGcmTagBytes ≤ ciphertext.length) (.voipMedia "ciphertext too small")
  require (frameCounter ≤ maxFrameCounter) (.voipMedia "frame counter overflow")
  let padded ← (AesGcm.decrypt c mediaKey.1 (buildNonce noncePrefix frameCounter) ciphertext
    aad).mapError fun _ => .voipMedia "frame authentication failed — tampered data"
  unpadFrame padded

def encryptHeader (c : Crypto) (headerKey : Key) (noncePrefix : NoncePrefix) (frameCounter : ℕ)
    (header : Bytes) : Except ProtocolError Bytes :=
  (AesGcm.encrypt c headerKey.1 (headerNonce noncePrefix frameCounter) header []).mapError
    fun _ => .voipMedia "header encryption failed"

def decryptHeader (c : Crypto) (headerKey : Key) (noncePrefix : NoncePrefix) (frameCounter : ℕ)
    (ciphertext : Bytes) : Except ProtocolError Bytes := do
  require (aesGcmTagBytes ≤ ciphertext.length) (.voipMedia "header ciphertext too small")
  (AesGcm.decrypt c headerKey.1 (headerNonce noncePrefix frameCounter) ciphertext []).mapError
    fun _ => .voipMedia "header authentication failed"

variable {c : Crypto} {noncePrefix noncePrefix' : NoncePrefix} {counter counter' : ℕ}

theorem lt_of_le_maxFrameCounter (h : counter ≤ maxFrameCounter) : counter < 256 ^ 8 :=
  lt_of_le_of_lt h (by decide)

section

variable (noncePrefix : NoncePrefix) (counter : ℕ)

theorem length_buildNonce :
    (buildNonce noncePrefix counter).length = aesGcmNonceBytes := by
  rw [buildNonce, length_append, noncePrefix.2, length_beBytes]
  rfl

theorem length_headerNonce :
    (headerNonce noncePrefix counter).length = aesGcmNonceBytes := by
  rw [headerNonce, length_modifyHead, length_buildNonce]

theorem drop_buildNonce :
    (buildNonce noncePrefix counter).drop voipNoncePrefixBytes = beBytes 8 counter := by
  rw [buildNonce, drop_left' noncePrefix.2]

theorem drop_headerNonce :
    (headerNonce noncePrefix counter).drop voipNoncePrefixBytes = beBytes 8 counter := by
  rw [← drop_buildNonce noncePrefix counter, headerNonce]
  cases buildNonce noncePrefix counter <;> rfl

end

section

variable (hc : counter ≤ maxFrameCounter) (hc' : counter' ≤ maxFrameCounter)
  (hne : counter ≠ counter')
include hc hc' hne

/-- Frames with different counters have different nonces, whatever their streams. -/
theorem buildNonce_ne : buildNonce noncePrefix counter ≠ buildNonce noncePrefix' counter' := by
  intro h
  have hdrop := congrArg (List.drop voipNoncePrefixBytes) h
  rw [drop_buildNonce, drop_buildNonce] at hdrop
  exact hne (beBytes_injective (lt_of_le_maxFrameCounter hc) (lt_of_le_maxFrameCounter hc') hdrop)

theorem headerNonce_ne :
    headerNonce noncePrefix counter ≠ headerNonce noncePrefix' counter' := by
  intro h
  have hdrop := congrArg (List.drop voipNoncePrefixBytes) h
  rw [drop_headerNonce, drop_headerNonce] at hdrop
  exact hne (beBytes_injective (lt_of_le_maxFrameCounter hc) (lt_of_le_maxFrameCounter hc') hdrop)

end

theorem encryptFrame_eq_ok :
    encryptFrame c key noncePrefix counter plaintext aad = .ok ct ↔
      plaintext ≠ [] ∧ plaintext.length ≤ maxVoipFrameSize ∧ counter ≤ maxFrameCounter ∧
        AesGcm.encrypt c key.1 (buildNonce noncePrefix counter) (padFrame plaintext) aad =
          .ok ct := by
  simp only [encryptFrame, except_bind_eq_ok, require_eq_ok, exists_const, mapError_eq_ok]

theorem encryptHeader_eq_ok :
    encryptHeader c key noncePrefix counter header = .ok ct ↔
      AesGcm.encrypt c key.1 (headerNonce noncePrefix counter) header [] = .ok ct := mapError_eq_ok

/-- A frame decrypts to the payload it was encrypted from. -/
theorem decryptFrame_of_encryptFrame (hc : c.Correct)
    (h : encryptFrame c key noncePrefix counter plaintext aad = .ok ct) :
    decryptFrame c key noncePrefix counter ct aad = .ok plaintext := by
  obtain ⟨hne, -, hcounter, henc⟩ := encryptFrame_eq_ok.mp h
  have hdec := AesGcm.decrypt_of_encrypt hc henc
  have htag := (AesGcm.decrypt_eq_ok.mp hdec).2.1
  rw [decryptFrame, except_seq_eq_ok, except_seq_eq_ok, except_bind_eq_ok]
  exact ⟨require_eq_ok.mpr htag, require_eq_ok.mpr hcounter, _, mapError_eq_ok.mpr hdec,
    unpadFrame_padFrame hne⟩

theorem decryptHeader_of_encryptHeader (hc : c.Correct)
    (h : encryptHeader c key noncePrefix counter header = .ok ct) :
    decryptHeader c key noncePrefix counter ct = .ok header := by
  have hdec := AesGcm.decrypt_of_encrypt hc (encryptHeader_eq_ok.mp h)
  have htag := (AesGcm.decrypt_eq_ok.mp hdec).2.1
  rw [decryptHeader, except_seq_eq_ok]
  exact ⟨require_eq_ok.mpr htag, mapError_eq_ok.mpr hdec⟩

/-- The size of an encrypted payload. -/
theorem length_of_encryptFrame (hc : c.Correct)
    (h : encryptFrame c key noncePrefix counter plaintext aad = .ok ct) :
    ct.length ≤ maxVoipFrameSize + voipFramePaddingBlock + aesGcmTagBytes := by
  obtain ⟨-, hlen, -, henc⟩ := encryptFrame_eq_ok.mp h
  rw [hc.length_of_aeadSeal _ _ _ _ _ (AesGcm.encrypt_eq_ok.mp henc).2, length_padFrame,
    paddedFrameLength]
  rw [maxVoipFrameSize] at hlen ⊢
  rw [voipFramePaddingBlock]
  omega

theorem length_of_encryptHeader (hc : c.Correct)
    (h : encryptHeader c key noncePrefix counter header = .ok ct) :
    ct.length = header.length + aesGcmTagBytes :=
  hc.length_of_aeadSeal _ _ _ _ _ (AesGcm.encrypt_eq_ok.mp (encryptHeader_eq_ok.mp h)).2

end MediaCrypto

end AuraProtocol.Voip
