import AuraProtocol.Attachment.Filename
import AuraProtocol.Crypto.Instance
import AuraProtocol.Lib.Pieces

/-!
# Streaming encryption of attachments

`encrypt_chunk`, `decrypt_chunk` and the two streaming objects of
`protocol/attachment.rs`.  The encryptor buffers what it is given and emits a chunk
whenever the buffer is full; `finish` emits what is left.

`At c p written out e` says what the encryptor has done after any sequence of writes:
with `written` the bytes so far, it has emitted the complete pieces of `written` in
order, and buffers the rest.  Nothing in it mentions how the bytes were cut into
writes.  A write that fails leaves a full buffer that cannot be flushed (`Stuck`), and
from there nothing succeeds any more.
-/

namespace AuraProtocol.Attachment

open Fallible Pieces List

variable {plains : List (ℕ × Bytes)} {i : ℕ} {m : Bytes} {err : ProtocolError} {writes : List Bytes}
  {p : StreamParams}

def attachmentIdBytes : ℕ := 32
def attachmentFileKeyBytes : ℕ := 32
def maxAttachmentChunkSize : ℕ := 1024 * 1024
def attachmentNonceInfo : Bytes := ascii "Aura-Attachment-Nonce"

/-! ## MIME types -/

/-- The punctuation `is_mime_token_byte` allows; the last two are the apostrophe and the grave
accent. -/
def mimePunctuation : List Char :=
  "!#$%&*+-.^_|~".toList ++ [Char.ofNat 0x27, Char.ofNat 0x60]

/-- `is_mime_token_byte`. -/
def isMimeToken (ch : Char) : Bool := ch.isAlphanum || mimePunctuation.contains ch

def validateMimeType (mimeType : List Char) : Except ProtocolError Unit := do
  require (mimeType ≠ []) (.invalidInput "Attachment mime_type is required")
  require (byteLen mimeType ≤ 255) (.invalidInput "Attachment mime_type too long")
  require (mimeType.all (·.val < 128)) (.invalidInput "Attachment mime_type must be ASCII")
  require ('/' ∈ mimeType) (.invalidInput "Attachment mime_type must contain '/'")
  let typePart := mimeType.takeWhile (· ≠ '/')
  let subtypePart := (mimeType.dropWhile (· ≠ '/')).drop 1
  require (typePart ≠ [] ∧ subtypePart ≠ [] ∧ '/' ∉ subtypePart)
    (.invalidInput "Attachment mime_type must be type/subtype")
  require (typePart.all isMimeToken = true ∧ subtypePart.all isMimeToken = true)
    (.invalidInput "Attachment mime_type contains invalid characters")

theorem byteLen_le_of_validateMimeType {mimeType : List Char}
    (h : validateMimeType mimeType = .ok ()) : byteLen mimeType ≤ 255 := by
  simp only [validateMimeType, except_seq_eq_ok, require_eq_ok] at h
  exact h.2.1

/-! ## Chunks -/

/-- What the sender and the receiver of a stream agree on. -/
structure StreamParams where
  fileKey : Bytes
  attachmentId : Bytes
  mimeType : List Char
  totalSize : ℕ
  chunkSize : ℕ
  chunkCount : ℕ
  deriving DecidableEq, Repr

/-- The relation between the sizes that `validate_manifest` asks for. -/
def StreamParams.SizesMatch (p : StreamParams) : Prop :=
  (p.chunkCount - 1) * p.chunkSize < p.totalSize ∧ p.totalSize ≤ p.chunkCount * p.chunkSize

structure EncryptedChunk where
  chunkIndex : ℕ
  nonce : Bytes
  ciphertext : Bytes
  deriving DecidableEq, Repr

variable {chunks : List EncryptedChunk}

def chunkAad (p : StreamParams) (chunkIndex : ℕ) : Bytes :=
  ascii "Aura-Attachment-Chunk-v1" ++ p.attachmentId ++ leBytes 8 p.totalSize ++
    leBytes 4 p.chunkSize ++ leBytes 4 chunkIndex ++ leBytes 4 p.chunkCount ++ utf8 p.mimeType

def deriveChunkNonce (c : Crypto) (fileKey attachmentId : Bytes) (chunkIndex : ℕ) :
    Except ProtocolError Bytes := do
  require (fileKey.length = attachmentFileKeyBytes)
    (.invalidInput "Attachment file key must be 32 bytes")
  require (attachmentId.length = attachmentIdBytes) (.invalidInput "Attachment ID must be 32 bytes")
  HkdfSha256.deriveKeyBytes c fileKey aesGcmNonceBytes (attachmentId ++ leBytes 4 chunkIndex)
    attachmentNonceInfo

/-- `encrypt_chunk`: the nonce and the ciphertext. -/
def encryptChunk (c : Crypto) (p : StreamParams) (chunkIndex : ℕ) (plaintext : Bytes) :
    Except ProtocolError (Bytes × Bytes) := do
  require (plaintext ≠ []) (.invalidInput "Attachment chunk plaintext is empty")
  require (plaintext.length ≤ p.chunkSize ∧ plaintext.length ≤ maxAttachmentChunkSize)
    (.invalidInput "Attachment chunk plaintext is too large")
  require (chunkIndex < p.chunkCount) (.invalidInput "Attachment chunk_index must be < chunk_count")
  validateMimeType p.mimeType
  let nonce ← deriveChunkNonce c p.fileKey p.attachmentId chunkIndex
  let ciphertext ← AesGcm.encrypt c p.fileKey nonce plaintext (chunkAad p chunkIndex)
  .ok (nonce, ciphertext)

def decryptChunk (c : Crypto) (p : StreamParams) (chunkIndex : ℕ) (nonce ciphertext : Bytes) :
    Except ProtocolError Bytes := do
  require (chunkIndex < p.chunkCount) (.invalidInput "Attachment chunk_index must be < chunk_count")
  require (16 ≤ ciphertext.length) (.invalidInput "Attachment chunk ciphertext is too small")
  require (ciphertext.length ≤ p.chunkSize + 16)
    (.invalidInput "Attachment chunk ciphertext is too large")
  require (nonce.length = aesGcmNonceBytes) (.invalidInput "Attachment chunk nonce must be 12 bytes")
  validateMimeType p.mimeType
  let expectedNonce ← deriveChunkNonce c p.fileKey p.attachmentId chunkIndex
  require (nonce = expectedNonce) (.invalidInput "Attachment chunk nonce mismatch")
  AesGcm.decrypt c p.fileKey nonce ciphertext (chunkAad p chunkIndex)

/-- The checks that the two constructors share. -/
structure StreamParams.Accepted (p : StreamParams) : Prop where
  fileKey : p.fileKey.length = attachmentFileKeyBytes
  attachmentId : p.attachmentId.length = attachmentIdBytes
  chunkSize_pos : 0 < p.chunkSize
  chunkSize_le : p.chunkSize ≤ maxAttachmentChunkSize
  chunkCount_pos : 0 < p.chunkCount
  mimeType : validateMimeType p.mimeType = .ok ()

/-- `ch` is chunk `i` of a stream, with plaintext `m`. -/
def IsChunk (c : Crypto) (p : StreamParams) (m : Bytes) (i : ℕ) (ch : EncryptedChunk) : Prop :=
  ch.chunkIndex = i ∧ encryptChunk c p i m = .ok (ch.nonce, ch.ciphertext)

variable {ch : EncryptedChunk} {out : List EncryptedChunk}

theorem IsChunk.unique {c : Crypto} {ch' : EncryptedChunk}
    (h : IsChunk c p m i ch) (h' : IsChunk c p m i ch') : ch = ch' := by
  obtain ⟨i₁, n₁, ct₁⟩ := ch
  obtain ⟨i₂, n₂, ct₂⟩ := ch'
  have heq := h.2.symm.trans h'.2
  rw [EncryptedChunk.mk.injEq]
  simp only [Except.ok.injEq, Prod.mk.injEq] at heq
  exact ⟨h.1.trans h'.1.symm, heq⟩

theorem encryptChunk_eq_ok {c : Crypto} {nonce ct : Bytes} :
    encryptChunk c p i m = .ok (nonce, ct) ↔
      m ≠ [] ∧ (m.length ≤ p.chunkSize ∧ m.length ≤ maxAttachmentChunkSize) ∧ i < p.chunkCount ∧
        validateMimeType p.mimeType = .ok () ∧
          deriveChunkNonce c p.fileKey p.attachmentId i = .ok nonce ∧
            AesGcm.encrypt c p.fileKey nonce m (chunkAad p i) = .ok ct := by
  rw [encryptChunk, except_seq_eq_ok, except_seq_eq_ok, except_seq_eq_ok, except_seq_eq_ok,
    except_bind_eq_ok, require_eq_ok, require_eq_ok, require_eq_ok]
  simp only [except_bind_eq_ok, Except.ok.injEq, Prod.mk.injEq, exists_eq_right_right]

theorem decryptChunk_eq_ok {c : Crypto} {nonce ct : Bytes} :
    decryptChunk c p i nonce ct = .ok m ↔
      i < p.chunkCount ∧ 16 ≤ ct.length ∧ ct.length ≤ p.chunkSize + 16 ∧
        nonce.length = aesGcmNonceBytes ∧ validateMimeType p.mimeType = .ok () ∧
          deriveChunkNonce c p.fileKey p.attachmentId i = .ok nonce ∧
            AesGcm.decrypt c p.fileKey nonce ct (chunkAad p i) = .ok m := by
  rw [decryptChunk, except_seq_eq_ok, except_seq_eq_ok, except_seq_eq_ok, except_seq_eq_ok,
    except_seq_eq_ok, except_bind_eq_ok, require_eq_ok, require_eq_ok, require_eq_ok, require_eq_ok]
  simp only [except_seq_eq_ok, require_eq_ok]
  constructor
  · rintro ⟨hi, h16, hle, hn, hm, n, hnonce, rfl, hdec⟩
    exact ⟨hi, h16, hle, hn, hm, hnonce, hdec⟩
  · rintro ⟨hi, h16, hle, hn, hm, hnonce, hdec⟩
    exact ⟨hi, h16, hle, hn, hm, nonce, hnonce, rfl, hdec⟩

/-- Every chunk decrypts to its plaintext. -/
theorem decryptChunk_of_isChunk {c : Crypto} (hc : c.Correct)
    (h : IsChunk c p m i ch) : decryptChunk c p i ch.nonce ch.ciphertext = .ok m := by
  obtain ⟨-, hlen, hi, hmime, hnonce, henc⟩ := encryptChunk_eq_ok.mp h.2
  obtain ⟨⟨-, hn⟩, hseal⟩ := AesGcm.encrypt_eq_ok.mp henc
  have hct := hc.length_of_aeadSeal _ _ _ _ _ hseal
  rw [aesGcmTagBytes] at hct
  exact decryptChunk_eq_ok.mpr ⟨hi, by omega, by omega, hn, hmime, hnonce,
    AesGcm.decrypt_of_encrypt hc henc⟩

/-- The ciphertext of a chunk is longer than its plaintext by the tag. -/
theorem IsChunk.length_ciphertext {c : Crypto} (hc : c.Correct)
    (h : IsChunk c p m i ch) : ch.ciphertext.length = m.length + aesGcmTagBytes := by
  obtain ⟨-, -, -, -, -, henc⟩ := encryptChunk_eq_ok.mp h.2
  exact hc.length_of_aeadSeal _ _ _ _ _ (AesGcm.encrypt_eq_ok.mp henc).2

/-- Every non-empty piece of at most the chunk size can be made a chunk. -/
theorem StreamParams.Accepted.exists_chunk {c : Crypto} (hs : c.Seals)
    (hp : p.Accepted) (hi : i < p.chunkCount) (hm : m ≠ []) (hle : m.length ≤ p.chunkSize) :
    ∃ nonce ct, encryptChunk c p i m = .ok (nonce, ct) := by
  have hnonce : deriveChunkNonce c p.fileKey p.attachmentId i =
      .ok (c.hkdfExpand (HkdfSha256.extract c (p.attachmentId ++ leBytes 4 i) p.fileKey)
        attachmentNonceInfo aesGcmNonceBytes) := by
    rw [deriveChunkNonce, except_seq_eq_ok, except_seq_eq_ok, require_eq_ok, require_eq_ok]
    exact ⟨hp.fileKey, hp.attachmentId, HkdfSha256.deriveKeyBytes_eq c (by decide) (by decide) ..⟩
  have hmax := hle.trans hp.chunkSize_le
  have haad : (chunkAad p i).length ≤ 2 ^ 36 := by
    have hmime : (utf8 p.mimeType).length ≤ 255 := byteLen_le_of_validateMimeType hp.mimeType
    have htag : (ascii "Aura-Attachment-Chunk-v1").length = 24 := by decide
    have hid := hp.attachmentId
    rw [attachmentIdBytes] at hid
    simp only [chunkAad, length_append, length_leBytes]
    omega
  obtain ⟨ct, hct⟩ := AesGcm.exists_encrypt_eq_ok hs hp.fileKey (c.length_hkdfExpand _ _ _)
    (hmax.trans (by decide)) haad
  exact ⟨_, ct, encryptChunk_eq_ok.mpr ⟨hm, ⟨hle, hmax⟩, hi, hp.mimeType, hnonce, hct⟩⟩

/-! ## The encryptor -/

structure StreamingEncryptor extends StreamParams where
  currentChunkIndex : ℕ
  buffer : Bytes
  deriving DecidableEq, Repr

variable {last : Option EncryptedChunk}

namespace StreamingEncryptor

def new (p : StreamParams) : Except ProtocolError StreamingEncryptor := do
  require (p.fileKey.length = attachmentFileKeyBytes)
    (.invalidInput "Attachment file key must be 32 bytes")
  require (p.attachmentId.length = attachmentIdBytes)
    (.invalidInput "Attachment ID must be 32 bytes")
  require (0 < p.chunkSize ∧ p.chunkSize ≤ maxAttachmentChunkSize)
    (.invalidInput "Attachment chunk_size is out of range")
  require (0 < p.chunkCount) (.invalidInput "Attachment chunk_count must be > 0")
  require (0 < p.totalSize) (.invalidInput "Attachment total_size must be > 0")
  validateMimeType p.mimeType
  .ok { p with currentChunkIndex := 0, buffer := [] }

def flushBuffer (c : Crypto) : EStateM ProtocolError StreamingEncryptor EncryptedChunk := do
  let e ← get
  lift (require (e.currentChunkIndex < e.chunkCount)
    (.invalidState "StreamingEncryptor: chunk_count exceeded"))
  let sealedChunk ← lift (encryptChunk c e.toStreamParams e.currentChunkIndex e.buffer)
  modify fun e => { e with currentChunkIndex := e.currentChunkIndex + 1, buffer := [] }
  pure ⟨e.currentChunkIndex, sealedChunk.1, sealedChunk.2⟩

/-- The loop of `write`.  A round takes at least one byte or ends in a failed flush, so as many
rounds as there are bytes, and one more, are enough. -/
def writeLoop (c : Crypto) :
    ℕ → Bytes → EStateM ProtocolError StreamingEncryptor (List EncryptedChunk)
  | 0, _ => pure []
  | rounds + 1, data =>
    if data = [] then pure [] else do
      let e ← get
      let toCopy := min (e.chunkSize - e.buffer.length) data.length
      modify fun e => { e with buffer := e.buffer ++ data.take toCopy }
      let e ← get
      if e.buffer.length = e.chunkSize then do
        let chunk ← flushBuffer c
        let result ← writeLoop c rounds (data.drop toCopy)
        pure (chunk :: result)
      else writeLoop c rounds (data.drop toCopy)

def write (c : Crypto) (data : Bytes) :
    EStateM ProtocolError StreamingEncryptor (List EncryptedChunk) :=
  writeLoop c (data.length + 1) data

def finish (c : Crypto) : EStateM ProtocolError StreamingEncryptor (Option EncryptedChunk) := do
  let e ← get
  if e.buffer = [] then do
    lift (require (e.currentChunkIndex = e.chunkCount)
      (.invalidState "StreamingEncryptor: not all chunks emitted"))
    pure none
  else do
    let chunk ← flushBuffer c
    let e ← get
    lift (require (e.currentChunkIndex = e.chunkCount)
      (.invalidState "StreamingEncryptor: not all chunks emitted"))
    pure (some chunk)

/-- Writes that all have to succeed: the chunks they return. -/
def writeAll (c : Crypto) :
    List Bytes → EStateM ProtocolError StreamingEncryptor (List EncryptedChunk)
  | [] => pure []
  | data :: writes => do
    let chunks ← write c data
    let more ← writeAll c writes
    pure (chunks ++ more)

/-- A whole stream: the chunks of the writes and of `finish`. -/
def encryptAll (c : Crypto) (writes : List Bytes) :
    EStateM ProtocolError StreamingEncryptor (List EncryptedChunk) := do
  let chunks ← writeAll c writes
  let last ← finish c
  pure (chunks ++ last.toList)

/-- A sequence of writes, whether they succeed or fail: the chunks they return and the encryptor
afterwards. -/
def feed (c : Crypto) (e : StreamingEncryptor) :
    List Bytes → List EncryptedChunk × StreamingEncryptor
  | [] => ([], e)
  | data :: writes =>
    match (write c data).run e with
    | .ok chunks e' => ((feed c e' writes).map (chunks ++ ·) id)
    | .error _ e' => feed c e' writes

/-! ### One flush -/

variable {c : Crypto} {p : StreamParams} {e e' : StreamingEncryptor} {written : Bytes}

theorem new_eq_ok (h : new p = .ok e) :
    p.Accepted ∧ 0 < p.totalSize ∧ e = { p with currentChunkIndex := 0, buffer := [] } := by
  rw [new, except_seq_eq_ok, except_seq_eq_ok, except_seq_eq_ok, except_seq_eq_ok, except_seq_eq_ok,
    except_seq_eq_ok, require_eq_ok, require_eq_ok, require_eq_ok, require_eq_ok,
    require_eq_ok] at h
  obtain ⟨hkey, hid, ⟨hpos, hle⟩, hcount, htotal, hmime, heq⟩ := h
  exact ⟨⟨hkey, hid, hpos, hle, hcount, hmime⟩, htotal, (Except.ok.inj heq).symm⟩

theorem flushBuffer_eq_ok :
    (flushBuffer c).run e = .ok ch e' ↔
      e.currentChunkIndex < e.chunkCount ∧
        IsChunk c e.toStreamParams e.buffer e.currentChunkIndex ch ∧
          e' = { e with currentChunkIndex := e.currentChunkIndex + 1, buffer := [] } := by
  rw [flushBuffer, get_bind_run, require_bind_eq_ok, lift_bind_eq_ok]
  simp only [modify_bind_run, pure_run, EStateM.Result.ok.injEq]
  constructor
  · rintro ⟨hi, ⟨nonce, ct⟩, henc, rfl, rfl⟩
    exact ⟨hi, ⟨rfl, henc⟩, rfl⟩
  · rintro ⟨hi, ⟨hindex, henc⟩, rfl⟩
    exact ⟨hi, _, henc, by rw [← hindex], rfl⟩

theorem flushBuffer_eq_error (h : (flushBuffer c).run e = .error err e') : e' = e := by
  rw [flushBuffer, get_bind_run, lift_bind_eq_error] at h
  obtain ⟨-, rfl⟩ | ⟨_, -, h⟩ := h
  · rfl
  · obtain ⟨-, rfl⟩ | ⟨_, -, h⟩ := lift_bind_eq_error.mp h
    · rfl
    · cases h

/-- A flush of a non-empty buffer succeeds while there are chunks left. -/
theorem exists_flushBuffer_eq_ok (hs : c.Seals) (hp : e.toStreamParams.Accepted)
    (hi : e.currentChunkIndex < e.chunkCount) (hne : e.buffer ≠ [])
    (hle : e.buffer.length ≤ e.chunkSize) :
    ∃ ch e', (flushBuffer c).run e = .ok ch e' := by
  obtain ⟨nonce, ct, hct⟩ := hp.exists_chunk hs hi hne hle
  exact ⟨⟨_, nonce, ct⟩, _, flushBuffer_eq_ok.mpr ⟨hi, ⟨rfl, hct⟩, rfl⟩⟩

/-! ### What the encryptor has done so far -/

/-- The first `k` pieces of what was written, with their numbers. -/
def numbered (n : ℕ) (written : Bytes) (k : ℕ) : List (ℕ × Bytes) :=
  (List.range k).map fun i => (i, piece n written i)

theorem numbered_succ (n : ℕ) (written : Bytes) (k : ℕ) :
    numbered n written (k + 1) = numbered n written k ++ [(k, piece n written k)] := by
  rw [numbered, numbered, range_succ, map_append, map_singleton]

theorem numbered_append {n : ℕ} {k : ℕ} (h : k * n ≤ written.length)
    (rest : Bytes) : numbered n (written ++ rest) k = numbered n written k := by
  refine map_congr_left fun i hi => ?_
  have hi' : (i + 1) * n ≤ written.length :=
    (Nat.mul_le_mul_right n (mem_range.mp hi)).trans h
  rw [piece_append hi']

theorem numbered_eq_zipIdx (n : ℕ) (written : Bytes) (k : ℕ) :
    numbered n written k = (((List.range k).map (piece n written)).zipIdx 0).map Prod.swap := by
  refine ext_getElem (by simp [numbered]) fun i _ _ => ?_
  simp [numbered]

/-- The chunks of numbered plaintexts. -/
def AreChunks (c : Crypto) (p : StreamParams) :
    List (ℕ × Bytes) → List EncryptedChunk → Prop :=
  List.Forall₂ fun plain ch => IsChunk c p plain.2 plain.1 ch

theorem AreChunks.snoc (h : AreChunks c p plains out)
    (hch : IsChunk c p m i ch) : AreChunks c p (plains ++ [(i, m)]) (out ++ [ch]) :=
  rel_append h (.cons hch .nil)

/-- The last of the chunks is the one of the last plaintext. -/
theorem AreChunks.getLast (h : AreChunks c p (plains ++ [(i, m)]) out) :
    ∃ ch, out.getLast? = some ch ∧ IsChunk c p m i ch := by
  induction plains generalizing out with
  | nil =>
    cases h with
    | cons hch hnil =>
      cases hnil
      exact ⟨_, rfl, hch⟩
  | cons plain plains ih =>
    cases h with
    | cons _ hrest =>
      obtain ⟨ch, hlast, hch⟩ := ih hrest
      exact ⟨ch, by rw [List.getLast?_cons, hlast]; rfl, hch⟩

theorem AreChunks.unique {out out' : List EncryptedChunk} (h : AreChunks c p plains out)
    (h' : AreChunks c p plains out') : out = out' := by
  induction h generalizing out' with
  | nil => cases h'; rfl
  | cons hch _ ih =>
    cases h' with
    | cons hch' hrest => rw [hch.unique hch', ih hrest]

/-- The encryptor was given `written` in some number of writes, and emitted `out`. -/
structure At (c : Crypto) (p : StreamParams) (written : Bytes) (out : List EncryptedChunk)
    (e : StreamingEncryptor) : Prop where
  params : e.toStreamParams = p
  length : written.length = e.currentChunkIndex * p.chunkSize + e.buffer.length
  buffer : e.buffer = written.drop (e.currentChunkIndex * p.chunkSize)
  le : e.buffer.length ≤ p.chunkSize
  emitted : AreChunks c p (numbered p.chunkSize written e.currentChunkIndex) out

namespace At

variable {data : Bytes} {out : List EncryptedChunk}

section

variable (h : At c p written out e)
include h

theorem chunkSize : e.chunkSize = p.chunkSize :=
  congrArg StreamParams.chunkSize h.params

theorem chunkCount : e.chunkCount = p.chunkCount :=
  congrArg StreamParams.chunkCount h.params

/-- The buffer is the piece that comes next. -/
theorem buffer_eq_piece :
    e.buffer = piece p.chunkSize written e.currentChunkIndex := by
  rw [piece_eq_drop, ← h.buffer]
  rw [h.length, Nat.add_mul, Nat.one_mul]
  exact Nat.add_le_add_left h.le _

/-- Bytes that fit are put behind the buffer. -/
theorem fill (hfit : e.buffer.length + data.length ≤ p.chunkSize) :
    At c p (written ++ data) out { e with buffer := e.buffer ++ data } := by
  have hle : e.currentChunkIndex * p.chunkSize ≤ written.length := by
    rw [h.length]
    exact Nat.le_add_right _ _
  refine ⟨h.params, ?_, ?_, ?_, ?_⟩
  · rw [length_append, h.length, length_append, Nat.add_assoc]
  · rw [drop_append_of_le_length hle, ← h.buffer]
  · rwa [length_append]
  · rw [numbered_append hle]
    exact h.emitted

/-- A flush of a full buffer emits the next piece. -/
theorem flush (hfull : e.buffer.length = p.chunkSize)
    (hrun : (flushBuffer c).run e = .ok ch e') : At c p written (out ++ [ch]) e' := by
  obtain ⟨-, hch, rfl⟩ := flushBuffer_eq_ok.mp hrun
  have hlen : written.length = (e.currentChunkIndex + 1) * p.chunkSize := by
    rw [h.length, hfull, Nat.add_mul, Nat.one_mul]
  refine ⟨h.params, ?_, ?_, Nat.zero_le _, ?_⟩
  · exact hlen
  · rw [drop_of_length_le hlen.le]
  · rw [h.params, h.buffer_eq_piece] at hch
    rw [numbered_succ]
    exact h.emitted.snoc hch

end

end At

/-- A full buffer that cannot be flushed, after some of the bytes of `written`. -/
def Stuck (c : Crypto) (p : StreamParams) (written : Bytes) (e : StreamingEncryptor) : Prop :=
  ∃ taken out, taken <+: written ∧ At c p taken out e ∧ e.buffer.length = p.chunkSize ∧
    ∃ err, (flushBuffer c).run e = .error err e

/-! ### Writes -/

/-- One round of the loop. -/
theorem writeLoop_succ {rounds : ℕ} {data : Bytes} (hdata : data ≠ []) :
    (writeLoop c (rounds + 1) data).run e =
      let toCopy := min (e.chunkSize - e.buffer.length) data.length
      let filled := { e with buffer := e.buffer ++ data.take toCopy }
      if filled.buffer.length = e.chunkSize then
        (flushBuffer c >>= fun chunk => writeLoop c rounds (data.drop toCopy) >>= fun result =>
          pure (chunk :: result)).run filled
      else (writeLoop c rounds (data.drop toCopy)).run filled := by
  rw [writeLoop, if_neg hdata, get_bind_run, modify_bind_run, get_bind_run]
  dsimp only
  split_ifs <;> rfl

/-- The rounds of the loop from a buffer with room: all bytes are taken, or a flush fails. -/
theorem writeLoop_run (hpos : 0 < p.chunkSize) {rounds : ℕ} {data written : Bytes}
    (h : At c p written out e) (hroom : e.buffer.length < p.chunkSize)
    (hrounds : data.length ≤ rounds) :
    (∃ chunks e', (writeLoop c rounds data).run e = .ok chunks e' ∧
      At c p (written ++ data) (out ++ chunks) e' ∧ e'.buffer.length < p.chunkSize) ∨
    ∃ err e', (writeLoop c rounds data).run e = .error err e' ∧
      Stuck c p (written ++ data) e' := by
  induction rounds generalizing data written out e with
  | zero =>
    obtain rfl := length_eq_zero_iff.mp (Nat.le_zero.mp hrounds)
    exact .inl ⟨[], e, rfl, by simpa using h, hroom⟩
  | succ rounds ih =>
    by_cases hdata : data = []
    · subst hdata
      exact .inl ⟨[], e, rfl, by simpa using h, hroom⟩
    have hlen : 0 < data.length := length_pos_iff.mpr hdata
    rw [writeLoop_succ hdata, h.chunkSize]
    set toCopy := min (p.chunkSize - e.buffer.length) data.length with htoCopy
    have hcopy : 0 < toCopy ∧ toCopy ≤ data.length ∧
        e.buffer.length + toCopy ≤ p.chunkSize := by omega
    have htake : (data.take toCopy).length = toCopy := length_take_of_le hcopy.2.1
    have hrest : (data.drop toCopy).length ≤ rounds := by
      rw [length_drop]
      omega
    have hall : written ++ data.take toCopy ++ data.drop toCopy = written ++ data := by
      rw [append_assoc, take_append_drop]
    have hfill : At c p (written ++ data.take toCopy) out
        { e with buffer := e.buffer ++ data.take toCopy } :=
      h.fill (by rw [htake]; exact hcopy.2.2)
    dsimp only
    split_ifs with hfull
    · -- the buffer is full: it is flushed, and the rest goes into an empty one
      cases hflush : (flushBuffer c).run { e with buffer := e.buffer ++ data.take toCopy } with
      | error err e' =>
        rw [bind_of_error hflush]
        obtain rfl := flushBuffer_eq_error hflush
        refine .inr ⟨err, _, rfl, _, out, ?_, hfill, hfull, err, hflush⟩
        exact hall ▸ prefix_append _ _
      | ok ch e' =>
        rw [bind_of_ok hflush]
        have hnext := hfill.flush hfull hflush
        have hempty : e'.buffer.length < p.chunkSize := by
          obtain ⟨-, -, rfl⟩ := flushBuffer_eq_ok.mp hflush
          exact hpos
        obtain ⟨chunks, e'', hrun, hat, hroom'⟩ | ⟨err, e'', hrun, hstuck⟩ :=
          ih hnext hempty hrest
        · rw [hall, append_assoc] at hat
          exact .inl ⟨ch :: chunks, e'', by rw [bind_of_ok hrun]; rfl, hat, hroom'⟩
        · rw [hall] at hstuck
          exact .inr ⟨err, e'', bind_of_error hrun, hstuck⟩
    · have hroom' : (e.buffer ++ data.take toCopy).length < p.chunkSize :=
        lt_of_le_of_ne hfill.le hfull
      have := ih hfill hroom' hrest
      rwa [hall] at this

/-- A write into an encryptor that is stuck fails again and changes nothing, unless there is
nothing to write. -/
theorem Stuck.write (hstuck : Stuck c p written e) (data : Bytes) :
    (StreamingEncryptor.write c data).run e = .ok [] e ∧ data = [] ∨
      ∃ err, (StreamingEncryptor.write c data).run e = .error err e := by
  obtain ⟨taken, out, -, hat, hfull, err, hflush⟩ := hstuck
  by_cases hdata : data = []
  · subst hdata
    exact .inl ⟨rfl, rfl⟩
  right
  have hcopy : min (e.chunkSize - e.buffer.length) data.length = 0 := by
    rw [hat.chunkSize, hfull, Nat.sub_self, Nat.zero_min]
  refine ⟨err, ?_⟩
  rw [StreamingEncryptor.write, writeLoop_succ hdata, hcopy]
  dsimp only
  rw [take_zero, append_nil, if_pos (hfull.trans hat.chunkSize.symm),
    bind_of_error hflush]

theorem write_run (hpos : 0 < p.chunkSize)
    (h : At c p written out e) (hroom : e.buffer.length < p.chunkSize) (data : Bytes) :
    (∃ chunks e', (write c data).run e = .ok chunks e' ∧
      At c p (written ++ data) (out ++ chunks) e' ∧ e'.buffer.length < p.chunkSize) ∨
    ∃ err e', (write c data).run e = .error err e' ∧ Stuck c p (written ++ data) e' :=
  writeLoop_run hpos h hroom (Nat.le_succ _)

theorem Stuck.append (h : Stuck c p written e) (rest : Bytes) :
    Stuck c p (written ++ rest) e := by
  obtain ⟨taken, out, hpre, h⟩ := h
  exact ⟨taken, out, hpre.trans (prefix_append _ _), h⟩

/-- Writes that all have to succeed: all bytes are taken, or one of the writes gets stuck. -/
theorem writeAll_run (hpos : 0 < p.chunkSize)
    (h : At c p written out e) (hroom : e.buffer.length < p.chunkSize) (writes : List Bytes) :
    (∃ chunks e', (writeAll c writes).run e = .ok chunks e' ∧
      At c p (written ++ writes.flatten) (out ++ chunks) e' ∧ e'.buffer.length < p.chunkSize) ∨
    ∃ e', Stuck c p (written ++ writes.flatten) e' := by
  induction writes generalizing written out e with
  | nil => exact .inl ⟨[], e, rfl, by simpa using h, hroom⟩
  | cons data writes ih =>
    rw [flatten_cons, ← append_assoc]
    obtain ⟨chunks, e₁, hrun, hat, hroom₁⟩ | ⟨-, e₁, -, hstuck⟩ := write_run hpos h hroom data
    · obtain ⟨more, e₂, hrun₂, hat₂, hroom₂⟩ | hstuck := ih hat hroom₁
      · rw [append_assoc out] at hat₂
        exact .inl ⟨chunks ++ more, e₂, by rw [writeAll, bind_of_ok hrun, bind_of_ok hrun₂]; rfl,
          hat₂, hroom₂⟩
      · exact .inr hstuck
    · exact .inr ⟨e₁, hstuck.append _⟩

theorem feed_of_stuck (h : Stuck c p written e) (writes : List Bytes) :
    (feed c e writes).2 = e := by
  induction writes with
  | nil => rfl
  | cons data writes ih =>
    obtain ⟨hrun, -⟩ | ⟨err, hrun⟩ := h.write data
    · rw [feed, hrun]
      exact ih
    · rw [feed, hrun]
      exact ih

/-- Writes in any order of successes and failures: either all succeeded, or the encryptor is
stuck. -/
theorem feed_run (hpos : 0 < p.chunkSize)
    (h : At c p written out e) (hroom : e.buffer.length < p.chunkSize) (writes : List Bytes) :
    (At c p (written ++ writes.flatten) (out ++ (feed c e writes).1) (feed c e writes).2 ∧
      (feed c e writes).2.buffer.length < p.chunkSize) ∨
    Stuck c p (written ++ writes.flatten) (feed c e writes).2 := by
  induction writes generalizing written out e with
  | nil => exact .inl ⟨by simpa [feed] using h, hroom⟩
  | cons data writes ih =>
    rw [flatten_cons, ← append_assoc]
    obtain ⟨chunks, e₁, hrun, hat, hroom₁⟩ | ⟨err, e₁, hrun, hstuck⟩ := write_run hpos h hroom data
    · have := ih hat hroom₁
      rw [append_assoc out] at this
      rw [feed, hrun]
      exact this
    · right
      rw [feed, hrun]
      dsimp only
      rw [feed_of_stuck hstuck]
      exact hstuck.append _

/-! ### The end of a stream -/

/-- If `finish` succeeds, all pieces of what was written have been emitted, and their number is
the number of chunks. -/
theorem At.finish (h : At c p written out e)
    (hp : p.Accepted) (hrun : (StreamingEncryptor.finish c).run e = .ok last e') :
    AreChunks c p (numbered p.chunkSize written p.chunkCount) (out ++ last.toList) ∧
      (p.chunkCount - 1) * p.chunkSize < written.length ∧
        written.length ≤ p.chunkCount * p.chunkSize := by
  obtain ⟨count, hcount⟩ := Nat.exists_eq_add_one.mpr hp.chunkCount_pos
  rw [StreamingEncryptor.finish, get_bind_run] at hrun
  split_ifs at hrun with hempty
  · obtain ⟨hindex, hpure⟩ := require_bind_eq_ok.mp hrun
    cases hpure
    have hlen : written.length = p.chunkCount * p.chunkSize := by
      rw [h.length, hempty, hindex, h.chunkCount, length_nil, Nat.add_zero]
    have hemitted := h.emitted
    rw [hindex, h.chunkCount] at hemitted
    refine ⟨by simpa using hemitted, ?_, hlen.le⟩
    rw [hlen, hcount, Nat.add_sub_cancel]
    exact Nat.mul_lt_mul_of_pos_right (Nat.lt_succ_self count) hp.chunkSize_pos
  · obtain ⟨ch, e₁, hflush, hrest⟩ := bind_eq_ok.mp hrun
    rw [get_bind_run] at hrest
    obtain ⟨hindex, hpure⟩ := require_bind_eq_ok.mp hrest
    cases hpure
    obtain ⟨-, hch, rfl⟩ := flushBuffer_eq_ok.mp hflush
    have hcount' : p.chunkCount = e.currentChunkIndex + 1 := by
      rw [← h.chunkCount]
      exact hindex.symm
    rw [h.params, h.buffer_eq_piece] at hch
    have hbuf : 0 < e.buffer.length := length_pos_iff.mpr hempty
    refine ⟨?_, ?_, ?_⟩
    · rw [hcount', numbered_succ]
      exact h.emitted.snoc hch
    · rw [hcount', Nat.add_sub_cancel, h.length]
      exact Nat.lt_add_of_pos_right hbuf
    · rw [hcount', h.length, Nat.add_mul, Nat.one_mul]
      exact Nat.add_le_add_left h.le _

/-- An encryptor that is stuck cannot be finished. -/
theorem Stuck.finish (h : Stuck c p written e) (hpos : 0 < p.chunkSize) :
    (StreamingEncryptor.finish c).run e ≠ .ok last e' := by
  obtain ⟨taken, out, -, hat, hfull, err, hflush⟩ := h
  have hne : e.buffer ≠ [] := by
    rw [← length_pos_iff, hfull]
    exact hpos
  intro hrun
  rw [StreamingEncryptor.finish, get_bind_run, if_neg hne, bind_of_error hflush] at hrun
  cases hrun

/-- As long as not more is written than the chunks can hold, no write gets stuck. -/
theorem not_stuck (hs : c.Seals) (hp : p.Accepted)
    (hle : written.length ≤ p.chunkCount * p.chunkSize) : ¬ Stuck c p written e := by
  rintro ⟨taken, out, hpre, hat, hfull, err, hflush⟩
  have hne : e.buffer ≠ [] := by
    rw [← length_pos_iff, hfull]
    exact hp.chunkSize_pos
  have hindex : e.currentChunkIndex < p.chunkCount := by
    have hlen := hat.length
    rw [hfull, ← Nat.succ_mul] at hlen
    exact Nat.le_of_mul_le_mul_right (hlen ▸ hpre.length_le.trans hle) hp.chunkSize_pos
  obtain ⟨ch, e'', hok⟩ := exists_flushBuffer_eq_ok (e := e) hs (hat.params.symm ▸ hp)
    (hat.chunkCount.symm ▸ hindex) hne (hat.chunkSize.symm ▸ hat.le)
  rw [hok] at hflush
  cases hflush

/-- Written as many bytes as the manifest relation allows, a stream can be finished. -/
theorem exists_finish_eq_ok (hs : c.Seals) (hp : p.Accepted)
    (h : At c p written out e)
    (hlt : (p.chunkCount - 1) * p.chunkSize < written.length)
    (hle : written.length ≤ p.chunkCount * p.chunkSize) :
    ∃ last e', (finish c).run e = .ok last e' := by
  have hlen := h.length
  by_cases hempty : e.buffer = []
  · have hindex : e.currentChunkIndex = e.chunkCount := by
      rw [hempty, length_nil, Nat.add_zero] at hlen
      rw [hlen] at hlt hle
      have h₁ := Nat.lt_of_mul_lt_mul_right hlt
      have h₂ := Nat.le_of_mul_le_mul_right hle hp.chunkSize_pos
      rw [h.chunkCount]
      omega
    refine ⟨none, e, ?_⟩
    rw [finish, get_bind_run, if_pos hempty]
    exact require_bind_eq_ok.mpr ⟨hindex, rfl⟩
  · have hbuf : 0 < e.buffer.length := length_pos_iff.mpr hempty
    have hindex : e.currentChunkIndex + 1 = p.chunkCount := by
      have h₁ : e.currentChunkIndex < p.chunkCount := by
        refine Nat.lt_of_mul_lt_mul_right (a := p.chunkSize) ?_
        omega
      have h₂ : p.chunkCount - 1 < e.currentChunkIndex + 1 := by
        refine Nat.lt_of_mul_lt_mul_right (a := p.chunkSize) ?_
        have hbound := h.le
        rw [Nat.add_mul, Nat.one_mul]
        omega
      omega
    obtain ⟨ch, e₁, hflush⟩ := exists_flushBuffer_eq_ok (e := e) hs (h.params.symm ▸ hp)
      (by rw [h.chunkCount]; omega) hempty (h.chunkSize.symm ▸ h.le)
    refine ⟨some ch, e₁, ?_⟩
    rw [finish, get_bind_run, if_neg hempty, bind_of_ok hflush, get_bind_run]
    obtain ⟨-, -, rfl⟩ := flushBuffer_eq_ok.mp hflush
    exact require_bind_eq_ok.mpr ⟨hindex.trans h.chunkCount.symm, rfl⟩

/-- A new encryptor has not been given anything. -/
theorem at_new (h : new p = .ok e) : At c p [] [] e := by
  obtain ⟨-, -, rfl⟩ := new_eq_ok h
  exact ⟨rfl, by simp, by simp, Nat.zero_le _, .nil⟩

/-- However the bytes are cut into writes, the chunks are those of their pieces. -/
theorem encryptAll_run (hs : c.Seals) (hnew : new p = .ok e)
    (hlt : (p.chunkCount - 1) * p.chunkSize < writes.flatten.length)
    (hle : writes.flatten.length ≤ p.chunkCount * p.chunkSize) :
    ∃ chunks e', (encryptAll c writes).run e = .ok chunks e' ∧
      AreChunks c p (numbered p.chunkSize writes.flatten p.chunkCount) chunks := by
  have hp := (new_eq_ok hnew).1
  have hroom : e.buffer.length < p.chunkSize := by
    obtain ⟨-, -, rfl⟩ := new_eq_ok hnew
    exact hp.chunkSize_pos
  obtain ⟨chunks, e₁, hrun, hat, -⟩ | ⟨e₁, hstuck⟩ :=
    writeAll_run (c := c) hp.chunkSize_pos (at_new hnew) hroom writes
  · rw [nil_append, nil_append] at hat
    obtain ⟨last, e₂, hfinish⟩ := exists_finish_eq_ok hs hp hat hlt hle
    exact ⟨chunks ++ last.toList, e₂, by rw [encryptAll, bind_of_ok hrun, bind_of_ok hfinish]; rfl,
      (hat.finish hp hfinish).1⟩
  · exact absurd hstuck (not_stuck hs hp hle)

end StreamingEncryptor

/-! ## The decryptor -/

structure StreamingDecryptor extends StreamParams where
  nextExpectedChunk : ℕ
  deriving DecidableEq, Repr

namespace StreamingDecryptor

def new (p : StreamParams) : Except ProtocolError StreamingDecryptor := do
  require (p.fileKey.length = attachmentFileKeyBytes)
    (.invalidInput "Attachment file key must be 32 bytes")
  require (p.attachmentId.length = attachmentIdBytes)
    (.invalidInput "Attachment ID must be 32 bytes")
  require (0 < p.chunkSize ∧ p.chunkSize ≤ maxAttachmentChunkSize)
    (.invalidInput "Attachment chunk_size is out of range")
  require (0 < p.chunkCount) (.invalidInput "Attachment chunk_count must be > 0")
  validateMimeType p.mimeType
  .ok { p with nextExpectedChunk := 0 }

def decryptNext (c : Crypto) (ch : EncryptedChunk) :
    EStateM ProtocolError StreamingDecryptor Bytes := do
  let d ← get
  lift (require (ch.chunkIndex = d.nextExpectedChunk)
    (.invalidInput "StreamingDecryptor: out-of-order chunk"))
  let plaintext ← lift (decryptChunk c d.toStreamParams ch.chunkIndex ch.nonce ch.ciphertext)
  modify fun d => { d with nextExpectedChunk := d.nextExpectedChunk + 1 }
  pure plaintext

def isComplete (d : StreamingDecryptor) : Bool := d.chunkCount ≤ d.nextExpectedChunk

/-- Chunks that all have to be accepted: their plaintexts. -/
def decryptAll (c : Crypto) :
    List EncryptedChunk → EStateM ProtocolError StreamingDecryptor (List Bytes)
  | [] => pure []
  | ch :: chunks => do
    let plaintext ← decryptNext c ch
    let more ← decryptAll c chunks
    pure (plaintext :: more)

/-- A sequence of chunks, whether they are accepted or not: the plaintexts returned and the
decryptor afterwards. -/
def feed (c : Crypto) (d : StreamingDecryptor) :
    List EncryptedChunk → List Bytes × StreamingDecryptor
  | [] => ([], d)
  | ch :: chunks =>
    match (decryptNext c ch).run d with
    | .ok plaintext d' => (feed c d' chunks).map (plaintext :: ·) id
    | .error _ d' => feed c d' chunks

variable {c : Crypto} {p : StreamParams} {d d' : StreamingDecryptor}

theorem new_eq_ok : new p = .ok d ↔ p.Accepted ∧ d = { p with nextExpectedChunk := 0 } := by
  rw [new, except_seq_eq_ok, except_seq_eq_ok, except_seq_eq_ok, except_seq_eq_ok, except_seq_eq_ok,
    require_eq_ok, require_eq_ok, require_eq_ok, require_eq_ok]
  constructor
  · rintro ⟨hkey, hid, ⟨hpos, hle⟩, hcount, hmime, heq⟩
    exact ⟨⟨hkey, hid, hpos, hle, hcount, hmime⟩, (Except.ok.inj heq).symm⟩
  · rintro ⟨⟨hkey, hid, hpos, hle, hcount, hmime⟩, rfl⟩
    exact ⟨hkey, hid, ⟨hpos, hle⟩, hcount, hmime, rfl⟩

theorem decryptNext_eq_ok :
    (decryptNext c ch).run d = .ok m d' ↔
      ch.chunkIndex = d.nextExpectedChunk ∧
        decryptChunk c d.toStreamParams ch.chunkIndex ch.nonce ch.ciphertext = .ok m ∧
          d' = { d with nextExpectedChunk := d.nextExpectedChunk + 1 } := by
  rw [decryptNext, get_bind_run, require_bind_eq_ok, lift_bind_eq_ok]
  simp only [modify_bind_run, pure_run, EStateM.Result.ok.injEq]
  constructor
  · rintro ⟨hindex, m', hdec, rfl, rfl⟩
    exact ⟨hindex, hdec, rfl⟩
  · rintro ⟨hindex, hdec, rfl⟩
    exact ⟨hindex, m, hdec, rfl, rfl⟩

theorem decryptNext_eq_error (h : (decryptNext c ch).run d = .error err d') : d' = d := by
  rw [decryptNext, get_bind_run, lift_bind_eq_error] at h
  obtain ⟨-, rfl⟩ | ⟨_, -, h⟩ := h
  · rfl
  · obtain ⟨-, rfl⟩ | ⟨_, -, h⟩ := lift_bind_eq_error.mp h
    · rfl
    · cases h

/-- The chunks of consecutive pieces are accepted one after the other. -/
theorem decryptAll_run (hc : c.Correct) {pieces : List Bytes} (hd : d.toStreamParams = p)
    (h : StreamingEncryptor.AreChunks c p
      (pieces.zipIdx d.nextExpectedChunk |>.map Prod.swap) chunks) :
    (decryptAll c chunks).run d =
      .ok pieces { d with nextExpectedChunk := d.nextExpectedChunk + pieces.length } := by
  induction pieces generalizing chunks d with
  | nil =>
    cases h
    rfl
  | cons m pieces ih =>
    rw [zipIdx_cons, map_cons] at h
    cases h with
    | @cons _ ch _ chunks hch hrest =>
      have hnext : (decryptNext c ch).run d =
          .ok m { d with nextExpectedChunk := d.nextExpectedChunk + 1 } := by
        refine decryptNext_eq_ok.mpr ⟨hch.1, ?_, rfl⟩
        rw [hch.1, hd]
        exact decryptChunk_of_isChunk hc hch
      have hmore := ih (d := { d with nextExpectedChunk := d.nextExpectedChunk + 1 }) hd hrest
      have hcount : d.nextExpectedChunk + 1 + pieces.length =
          d.nextExpectedChunk + (m :: pieces).length := by
        rw [length_cons]
        omega
      rw [decryptAll, bind_of_ok hnext, bind_of_ok hmore, ← hcount]
      rfl

/-- What the decryptor has returned after any sequence of chunks: one plaintext for each chunk
it counts, and never more than there are chunks. -/
theorem feed_run (hd : d.nextExpectedChunk ≤ d.chunkCount) (chunks : List EncryptedChunk) :
    (feed c d chunks).2.toStreamParams = d.toStreamParams ∧
      (feed c d chunks).2.nextExpectedChunk = d.nextExpectedChunk + (feed c d chunks).1.length ∧
        (feed c d chunks).2.nextExpectedChunk ≤ d.chunkCount := by
  induction chunks generalizing d with
  | nil => exact ⟨rfl, rfl, hd⟩
  | cons ch chunks ih =>
    cases hrun : (decryptNext c ch).run d with
    | ok m d' =>
      obtain ⟨hindex, hdec, rfl⟩ := decryptNext_eq_ok.mp hrun
      have hlt := (decryptChunk_eq_ok.mp hdec).1
      rw [hindex] at hlt
      obtain ⟨hparams, hnext, hle⟩ :=
        ih (d := { d with nextExpectedChunk := d.nextExpectedChunk + 1 }) hlt
      rw [feed, hrun]
      refine ⟨hparams, hnext.trans ?_, hle⟩
      change _ = d.nextExpectedChunk + (_ + 1)
      rw [Nat.add_assoc, Nat.add_comm 1]
    | error err d' =>
      obtain rfl := decryptNext_eq_error hrun
      rw [feed, hrun]
      exact ih hd

end StreamingDecryptor

/-! ## Streams from end to end -/

/-- A file of the declared size is encrypted to the same chunks however it is cut into writes,
and these decrypt to the file. -/
theorem stream_roundtrip {c : Crypto} (hc : c.Correct) (hs : c.Seals) {p : StreamParams}
    {e : StreamingEncryptor} (he : StreamingEncryptor.new p = .ok e) (hsizes : p.SizesMatch)
    {file : Bytes} (hfile : file.length = p.totalSize) :
    ∃ chunks : List EncryptedChunk,
      chunks.map EncryptedChunk.chunkIndex = List.range p.chunkCount ∧
      (∀ writes : List Bytes, writes.flatten = file →
        ∃ e', (StreamingEncryptor.encryptAll c writes).run e = .ok chunks e') ∧
      ∃ d, StreamingDecryptor.new p = .ok d ∧
        ∃ parts d', (StreamingDecryptor.decryptAll c chunks).run d = .ok parts d' ∧
          d'.isComplete = true ∧ parts.flatten = file := by
  have hlt : (p.chunkCount - 1) * p.chunkSize < file.length := hfile.symm ▸ hsizes.1
  have hle : file.length ≤ p.chunkCount * p.chunkSize := hfile.symm ▸ hsizes.2
  have hrun : ∀ writes : List Bytes, writes.flatten = file →
      ∃ chunks e', (StreamingEncryptor.encryptAll c writes).run e = .ok chunks e' ∧
        StreamingEncryptor.AreChunks c p
          (StreamingEncryptor.numbered p.chunkSize file p.chunkCount) chunks := by
    rintro writes rfl
    exact StreamingEncryptor.encryptAll_run hs he hlt hle
  obtain ⟨chunks, -, -, hchunks⟩ := hrun [file] (by simp)
  refine ⟨chunks, ?_, ?_, _, StreamingDecryptor.new_eq_ok.mpr
    ⟨(StreamingEncryptor.new_eq_ok he).1, rfl⟩, ?_⟩
  · have hindices : ∀ {plains : List (ℕ × Bytes)} {out : List EncryptedChunk},
        StreamingEncryptor.AreChunks c p plains out →
          out.map EncryptedChunk.chunkIndex = plains.map Prod.fst := by
      intro plains out h
      induction h with
      | nil => rfl
      | cons hch _ ih => rw [map_cons, map_cons, ih, hch.1]
    rw [hindices hchunks, StreamingEncryptor.numbered, map_map]
    exact map_id _
  · intro writes hwrites
    obtain ⟨chunks', e', hrun', hchunks'⟩ := hrun writes hwrites
    exact ⟨e', hchunks'.unique hchunks ▸ hrun'⟩
  · rw [StreamingEncryptor.numbered_eq_zipIdx] at hchunks
    refine ⟨_, _, StreamingDecryptor.decryptAll_run hc rfl hchunks, ?_, flatten_map_piece_of_le hle⟩
    simp [StreamingDecryptor.isComplete]

/-- Parameters of a stream of 25 bytes in chunks of ten. -/
def sampleParams : StreamParams where
  fileKey := List.replicate 32 7
  attachmentId := List.replicate 32 9
  mimeType := "text/plain".toList
  totalSize := 25
  chunkSize := 10
  chunkCount := 3

def StreamParams.encryptor (p : StreamParams) : StreamingEncryptor :=
  { p with currentChunkIndex := 0, buffer := [] }

def StreamParams.decryptor (p : StreamParams) : StreamingDecryptor :=
  { p with nextExpectedChunk := 0 }

/-- The file of 25 bytes comes back, and two ways of cutting it give the same chunks. -/
theorem stream_roundtrip_sample :
    let file : Bytes := List.replicate 20 1 ++ [2, 3, 4, 5, 6]
    ∃ chunks : List EncryptedChunk,
      chunks.map EncryptedChunk.chunkIndex = List.range 3 ∧
      (∀ writes : List Bytes, writes.flatten = file →
        ∃ e', (StreamingEncryptor.encryptAll Crypto.transparent writes).run sampleParams.encryptor =
          .ok chunks e') ∧
      ∃ d, StreamingDecryptor.new sampleParams = .ok d ∧
        ∃ parts d', (StreamingDecryptor.decryptAll Crypto.transparent chunks).run d =
          .ok parts d' ∧ d'.isComplete = true ∧ parts.flatten = file :=
  stream_roundtrip Crypto.transparent_correct Crypto.transparent_seals
    (p := sampleParams) (e := sampleParams.encryptor) (by decide +kernel)
    ⟨by decide, by decide⟩ (by decide)

/-! ## The declared size

Neither object compares what it was given with `total_size`: the encryptor only counts chunks,
and the decryptor does not look at the size of a plaintext. -/

/-- If `finish` succeeds, what was written is all chunks but one, and the contents of the last. -/
theorem StreamingEncryptor.length_written {c : Crypto} (hc : c.Correct)
    {e e' : StreamingEncryptor} (he : new p = .ok e)
    (hfinish : (finish c).run (feed c e writes).2 = .ok last e') :
    ∃ ch, ((feed c e writes).1 ++ last.toList).getLast? = some ch ∧
      writes.flatten.length =
        (p.chunkCount - 1) * p.chunkSize + (ch.ciphertext.length - aesGcmTagBytes) := by
  have hp := (new_eq_ok he).1
  have hroom : e.buffer.length < p.chunkSize := by
    obtain ⟨-, -, rfl⟩ := new_eq_ok he
    exact hp.chunkSize_pos
  obtain ⟨hat, -⟩ | hstuck := feed_run (c := c) hp.chunkSize_pos (at_new he) hroom writes
  · rw [nil_append, nil_append] at hat
    obtain ⟨hchunks, hlt, hle⟩ := hat.finish hp hfinish
    obtain ⟨k, hk⟩ := Nat.exists_eq_add_one.mpr hp.chunkCount_pos
    rw [hk, Nat.add_sub_cancel] at hlt ⊢
    rw [hk, numbered_succ] at hchunks
    rw [hk] at hle
    obtain ⟨ch, hlast, hch⟩ := hchunks.getLast
    refine ⟨ch, hlast, ?_⟩
    rw [hch.length_ciphertext hc, Nat.add_sub_cancel, piece_eq_drop hle, length_drop]
    omega
  · exact absurd hfinish (hstuck.finish hp.chunkSize_pos)

/-- A complete decryptor has returned as many plaintexts as there are chunks. -/
theorem StreamingDecryptor.length_returned {c : Crypto} {d : StreamingDecryptor}
    (hd : new p = .ok d) (hcomplete : (feed c d chunks).2.isComplete = true) :
    (feed c d chunks).1.length = p.chunkCount := by
  obtain ⟨-, rfl⟩ := new_eq_ok.mp hd
  obtain ⟨hparams, hnext, hle⟩ :=
    feed_run (c := c) (d := { p with nextExpectedChunk := 0 }) (Nat.zero_le _) chunks
  have hge := of_decide_eq_true hcomplete
  rw [show (feed c _ chunks).2.chunkCount = p.chunkCount from
    congrArg StreamParams.chunkCount hparams] at hge
  rw [Nat.zero_add] at hnext
  rw [← hnext]
  exact le_antisymm hle hge

/-- Parts of a fixed size and one more. -/
theorem length_flatten_of_dropLast {n : ℕ} {parts : List Bytes} (hlast : parts.getLast? = some m)
    (hfull : ∀ part ∈ parts.dropLast, part.length = n) :
    parts.flatten.length = (parts.length - 1) * n + m.length := by
  obtain ⟨init, rfl⟩ := List.getLast?_eq_some_iff.mp hlast
  rw [dropLast_concat] at hfull
  have hsum : init.flatten.length = init.length * n := by
    rw [length_flatten, map_congr_left hfull, map_const', sum_replicate_nat]
  rw [flatten_append, length_append, hsum, length_append, length_singleton,
    Nat.add_sub_cancel, flatten_singleton]

/-- A stream declared as a hundred bytes, in one chunk of ten. -/
def shortParams : StreamParams := { sampleParams with totalSize := 100, chunkCount := 1 }

end AuraProtocol.Attachment
