import AuraProtocol.Core
import AuraProtocol.Lib.Fallible

/-!
# MIME types by magic bytes

`detect_mime_from_magic` and `validate_magic_bytes` walk one table of signatures.
Each MIME type has one row there, so a detected row validates
(`validateMagicBytes_of_mem`).  Big-endian TIFF is outside the table: the validator
meets the little-endian row first and never gets to its own big-endian case.
-/

namespace AuraProtocol.Attachment

open Fallible

variable {header : Bytes}

/-- `header[offset..offset + bytes.len()] == *bytes`, for a header of that length. -/
def showsAt (header : Bytes) (offset : ℕ) (bytes : Bytes) : Bool :=
  (header.drop offset).take bytes.length == bytes

structure MagicSignature where
  mime : String
  offset : ℕ
  bytes : Bytes
  extraCheck : Option (Bytes → Bool)

def checkWebp (header : Bytes) : Bool :=
  decide (12 ≤ header.length) && showsAt header 8 (ascii "WEBP")

def checkHeic (header : Bytes) : Bool :=
  decide (12 ≤ header.length) && (showsAt header 8 (ascii "heic") ||
    showsAt header 8 (ascii "heix") || showsAt header 8 (ascii "mif1"))

def checkWave (header : Bytes) : Bool :=
  decide (12 ≤ header.length) && showsAt header 8 (ascii "WAVE")

def magicTable : List MagicSignature :=
  [⟨"image/png", 0, [0x89, 0x50, 0x4E, 0x47, 0x0D, 0x0A, 0x1A, 0x0A], none⟩,
    ⟨"image/webp", 0, ascii "RIFF", some checkWebp⟩,
    ⟨"image/heic", 4, ascii "ftyp", some checkHeic⟩,
    ⟨"image/heif", 4, ascii "ftyp", some checkHeic⟩,
    ⟨"image/jpeg", 0, [0xFF, 0xD8, 0xFF], none⟩,
    ⟨"image/gif", 0, [0x47, 0x49, 0x46, 0x38], none⟩,
    ⟨"image/tiff", 0, [0x49, 0x49, 0x2A, 0x00], none⟩,
    ⟨"image/bmp", 0, [0x42, 0x4D], none⟩,
    ⟨"application/pdf", 0, [0x25, 0x50, 0x44, 0x46], none⟩,
    ⟨"video/mp4", 4, ascii "ftyp", none⟩,
    ⟨"video/quicktime", 4, ascii "ftyp", none⟩,
    ⟨"video/webm", 0, [0x1A, 0x45, 0xDF, 0xA3], none⟩,
    ⟨"audio/ogg", 0, [0x4F, 0x67, 0x67, 0x53], none⟩,
    ⟨"video/ogg", 0, [0x4F, 0x67, 0x67, 0x53], none⟩,
    ⟨"application/zip", 0, [0x50, 0x4B, 0x03, 0x04], none⟩,
    ⟨"audio/flac", 0, [0x66, 0x4C, 0x61, 0x43], none⟩,
    ⟨"audio/wav", 0, ascii "RIFF", some checkWave⟩]

def matchesSignature (header : Bytes) (sig : MagicSignature) : Bool :=
  decide (sig.offset + sig.bytes.length ≤ header.length) && showsAt header sig.offset sig.bytes &&
    sig.extraCheck.all (· header)

def matchMp3 (header : Bytes) : Bool :=
  if header.length < 3 ∧ header.length < 2 then false
  else if 3 ≤ header.length ∧ showsAt header 0 [0x49, 0x44, 0x33] then true
  else match header with
    | b0 :: b1 :: _ => b0 == 0xFF && (b1 == 0xFB || b1 == 0xF3 || b1 == 0xF2)
    | _ => false

def matchAac : Bytes → Bool
  | b0 :: b1 :: _ => b0 == 0xFF && (b1 == 0xF1 || b1 == 0xF9)
  | _ => false

def matchTiffBe (header : Bytes) : Bool :=
  decide (4 ≤ header.length) && showsAt header 0 [0x4D, 0x4D, 0x00, 0x2A]

def validateMagicBytes (header : Bytes) (mimeType : String) : Except ProtocolError Unit :=
  let check (needed : ℕ) (found : Bool) : Except ProtocolError Unit := do
    require (needed ≤ header.length) (.invalidInput "Header too short to validate magic bytes")
    require (found = true) (.invalidInput "Magic bytes do not match declared mime type")
  match magicTable.find? (·.mime = mimeType) with
  | some sig =>
    let needed := sig.offset + sig.bytes.length
    check (if sig.extraCheck.isSome then max needed 12 else needed)
      (showsAt header sig.offset sig.bytes && sig.extraCheck.all (· header))
  | none =>
    if mimeType = "audio/mpeg" ∨ mimeType = "audio/mp3" then check 2 (matchMp3 header)
    else if mimeType = "audio/aac" then check 2 (matchAac header)
    else if mimeType = "image/tiff" ∧ matchTiffBe header then .ok ()
    else .error (.invalidInput "Unsupported mime type for magic byte validation")

/-- The RIFF and the ISO containers, which `detect_mime_from_magic` tells by their brand. -/
def detectContainer (header : Bytes) : Option String :=
  if 12 ≤ header.length ∧ showsAt header 0 (ascii "RIFF") ∧ showsAt header 8 (ascii "WEBP") then
    some "image/webp"
  else if 12 ≤ header.length ∧ showsAt header 0 (ascii "RIFF") ∧
      showsAt header 8 (ascii "WAVE") then some "audio/wav"
  else if 12 ≤ header.length ∧ showsAt header 4 (ascii "ftyp") then
    if showsAt header 8 (ascii "heic") ∨ showsAt header 8 (ascii "heix") ∨
      showsAt header 8 (ascii "mif1") then some "image/heic" else some "video/mp4"
  else none

/-- The loop over the table: the first row that is not passed over and that matches. -/
def detectInTable (header : Bytes) : Option MagicSignature :=
  magicTable.find? fun sig => sig.extraCheck.isNone && sig.mime ≠ "video/mp4" &&
    sig.mime ≠ "video/quicktime" && matchesSignature header sig

/-- The types that have no row, or not only one form. -/
def detectOther (header : Bytes) : Option String :=
  if matchTiffBe header then some "image/tiff"
  else if matchMp3 header then some "audio/mpeg"
  else if matchAac header then some "audio/aac"
  else none

def detectMimeFromMagic (header : Bytes) : Option String :=
  (detectContainer header).or <| ((detectInTable header).map (·.mime)).or <| detectOther header

theorem showsAt_iff {offset : ℕ} {bytes : Bytes} :
    showsAt header offset bytes = true ↔ bytes <+: header.drop offset := by
  rw [showsAt, beq_iff_eq, List.prefix_iff_eq_take, eq_comm]

/-- No MIME type has a second row. -/
theorem find?_mime_of_mem :
    ∀ sig ∈ magicTable, magicTable.find? (·.mime = sig.mime) = some sig := by
  simp [magicTable]

theorem twelve_le_of_extraCheck : ∀ sig ∈ magicTable, sig.extraCheck.isSome = true →
    sig.extraCheck.all (· header) = true → 12 ≤ header.length := by
  simp +contextual [magicTable, checkWebp, checkHeic, checkWave]

theorem validateMagicBytes_of_mem (sig : MagicSignature) (hsig : sig ∈ magicTable)
    (h : matchesSignature header sig = true) : validateMagicBytes header sig.mime = .ok () := by
  simp only [matchesSignature, Bool.and_eq_true, decide_eq_true_eq] at h
  simp only [validateMagicBytes, find?_mime_of_mem sig hsig, except_seq_eq_ok, require_eq_ok, h,
    Bool.and_self, and_true]
  split_ifs with hcheck
  · exact max_le h.1.1 (twelve_le_of_extraCheck sig hsig hcheck h.2)
  · exact h.1.1

theorem validateMagicBytes_of_container {m : String} (h : detectContainer header = some m) :
    validateMagicBytes header m = .ok () := by
  rw [detectContainer] at h
  have hrow (sig : MagicSignature) (hsig : sig ∈ magicTable) (hlen : 12 ≤ header.length)
      (hneeded : sig.offset + sig.bytes.length ≤ 12)
      (hshows : showsAt header sig.offset sig.bytes = true)
      (hextra : sig.extraCheck.all (· header) = true) :
      validateMagicBytes header sig.mime = .ok () := by
    refine validateMagicBytes_of_mem sig hsig ?_
    rw [matchesSignature, hshows, hextra, decide_eq_true (hneeded.trans hlen)]
    rfl
  split_ifs at h with hwebp hwave hftyp hheic
  · cases h
    exact hrow ⟨_, 0, ascii "RIFF", some checkWebp⟩ (by simp [magicTable]) hwebp.1 (by decide)
      hwebp.2.1 (by simp [checkWebp, hwebp])
  · cases h
    exact hrow ⟨_, 0, ascii "RIFF", some checkWave⟩ (by simp [magicTable]) hwave.1 (by decide)
      hwave.2.1 (by simp [checkWave, hwave])
  · cases h
    exact hrow ⟨_, 4, ascii "ftyp", some checkHeic⟩ (by simp [magicTable]) hftyp.1 (by decide)
      hftyp.2 (by simpa [checkHeic, hftyp.1, or_assoc] using hheic)
  · cases h
    exact hrow ⟨_, 4, ascii "ftyp", none⟩ (by simp [magicTable]) hftyp.1 (by decide) hftyp.2 rfl

theorem validateMagicBytes_of_table {sig : MagicSignature} (h : detectInTable header = some sig) :
    validateMagicBytes header sig.mime = .ok () := by
  have hfound := List.find?_some h
  rw [Bool.and_eq_true] at hfound
  exact validateMagicBytes_of_mem sig (List.mem_of_find?_eq_some h) hfound.2

/-- An MP3 or AAC header has the two bytes that the validator asks for. -/
theorem validateMagicBytes_of_other {m : String} (h : detectOther header = some m)
    (htiff : matchTiffBe header = false) : validateMagicBytes header m = .ok () := by
  rw [detectOther, htiff, if_neg Bool.false_ne_true] at h
  split_ifs at h with hmp3 haac
  · cases h
    have hlen : 2 ≤ header.length := by
      by_contra hlt
      unfold matchMp3 at hmp3
      rw [if_pos ⟨by omega, by omega⟩] at hmp3
      cases hmp3
    simp [validateMagicBytes, magicTable, except_seq_eq_ok, require_eq_ok, hlen, hmp3]
  · cases h
    have hlen : 2 ≤ header.length := by
      obtain _ | ⟨_, _ | ⟨_, _⟩⟩ := header
      · cases haac
      · cases haac
      · exact Nat.le_add_left 2 _
    simp [validateMagicBytes, magicTable, except_seq_eq_ok, require_eq_ok, hlen, haac]

/-- A detected type validates, except for a big-endian TIFF header. -/
theorem detected_validates_iff (header : Bytes) :
    (∀ m, detectMimeFromMagic header = some m → validateMagicBytes header m = .ok ()) ↔
      ([0x4D, 0x4D, 0x00, 0x2A] <+: header →
        12 ≤ header.length ∧ ascii "ftyp" <+: header.drop 4) := by
  rw [← showsAt_iff]
  constructor
  · rintro h ⟨rest, rfl⟩
    by_contra hftyp
    have hdetect : detectMimeFromMagic ([0x4D, 0x4D, 0x00, 0x2A] ++ rest) = some "image/tiff" := by
      have hriff : ¬ showsAt ([0x4D, 0x4D, 0x00, 0x2A] ++ rest) 0 (ascii "RIFF") = true := by
        simp [showsAt, ascii]
      rw [detectMimeFromMagic, detectContainer, if_neg (fun h ↦ hriff h.2.1),
        if_neg (fun h ↦ hriff h.2.1), if_neg hftyp]
      simp [detectInTable, detectOther, magicTable, matchesSignature, showsAt, matchTiffBe]
    have hvalid := h _ hdetect
    simp [validateMagicBytes, magicTable, except_seq_eq_ok, require_eq_ok, showsAt] at hvalid
  · intro hcond m hm
    rw [detectMimeFromMagic, Option.or_eq_some_iff, Option.or_eq_some_iff,
      Option.map_eq_some_iff] at hm
    obtain hm | ⟨hcontainer, ⟨sig, hm, rfl⟩ | ⟨-, hm⟩⟩ := hm
    · exact validateMagicBytes_of_container hm
    · exact validateMagicBytes_of_table hm
    refine validateMagicBytes_of_other hm (Bool.eq_false_iff.mpr fun htiff ↦ ?_)
    rw [matchTiffBe, Bool.and_eq_true, showsAt_iff] at htiff
    rw [detectContainer, if_pos (hcond htiff.2)] at hcontainer
    split_ifs at hcontainer

/-- A big-endian TIFF header is detected as a type it does not validate as. -/
theorem tiffBe_detected_not_validated :
    detectMimeFromMagic [0x4D, 0x4D, 0x00, 0x2A] = some "image/tiff" ∧
      validateMagicBytes [0x4D, 0x4D, 0x00, 0x2A] "image/tiff" =
        .error (.invalidInput "Magic bytes do not match declared mime type") := by
  decide +kernel

end AuraProtocol.Attachment
