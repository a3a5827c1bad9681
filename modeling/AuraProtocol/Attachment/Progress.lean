import AuraProtocol.Attachment.Streaming
import AuraProtocol.Lib.BitWindow
import Mathlib.Algebra.BigOperators.Group.Finset.Piecewise
import Mathlib.Algebra.Order.BigOperators.Group.List
import Mathlib.Data.List.GetD

/-!
# Progress of a chunked transfer

`ChunkProgress` and the functions of `protocol/attachment.rs` that keep it.  The chunks
received are the bits of a bitmap, and a transfer is complete when its population count
reaches the number of chunks.  Both are read through `isChunkCompleted`: validation
admits a bitmap when no bit past the last chunk is set, so the population count is the
number of completed chunks and nothing else.

`Records` ties the record to the calls made on it.  The bitmap remembers each chunk once,
but the byte count grows with every call (`totalBytes_eq_firstMarks_iff`).
-/

namespace AuraProtocol.Attachment

open Fallible BitWindow Finset

def maxAttachmentChunkCount : ℕ := maxBufferSize / 4

structure ChunkProgress where
  attachmentId : Bytes
  chunkCount : ℕ
  completedBitmap : Bytes
  totalBytesTransferred : ℕ
  lastUpdatedUnix : ℕ
  deriving DecidableEq

/-- The number of bytes that cover `chunkCount` bits. -/
def bitmapLen (chunkCount : ℕ) : ℕ := (chunkCount + 7) / 8

/-- `1u8 << (chunk_index % 8)`. -/
def chunkBit (chunkIndex : ℕ) : UInt8 := 1 <<< UInt8.ofNat (chunkIndex % 8)

def bitmapBit (bitmap : Bytes) (i : ℕ) : Bool :=
  (bitmap[i / 8]?).any fun b => b &&& chunkBit i ≠ 0

def isChunkCompleted (progress : ChunkProgress) (chunkIndex : ℕ) : Bool :=
  bitmapBit progress.completedBitmap chunkIndex

/-- `u8::count_ones`. -/
def countOnes (b : UInt8) : ℕ := (List.range 8).countP b.toBitVec.getLsbD

def completedChunkCount (progress : ChunkProgress) : ℕ :=
  (progress.completedBitmap.map countOnes).sum

def validateProgressChunkCount (chunkCount : ℕ) : Except ProtocolError Unit := do
  require (chunkCount ≠ 0) (.invalidInput "chunk_count must be > 0")
  require (chunkCount ≤ maxAttachmentChunkCount)
    (.invalidInput s!"chunk_count exceeds maximum {maxAttachmentChunkCount}")

def validateChunkProgress (progress : ChunkProgress) : Except ProtocolError Unit := do
  require (progress.attachmentId.length = attachmentIdBytes)
    (.invalidInput "Attachment ID must be 32 bytes")
  validateProgressChunkCount progress.chunkCount
  let expected := bitmapLen progress.chunkCount
  let got := progress.completedBitmap.length
  require (got = expected) (.invalidInput
    s!"completed_bitmap must be {expected} bytes for {progress.chunkCount} chunks, got {got}")
  -- Bits past the last chunk would inflate the population count.
  require (progress.chunkCount % 8 ≠ 0 →
      progress.completedBitmap.getD (expected - 1) 0 &&& ~~~(chunkBit progress.chunkCount - 1) = 0)
    (.invalidInput "completed_bitmap has bits set past chunk_count")

def createChunkProgress (attachmentId : Bytes) (chunkCount : ℕ) :
    Except ProtocolError ChunkProgress := do
  require (attachmentId.length = attachmentIdBytes)
    (.invalidInput "Attachment ID must be 32 bytes")
  validateProgressChunkCount chunkCount
  return ⟨attachmentId, chunkCount, List.replicate (bitmapLen chunkCount) 0, 0, 0⟩

/-- The record after a mark that was accepted. -/
def ChunkProgress.marked (progress : ChunkProgress) (chunkIndex bytes now : ℕ) : ChunkProgress :=
  { progress with
    completedBitmap :=
      if isChunkCompleted progress chunkIndex then progress.completedBitmap
      else progress.completedBitmap.modify (chunkIndex / 8) (· ||| chunkBit chunkIndex)
    totalBytesTransferred := min (progress.totalBytesTransferred + bytes) u64Max
    lastUpdatedUnix := now }

def markChunkCompleted (chunkIndex bytesTransferred nowUnix : ℕ) :
    EStateM ProtocolError ChunkProgress Unit := do
  reads validateChunkProgress
  reads fun progress => require (chunkIndex < progress.chunkCount)
    (.invalidInput "chunk_index must be < chunk_count")
  modify (·.marked chunkIndex bytesTransferred nowUnix)

def getRemainingChunks (progress : ChunkProgress) : Except ProtocolError (List ℕ) := do
  validateChunkProgress progress
  return (List.range progress.chunkCount).filter (!isChunkCompleted progress ·)

def isTransferComplete (progress : ChunkProgress) : Bool :=
  match validateChunkProgress progress with
  | .error _ => false
  | .ok _ => progress.chunkCount ≤ completedChunkCount progress

/-! ## Bits -/

theorem chunkBit_toBitVec (i : ℕ) : (chunkBit i).toBitVec = (1 : BitVec 8) <<< (i % 8) :=
  (by decide : ∀ k < 8, (1 <<< UInt8.ofNat k).toBitVec = (1 : BitVec 8) <<< k) _
    (Nat.mod_lt i (by decide))

theorem and_chunkBit (b : UInt8) (i : ℕ) :
    decide (b &&& chunkBit i ≠ 0) = b.toBitVec.getLsbD (i % 8) := by
  have := and_one_shiftLeft_eq_zero b.toBitVec (Nat.mod_lt i (by decide : 8 > 0))
  rw [← chunkBit_toBitVec, ← UInt8.toBitVec_and] at this
  have hzero : b &&& chunkBit i = 0 ↔ b.toBitVec.getLsbD (i % 8) = false :=
    UInt8.toBitVec_inj.symm.trans this
  simp [hzero]

theorem bitmapBit_eq (bitmap : Bytes) (i : ℕ) :
    bitmapBit bitmap i = (bitmap.getD (i / 8) 0).toBitVec.getLsbD (i % 8) := by
  rw [bitmapBit, List.getD_eq_getElem?_getD]
  cases bitmap[i / 8]? with
  | none => simp
  | some b => simp [← and_chunkBit]

/-- What lies past the last bit of the last byte is not set. -/
theorem trailing_clear_iff (b : UInt8) (t : ℕ) :
    b &&& ~~~(chunkBit t - 1) = 0 ↔ ∀ k < 8, t % 8 ≤ k → b.toBitVec.getLsbD k = false := by
  have hmask : ∀ k < 8, (~~~(chunkBit t - 1)).toBitVec.getLsbD k = decide (t % 8 ≤ k) :=
    (by decide : ∀ u < 8, ∀ k < 8,
      (~~~((1 <<< UInt8.ofNat u : UInt8) - 1)).toBitVec.getLsbD k = decide (u ≤ k)) _
      (Nat.mod_lt t (by decide))
  rw [← UInt8.toBitVec_inj, UInt8.toBitVec_and]
  constructor
  · intro h k hk htk
    have := congrArg (BitVec.getLsbD · k) h
    rw [BitVec.getLsbD_and, hmask k hk, decide_eq_true htk, Bool.and_true] at this
    exact this.trans BitVec.getLsbD_zero
  · intro h
    apply BitVec.eq_of_getLsbD_eq
    intro k hk
    rw [BitVec.getLsbD_and, hmask k hk]
    by_cases htk : t % 8 ≤ k
    · simp [h k hk htk]
    · simp [htk]

theorem sum_countOnes (bitmap : Bytes) :
    (bitmap.map countOnes).sum = (List.range (8 * bitmap.length)).countP (bitmapBit bitmap) := by
  induction bitmap with
  | nil => simp
  | cons b bitmap ih =>
    have hhead : (List.range 8).countP (bitmapBit (b :: bitmap)) = countOnes b := by
      apply List.countP_congr
      intro k hk
      have hk := List.mem_range.mp hk
      simp [bitmapBit_eq, Nat.div_eq_of_lt hk, Nat.mod_eq_of_lt hk]
    have htail : bitmapBit (b :: bitmap) ∘ (8 + ·) = bitmapBit bitmap := by
      funext k
      simp [bitmapBit_eq, Nat.add_comm 8]
    rw [List.map_cons, List.sum_cons, ih, List.length_cons, Nat.mul_succ, Nat.add_comm _ 8,
      List.range_add, List.countP_append, hhead, List.countP_map, htail]

/-! ## What validation admits -/

variable {p : ChunkProgress} {id : Bytes} {n i : ℕ}

theorem validateChunkProgress_eq_ok :
    validateChunkProgress p = .ok () ↔
      p.attachmentId.length = attachmentIdBytes ∧ p.chunkCount ≠ 0 ∧
      p.chunkCount ≤ maxAttachmentChunkCount ∧
      p.completedBitmap.length = bitmapLen p.chunkCount ∧
      ∀ i, p.chunkCount ≤ i → isChunkCompleted p i = false := by
  simp only [validateChunkProgress, validateProgressChunkCount, except_seq_eq_ok, require_eq_ok,
    and_assoc, trailing_clear_iff]
  refine and_congr_right fun _ => and_congr_right fun hpos => and_congr_right fun _ =>
    and_congr_right fun hlen => ?_
  simp only [isChunkCompleted, bitmapBit_eq, bitmapLen] at hlen ⊢
  constructor
  · intro h i hi
    by_cases hin : i / 8 < p.completedBitmap.length
    · have hlast : i / 8 = (p.chunkCount + 7) / 8 - 1 := by omega
      rw [hlast]
      exact h (by omega) _ (Nat.mod_lt _ (by decide)) (by omega)
    · rw [List.getD_eq_default _ _ (Nat.le_of_not_lt hin)]
      exact BitVec.getLsbD_zero
  · intro h hmod k hk htk
    have := h (8 * ((p.chunkCount + 7) / 8 - 1) + k) (by omega)
    rwa [show (8 * ((p.chunkCount + 7) / 8 - 1) + k) / 8 = (p.chunkCount + 7) / 8 - 1 by omega,
      show (8 * ((p.chunkCount + 7) / 8 - 1) + k) % 8 = k by omega] at this

section

variable (h : validateChunkProgress p = .ok ())
include h

/-- The population count of a valid record counts its completed chunks. -/
theorem completedChunkCount_eq :
    completedChunkCount p = (List.range p.chunkCount).countP (isChunkCompleted p) := by
  obtain ⟨-, -, -, hlen, hpast⟩ := validateChunkProgress_eq_ok.mp h
  have hcover : 8 * p.completedBitmap.length =
      p.chunkCount + (8 * p.completedBitmap.length - p.chunkCount) := by
    rw [hlen, bitmapLen]
    omega
  have hrest : (List.range (8 * p.completedBitmap.length - p.chunkCount)).countP
      (isChunkCompleted p ∘ (p.chunkCount + ·)) = 0 := by
    rw [List.countP_eq_zero]
    intro k _
    simp [hpast]
  calc completedChunkCount p
      = (List.range (8 * p.completedBitmap.length)).countP (isChunkCompleted p) := sum_countOnes _
    _ = _ := by rw [hcover, List.range_add, List.countP_append, List.countP_map, hrest, Nat.add_zero]

theorem isTransferComplete_iff :
    isTransferComplete p = true ↔ ∀ i < p.chunkCount, isChunkCompleted p i = true := by
  have hle := List.countP_le_length (p := isChunkCompleted p) (l := List.range p.chunkCount)
  rw [List.length_range] at hle
  simp only [isTransferComplete, h, decide_eq_true_eq, completedChunkCount_eq h, ← List.mem_range]
  rw [← List.countP_eq_length, List.length_range]
  omega

theorem getRemainingChunks_eq :
    getRemainingChunks p = .ok ((List.range p.chunkCount).filter (!isChunkCompleted p ·)) := by
  simp only [getRemainingChunks, h]
  rfl

end

/-! ## Marks -/

/-- A call of `mark_chunk_completed`. -/
structure Mark where
  chunkIndex : ℕ
  bytes : ℕ
  now : ℕ

/-- The record after a sequence of calls, of which some may fail. -/
def afterMarks (p : ChunkProgress) (calls : List Mark) : ChunkProgress :=
  calls.foldl (fun p c => endState ((markChunkCompleted c.chunkIndex c.bytes c.now).run p)) p

/-- The bytes given at the marks of one chunk, first mark first. -/
def bytesAt (calls : List Mark) (chunkIndex : ℕ) : List ℕ :=
  (calls.filter (·.chunkIndex = chunkIndex)).map (·.bytes)

/-- What a record started for `n` chunks holds after `calls`. -/
structure Records (n : ℕ) (calls : List Mark) (p : ChunkProgress) : Prop where
  valid : validateChunkProgress p = .ok ()
  count : p.chunkCount = n
  completed : ∀ i < n, isChunkCompleted p i = true ↔ ∃ c ∈ calls, c.chunkIndex = i
  total : p.totalBytesTransferred = min (∑ i ∈ range n, (bytesAt calls i).sum) u64Max

theorem isChunkCompleted_marked {j : ℕ} (i bytes now : ℕ) (hj : j / 8 < p.completedBitmap.length) :
    isChunkCompleted (p.marked j bytes now) i = (decide (i = j) || isChunkCompleted p i) := by
  by_cases hset : isChunkCompleted p j = true
  · have hkept : (p.marked j bytes now).completedBitmap = p.completedBitmap := if_pos hset
    rw [isChunkCompleted, hkept, ← isChunkCompleted]
    by_cases hij : i = j
    · rw [hij, hset, Bool.or_true]
    · rw [decide_eq_false hij, Bool.false_or]
  · have hmodified : (p.marked j bytes now).completedBitmap =
        p.completedBitmap.modify (j / 8) (· ||| chunkBit j) := if_neg hset
    simp only [isChunkCompleted, hmodified, bitmapBit_eq, List.getD_eq_getElem?_getD,
      List.getElem?_modify]
    by_cases hbyte : j / 8 = i / 8
    · have hbit : decide (i % 8 = j % 8) = decide (i = j) :=
        decide_eq_decide.mpr ⟨fun h => by omega, fun h => by rw [h]⟩
      rw [hbyte] at hj
      simp only [hbyte, if_true, List.getElem?_eq_getElem hj, Option.map_eq_map, Option.map_some,
        Option.getD_some, UInt8.toBitVec_or, BitVec.getLsbD_or, chunkBit_toBitVec,
        getLsbD_one_shiftLeft (Nat.mod_lt i (by decide : 8 > 0)), hbit, Bool.or_comm]
    · have hij : i ≠ j := fun h => hbyte (by rw [h])
      simp [hbyte, hij]

theorem createChunkProgress_eq_ok :
    createChunkProgress id n = .ok p ↔ id.length = attachmentIdBytes ∧ n ≠ 0 ∧
      n ≤ maxAttachmentChunkCount ∧ ⟨id, n, List.replicate (bitmapLen n) 0, 0, 0⟩ = p := by
  simp only [createChunkProgress, validateProgressChunkCount, except_seq_eq_ok, require_eq_ok,
    pure, Except.pure, Except.ok.injEq, and_assoc]

theorem Records.create (h : createChunkProgress id n = .ok p) : Records n [] p := by
  obtain ⟨hid, hpos, hmax, rfl⟩ := createChunkProgress_eq_ok.mp h
  have hclear : ∀ i, bitmapBit (List.replicate (bitmapLen n) 0) i = false := by
    intro i
    rw [bitmapBit, List.getElem?_replicate]
    split_ifs <;> simp
  exact
    { valid := validateChunkProgress_eq_ok.mpr
        ⟨hid, hpos, hmax, List.length_replicate, fun i _ => hclear i⟩
      count := rfl
      completed := fun i _ => by simp [isChunkCompleted, hclear]
      total := by simp [bytesAt] }

theorem bytesAt_snoc (calls : List Mark) (c : Mark) :
    (bytesAt (calls ++ [c]) i).sum =
      (bytesAt calls i).sum + if i = c.chunkIndex then c.bytes else 0 := by
  by_cases h : c.chunkIndex = i
  · simp [bytesAt, h]
  · simp [bytesAt, h, Ne.symm h]

theorem Records.mark {calls : List Mark} (h : Records n calls p) (c : Mark) :
    Records n (calls ++ [c]) (endState ((markChunkCompleted c.chunkIndex c.bytes c.now).run p)) := by
  obtain ⟨hvalid, rfl, hcompleted, htotal⟩ := h
  have hsum : ∑ i ∈ range p.chunkCount, (bytesAt (calls ++ [c]) i).sum =
      ∑ i ∈ range p.chunkCount, (bytesAt calls i).sum +
        if c.chunkIndex < p.chunkCount then c.bytes else 0 := by
    simp only [bytesAt_snoc, sum_add_distrib, sum_ite_eq', mem_range]
  by_cases hc : c.chunkIndex < p.chunkCount
  · have hrun : (markChunkCompleted c.chunkIndex c.bytes c.now).run p =
        .ok () (p.marked c.chunkIndex c.bytes c.now) := by
      rw [markChunkCompleted, reads_bind_of_ok hvalid]
      exact reads_bind_of_ok (a := ()) (require_eq_ok.mpr hc)
    obtain ⟨hid, hpos, hmax, hlen, hpast⟩ := validateChunkProgress_eq_ok.mp hvalid
    have hmarked := fun i => isChunkCompleted_marked i c.bytes c.now
      (show c.chunkIndex / 8 < p.completedBitmap.length by rw [hlen, bitmapLen]; omega)
    rw [hrun, endState]
    refine ⟨validateChunkProgress_eq_ok.mpr ⟨hid, hpos, hmax, ?_, fun i hi => ?_⟩, rfl,
      fun i hi => ?_, ?_⟩
    · simp only [ChunkProgress.marked, apply_ite List.length, List.length_modify, ite_self, hlen]
    · rw [hmarked, hpast i hi, Bool.or_false, decide_eq_false]
      exact fun h => Nat.not_le_of_lt hc (h ▸ hi)
    · simp [hmarked, hcompleted i hi, or_and_right, exists_or, @eq_comm _ i, or_comm]
    · simp only [hsum, hc, if_true, ChunkProgress.marked, htotal]
      omega
  · have hrun : (markChunkCompleted c.chunkIndex c.bytes c.now).run p =
        .error (.invalidInput "chunk_index must be < chunk_count") p := by
      rw [markChunkCompleted, reads_bind_of_ok hvalid]
      exact reads_bind_of_error (require_eq_error.mpr ⟨hc, rfl⟩)
    rw [hrun]
    refine ⟨hvalid, rfl, fun i hi => ?_, by simpa [hsum, hc] using htotal⟩
    have hne : c.chunkIndex ≠ i := fun h => hc (h ▸ hi)
    simp [hcompleted i hi, hne]

theorem records_afterMarks (h : createChunkProgress id n = .ok p) (calls : List Mark) :
    Records n calls (afterMarks p calls) := by
  induction calls using List.reverseRecOn with
  | nil => exact .create h
  | append_singleton calls c ih =>
    rw [afterMarks, List.foldl_append]
    exact ih.mark c

/-- The record follows the marks: whatever is marked, in whatever order and how often, it stays
valid, the chunks that remain are those no call named, and the transfer is complete when there are
none.  For any valid record, sent by a peer or not, completion says that nothing remains. -/
theorem transferComplete_iff_marked (hid : id.length = attachmentIdBytes) (hpos : n ≠ 0)
    (hmax : n ≤ maxAttachmentChunkCount) :
    (∃ p, createChunkProgress id n = .ok p ∧ ∀ calls,
      validateChunkProgress (afterMarks p calls) = .ok () ∧
      getRemainingChunks (afterMarks p calls) =
        .ok ((List.range n).filter (· ∉ calls.map (·.chunkIndex))) ∧
      (isTransferComplete (afterMarks p calls) = true ↔ ∀ i < n, i ∈ calls.map (·.chunkIndex))) ∧
    ∀ q, validateChunkProgress q = .ok () →
      (isTransferComplete q = true ↔ getRemainingChunks q = .ok []) := by
  refine ⟨⟨_, createChunkProgress_eq_ok.mpr ⟨hid, hpos, hmax, rfl⟩, fun calls ↦ ?_⟩, fun q hq ↦ ?_⟩
  · obtain ⟨hvalid, hcount, hcompleted, -⟩ :=
      records_afterMarks (createChunkProgress_eq_ok.mpr ⟨hid, hpos, hmax, rfl⟩) calls
    have hmem : ∀ i < n, isChunkCompleted (afterMarks _ calls) i = true ↔
        i ∈ calls.map (·.chunkIndex) := fun i hi ↦ by rw [hcompleted i hi, List.mem_map]
    refine ⟨hvalid, ?_, ?_⟩
    · rw [getRemainingChunks_eq hvalid, hcount]
      refine congrArg _ (List.filter_congr fun i hi ↦ ?_)
      rw [Bool.eq_iff_iff]
      simp [← hmem i (List.mem_range.mp hi)]
    · rw [isTransferComplete_iff hvalid, hcount]
      exact forall₂_congr hmem
  · rw [isTransferComplete_iff hq, getRemainingChunks_eq hq]
    simp [List.filter_eq_nil_iff]

theorem transferComplete_iff_marked_sample :
    ∃ p, createChunkProgress (List.replicate 32 0) 9 = .ok p ∧
      getRemainingChunks (afterMarks p [⟨8, 5, 0⟩, ⟨9, 5, 0⟩, ⟨0, 5, 0⟩]) =
        .ok [1, 2, 3, 4, 5, 6, 7] := by
  have hid : (List.replicate 32 0 : Bytes).length = attachmentIdBytes := rfl
  obtain ⟨⟨p, hp, h⟩, -⟩ := transferComplete_iff_marked hid (by decide : 9 ≠ 0) (by decide)
  exact ⟨p, hp, (h _).2.1⟩

/-- Every call adds its bytes, so the count is that of the first marks exactly when the later marks
bring nothing, or the first ones have filled the counter. -/
theorem totalBytes_eq_firstMarks_iff (h : createChunkProgress id n = .ok p) (calls : List Mark) :
    (afterMarks p calls).totalBytesTransferred =
        min (∑ i ∈ range n, (bytesAt calls i).headD 0) u64Max ↔
      u64Max ≤ ∑ i ∈ range n, (bytesAt calls i).headD 0 ∨
      ∀ i < n, ∀ b ∈ (bytesAt calls i).tail, b = 0 := by
  have hsplit : ∑ i ∈ range n, (bytesAt calls i).sum =
      ∑ i ∈ range n, (bytesAt calls i).headD 0 + ∑ i ∈ range n, (bytesAt calls i).tail.sum := by
    rw [← sum_add_distrib]
    refine sum_congr rfl fun i _ ↦ ?_
    cases bytesAt calls i <;> simp
  have hlater : ∑ i ∈ range n, (bytesAt calls i).tail.sum = 0 ↔
      ∀ i < n, ∀ b ∈ (bytesAt calls i).tail, b = 0 := by
    simp only [sum_eq_zero_iff, mem_range, List.sum_eq_zero_iff]
  rw [(records_afterMarks h calls).total, hsplit, ← hlater]
  omega

theorem totalBytes_eq_firstMarks_iff_sample :
    ∃ p, createChunkProgress (List.replicate 32 0) 2 = .ok p ∧
      (afterMarks p [⟨1, 5, 0⟩, ⟨0, 3, 0⟩, ⟨1, 0, 0⟩]).totalBytesTransferred = 8 := by
  have hp : createChunkProgress (List.replicate 32 0) 2 = .ok _ := rfl
  exact ⟨_, hp, (totalBytes_eq_firstMarks_iff hp
    [⟨1, 5, 0⟩, ⟨0, 3, 0⟩, ⟨1, 0, 0⟩]).mpr (.inr (by decide))⟩

/-- A chunk sent twice is counted twice. -/
theorem retransmission_counted :
    ∃ p, createChunkProgress (List.replicate 32 0) 1 = .ok p ∧
      (afterMarks p [⟨0, 1, 0⟩, ⟨0, 1, 0⟩]).totalBytesTransferred ≠
        min (∑ i ∈ range 1, (bytesAt [⟨0, 1, 0⟩, ⟨0, 1, 0⟩] i).headD 0) u64Max :=
  ⟨_, rfl, by decide⟩

end AuraProtocol.Attachment
