import AuraProtocol.Core
import AuraProtocol.Lib.BitWindow
import AuraProtocol.Lib.OrdMap

/-!
# Replay windows

`SenderReplayWindow` of `protocol/group/mod.rs`: for each sender of an epoch the
highest generation seen and a bitmap of the 1024 generations below it, as sixteen
64-bit words.  A window is initialised exactly when some bit of it is set; the
sealed state relies on this, since it keeps the words and not the flag.
-/

namespace AuraProtocol.Group

def replayWindowWords : ℕ := 16
def replayWindowBits : ℕ := replayWindowWords * 64
def replayWindowEncodedPrefix : Bytes := [0xFF, 82, 87, 1]

/-- The bitmap of a window. -/
abbrev WindowBitmap := Vector (BitVec 64) replayWindowWords

namespace WindowBitmap

/-- The bitmap with no bit set. -/
def zero : WindowBitmap := Vector.replicate replayWindowWords 0

/-- Whether the bit for the generation `idx` below the highest one is set. -/
def test (bitmap : WindowBitmap) (idx : ℕ) : Bool :=
  (bitmap[idx / 64]?.getD 0 &&& ((1 : BitVec 64) <<< (idx % 64))) != 0

/-- Sets the bit for the generation `idx` below the highest one. -/
def mark (bitmap : WindowBitmap) (idx : ℕ) : WindowBitmap :=
  bitmap.setIfInBounds (idx / 64)
    (bitmap[idx / 64]?.getD 0 ||| ((1 : BitVec 64) <<< (idx % 64)))

/-- `shift_window`: whole words first, then the bits that are left. -/
def shiftWindow (bitmap : WindowBitmap) (shift : ℕ) : WindowBitmap :=
  if replayWindowBits ≤ shift then zero
  else
    let wordShift := shift / 64
    let bitShift := shift % 64
    let moved : WindowBitmap := Vector.ofFn fun i =>
      if i.1 < wordShift then 0 else bitmap[i.1 - wordShift]?.getD 0
    if bitShift = 0 then moved
    else Vector.ofFn fun i =>
      if i.1 = 0 then moved[i] <<< bitShift
      else (moved[i] <<< bitShift) ||| (moved[i.1 - 1]?.getD 0 >>> (64 - bitShift))

/-- Whether some bit is set. -/
def anySet (bitmap : WindowBitmap) : Bool := bitmap.toList.any (· != 0)

theorem anySet_mark (bitmap : WindowBitmap) {idx : ℕ} (h : idx < replayWindowBits) :
    (bitmap.mark idx).anySet = true := by
  have hword : idx / 64 < replayWindowWords := by rw [replayWindowBits] at h; omega
  have hget : (bitmap.mark idx)[idx / 64] =
      bitmap[idx / 64]?.getD 0 ||| ((1 : BitVec 64) <<< (idx % 64)) :=
    Vector.getElem_setIfInBounds_self hword
  refine List.any_eq_true.mpr ⟨(bitmap.mark idx)[idx / 64], ?_, ?_⟩
  · exact Vector.mem_toList_iff.mpr (Vector.getElem_mem hword)
  · rw [hget, bne_iff_ne]
    intro hzero
    -- the bit that was set is still there
    have hlt : idx % 64 < 64 := Nat.mod_lt _ (by decide)
    have hbit := congrArg (fun w : BitVec 64 => w.getLsbD (idx % 64)) hzero
    simp [hlt] at hbit

theorem test_eq_bit (bitmap : WindowBitmap) (idx : ℕ) :
    bitmap.test idx = BitWindow.bit bitmap idx := by
  have hand := BitWindow.and_one_shiftLeft_eq_zero (BitWindow.word bitmap (idx / 64))
    (Nat.mod_lt idx (by decide : 0 < 64))
  rw [Bool.eq_iff_iff, test, bne_iff_ne, BitWindow.bit, ← Bool.not_eq_false]
  exact not_congr hand

theorem shiftWindow_eq_shift (bitmap : WindowBitmap) (distance : ℕ) :
    bitmap.shiftWindow distance = BitWindow.shift bitmap distance := by
  have hmoved : BitWindow.shiftWords bitmap (distance / 64) =
      if 0 < distance / 64 then BitWindow.shiftWords bitmap (distance / 64) else bitmap := by
    split_ifs with hword
    · rfl
    · obtain hzero : distance / 64 = 0 := by omega
      ext i hi
      simp [BitWindow.shiftWords, BitWindow.word, hzero]
  rw [shiftWindow, BitWindow.shift, ← hmoved]
  refine ite_congr rfl (fun _ => rfl) fun _ => ?_
  dsimp only
  by_cases hbits : distance % 64 = 0
  · rw [if_pos hbits, if_neg (Nat.not_lt.mpr hbits.le)]
    rfl
  · rw [if_neg hbits, if_pos (Nat.pos_of_ne_zero hbits)]
    ext i hi
    simp [BitWindow.shiftBits, BitWindow.shiftWords, BitWindow.word]

end WindowBitmap

structure SenderReplayWindow where
  highWater : UInt32
  bitmap : WindowBitmap
  initialized : Bool
  initialized_eq : initialized = bitmap.anySet

namespace SenderReplayWindow

def default : SenderReplayWindow := ⟨0, WindowBitmap.zero, false, by decide⟩

def isDuplicateOrTooOld (w : SenderReplayWindow) (generation : UInt32) : Bool :=
  if w.initialized = false then false
  else if w.highWater < generation then false
  else
    let delta := w.highWater.toNat - generation.toNat
    if replayWindowBits ≤ delta then true else w.bitmap.test delta

def markSeen (w : SenderReplayWindow) (generation : UInt32) : SenderReplayWindow :=
  if w.initialized = false then
    ⟨generation, WindowBitmap.zero.mark 0, true, (WindowBitmap.anySet_mark _ (by decide)).symm⟩
  else if w.highWater < generation then
    let shift := generation.toNat - w.highWater.toNat
    ⟨generation, (w.bitmap.shiftWindow shift).mark 0, true,
      (WindowBitmap.anySet_mark _ (by decide)).symm⟩
  else
    let delta := w.highWater.toNat - generation.toNat
    if h : replayWindowBits ≤ delta then w
    else ⟨w.highWater, w.bitmap.mark delta, true,
      (WindowBitmap.anySet_mark _ (not_le.mp h)).symm⟩

theorem ext_of_eq {w w' : SenderReplayWindow} (hhigh : w.highWater = w'.highWater)
    (hbitmap : w.bitmap = w'.bitmap) : w = w' := by
  obtain ⟨high, bitmap, init, hinit⟩ := w
  obtain ⟨high', bitmap', init', hinit'⟩ := w'
  obtain rfl : high = high' := hhigh
  obtain rfl : bitmap = bitmap' := hbitmap
  obtain rfl : init = init' := hinit.trans hinit'.symm
  rfl

/-- The window stands for the generations `seen`, and is initialised once there are some. -/
structure Tracks (w : SenderReplayWindow) (seen : Finset ℕ) : Prop where
  records : BitWindow.Records w.highWater.toNat w.bitmap seen
  initialized_iff : w.initialized = true ↔ seen.Nonempty

variable {w : SenderReplayWindow} {seen : Finset ℕ} {generation : UInt32}

theorem Tracks.markSeen (h : Tracks w seen) (generation : UInt32) :
    Tracks (w.markSeen generation) (insert generation.toNat seen) := by
  rw [SenderReplayWindow.markSeen]
  dsimp only
  split_ifs with hinit hnew hold
  · have hseen : seen = ∅ := by
      rw [← Finset.not_nonempty_iff_eq_empty, ← h.initialized_iff, hinit]
      exact Bool.false_ne_true
    rw [hseen]
    exact ⟨.single (by decide) _, by simp⟩
  · refine ⟨?_, by simp⟩
    have hadvance := h.records.advance (UInt32.lt_iff_toNat_lt.mp hnew) (by decide)
    rwa [← WindowBitmap.shiftWindow_eq_shift] at hadvance
  · exact ⟨h.records.pass hold (UInt32.not_lt.mp hnew), by simpa using hinit⟩
  · exact ⟨h.records.fill (UInt32.not_lt.mp hnew) (not_le.mp hold), by simp⟩

theorem tracks_foldl_markSeen (generations : List UInt32) :
    Tracks (generations.foldl SenderReplayWindow.markSeen default)
      (generations.map UInt32.toNat).toFinset := by
  induction generations using List.reverseRecOn with
  | nil => exact ⟨.empty, by decide⟩
  | append_singleton generations generation ih =>
    rw [List.foldl_append, List.map_append, List.toFinset_append, Finset.union_comm]
    exact ih.markSeen generation

/-- A generation is turned away if it was marked, or if the largest marked one is out of reach. -/
theorem Tracks.isDuplicateOrTooOld_iff (h : Tracks w seen) :
    w.isDuplicateOrTooOld generation = true ↔ seen.Nonempty ∧ generation ≤ w.highWater ∧
      (generation.toNat ∈ seen ∨ replayWindowBits ≤ w.highWater.toNat - generation.toNat) := by
  rw [isDuplicateOrTooOld, ← h.initialized_iff]
  dsimp only
  split_ifs with hinit hnew hold
  · simp [hinit]
  · simp [UInt32.not_le.mpr hnew]
  · simp [hinit, hold, UInt32.not_lt.mp hnew]
  · have hle : generation.toNat ≤ w.highWater.toNat := UInt32.not_lt.mp hnew
    have hbit := h.records.bit_iff _ (not_le.mp hold)
    rw [Nat.sub_sub_self hle] at hbit
    simp [WindowBitmap.test_eq_bit, hbit, hinit, hold, UInt32.not_lt.mp hnew]

end SenderReplayWindow

/-! ## In the sealed state -/

/-- One entry of `encode_replay_windows_for_state`. -/
def encodeReplayWindow (leafIndex : ℕ) (window : SenderReplayWindow) : Bytes :=
  replayWindowEncodedPrefix ++ (leBytes 4 leafIndex ++ (leBytes 4 window.highWater.toNat ++
    window.bitmap.toList.flatMap fun word => leBytes 8 word.toNat))

def encodeReplayWindowsForState (replayWindows : OrdMap ℕ SenderReplayWindow) : List Bytes :=
  (replayWindows.toList.filter (·.2.initialized)).map fun (leafIndex, window) =>
    encodeReplayWindow leafIndex window

/-- The words of an encoded bitmap. -/
def decodeWords : ℕ → Bytes → List (BitVec 64)
  | 0, _ => []
  | n + 1, bytes => BitVec.ofNat 64 (leNat (bytes.take 8)) :: decodeWords n (bytes.drop 8)

theorem length_decodeWords (n : ℕ) (bytes : Bytes) : (decodeWords n bytes).length = n := by
  induction n generalizing bytes with
  | zero => rfl
  | succ n ih => exact congrArg (· + 1) (ih _)

/-- One entry of `decode_replay_windows_from_state`; entries of another form are passed over. -/
def decodeReplayWindow (entry : Bytes) : Option (ℕ × SenderReplayWindow) :=
  if entry.length = replayWindowEncodedPrefix.length + 8 + replayWindowWords * 8 ∧
      entry.take replayWindowEncodedPrefix.length = replayWindowEncodedPrefix then
    let body := entry.drop replayWindowEncodedPrefix.length
    let afterLeaf := body.drop 4
    let bitmap : WindowBitmap := ⟨(decodeWords replayWindowWords (afterLeaf.drop 4)).toArray,
      length_decodeWords _ _⟩
    some (leNat (body.take 4),
      ⟨UInt32.ofNat (leNat (afterLeaf.take 4)), bitmap, bitmap.anySet, rfl⟩)
  else none

def decodeReplayWindowsFromState (entries : List Bytes) : OrdMap ℕ SenderReplayWindow :=
  (∅ : OrdMap ℕ SenderReplayWindow).insertAll (entries.filterMap decodeReplayWindow)

theorem decodeWords_flatMap (words : List (BitVec 64)) :
    decodeWords words.length (words.flatMap fun word => leBytes 8 word.toNat) = words := by
  induction words with
  | nil => rfl
  | cons word words ih =>
    have hword : leNat (leBytes 8 word.toNat) = word.toNat := leNat_leBytes 8 _ word.isLt
    rw [List.flatMap_cons, List.length_cons, decodeWords]
    simp only [List.take_append_of_le_length (length_leBytes 8 word.toNat).ge,
      List.drop_append_of_le_length (length_leBytes 8 word.toNat).ge, List.take_of_length_le,
      List.drop_eq_nil_of_le, length_leBytes, le_refl, List.nil_append, hword, ih,
      BitVec.ofNat_toNat, BitVec.setWidth_eq]

/-- An encoded window is decoded to itself. -/
theorem decodeReplayWindow_encodeReplayWindow {leafIndex : ℕ} (h : leafIndex < 2 ^ 32)
    (window : SenderReplayWindow) :
    decodeReplayWindow (encodeReplayWindow leafIndex window) = some (leafIndex, window) := by
  have hleaf : leNat (leBytes 4 leafIndex) = leafIndex := leNat_leBytes 4 _ h
  have hhigh : leNat (leBytes 4 window.highWater.toNat) = window.highWater.toNat :=
    leNat_leBytes 4 _ window.highWater.toNat_lt
  have hbytes : (window.bitmap.toList.flatMap fun word => leBytes 8 word.toNat).length =
      replayWindowWords * 8 := by
    simp only [List.length_flatMap, length_leBytes, List.map_const', Vector.length_toList]
    rfl
  have hwords : decodeWords replayWindowWords
      (window.bitmap.toList.flatMap fun word => leBytes 8 word.toNat) = window.bitmap.toList := by
    have h := decodeWords_flatMap window.bitmap.toList
    rwa [Vector.length_toList] at h
  rw [decodeReplayWindow, encodeReplayWindow, if_pos]
  · simp only [List.drop_left, List.take_left' (length_leBytes 4 _),
      List.drop_left' (length_leBytes 4 _), hleaf, hhigh, hwords, UInt32.ofNat_toNat]
    refine congrArg some (Prod.ext rfl (SenderReplayWindow.ext_of_eq rfl ?_))
    exact Vector.toList_inj.mp rfl
  · refine ⟨?_, List.take_left⟩
    simp only [List.length_append, length_leBytes, hbytes]
    rfl

/-- The sealed state keeps the windows that are initialised, with their flag read off the bits. -/
theorem decodeReplayWindows_encodeReplayWindows {replayWindows : OrdMap ℕ SenderReplayWindow}
    (hleaf : ∀ i ∈ replayWindows.keys, i < 2 ^ 32)
    (hinit : ∀ i w, replayWindows.get? i = some w → w.initialized = true) :
    decodeReplayWindowsFromState (encodeReplayWindowsForState replayWindows) = replayWindows := by
  have hkept : replayWindows.toList.filter (·.2.initialized) = replayWindows.toList :=
    List.filter_eq_self.mpr fun entry hentry => hinit _ _ (OrdMap.mem_toList.mp hentry)
  have hentries : (encodeReplayWindowsForState replayWindows).filterMap decodeReplayWindow =
      replayWindows.toList := by
    rw [encodeReplayWindowsForState, hkept, List.filterMap_map]
    refine (List.filterMap_congr fun entry hentry => ?_).trans List.filterMap_some
    have hk := OrdMap.mem_keys_of_get? (OrdMap.mem_toList.mp hentry)
    exact decodeReplayWindow_encodeReplayWindow (hleaf _ hk) entry.2
  rw [decodeReplayWindowsFromState, hentries, OrdMap.insertAll_toList]

/-- A window refines the set of the generations marked in it, for any calls of `mark_seen`, and
the windows of a sealed state are those that were sealed. -/
theorem replayWindow_refines_marked :
    (∀ (generations : List UInt32) (g : UInt32),
      (generations.foldl SenderReplayWindow.markSeen
        SenderReplayWindow.default).isDuplicateOrTooOld g = true ↔
          ∃ m ∈ generations, (∀ x ∈ generations, x ≤ m) ∧
            (g ∈ generations ∧ m.toNat - g.toNat < 1024 ∨ g < m ∧ 1024 ≤ m.toNat - g.toNat)) ∧
    ∀ replayWindows : OrdMap ℕ SenderReplayWindow, (∀ i ∈ replayWindows.keys, i < 2 ^ 32) →
      (∀ i w, replayWindows.get? i = some w → w.initialized = true) →
      decodeReplayWindowsFromState (encodeReplayWindowsForState replayWindows) = replayWindows := by
  refine ⟨fun generations g ↦ ?_, fun _ ↦ decodeReplayWindows_encodeReplayWindows⟩
  have htracks := SenderReplayWindow.tracks_foldl_markSeen generations
  generalize generations.foldl SenderReplayWindow.markSeen SenderReplayWindow.default = w
    at htracks ⊢
  have hmem (x : UInt32) : x.toNat ∈ (generations.map UInt32.toNat).toFinset ↔ x ∈ generations := by
    rw [List.mem_toFinset, List.mem_map_of_injective fun _ _ ↦ UInt32.toNat_inj.mp]
  have hmax (x : UInt32) (hx : x ∈ generations) := htracks.records.le_high ((hmem x).mpr hx)
  rw [htracks.isDuplicateOrTooOld_iff, hmem, UInt32.le_iff_toNat_le, replayWindowBits,
    replayWindowWords]
  constructor
  · rintro ⟨hne, hle, hfound⟩
    refine ⟨_, (hmem _).mp (htracks.records.high_mem hne), hmax, ?_⟩
    rw [UInt32.lt_iff_toNat_lt]
    by_cases hreach : 1024 ≤ w.highWater.toNat - g.toNat
    · exact .inr ⟨by omega, hreach⟩
    · exact .inl ⟨hfound.resolve_right hreach, not_le.mp hreach⟩
  · rintro ⟨m, hm, hgreatest, hfound⟩
    have hne : (generations.map UInt32.toNat).toFinset.Nonempty := ⟨_, (hmem m).mpr hm⟩
    -- the largest marked generation is the high-water mark
    have hhigh := hgreatest _ ((hmem _).mp (htracks.records.high_mem hne))
    obtain rfl := UInt32.le_antisymm hhigh (hmax m hm)
    rw [UInt32.lt_iff_toNat_lt] at hfound
    refine ⟨hne, ?_, ?_⟩
    · rcases hfound with ⟨hg, -⟩ | ⟨hlt, -⟩
      · exact hmax g hg
      · exact hlt.le
    · exact hfound.imp And.left And.right

end AuraProtocol.Group
