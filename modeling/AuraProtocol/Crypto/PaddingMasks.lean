import AuraProtocol.Voip.Media
import Mathlib.Data.FinEnum

/-!
# The masks of unpadding

`MessagePadding::unpad` and `unpad_frame` select without branches: a byte is compared with the
sentinel by a 16-bit negation, positions are compared by the sign of a wrapping difference, and
the position found so far is replaced through a mask.  Here the two functions are written with
these masks, on machine words of any width that a slice's length fits into with a sign bit, and
compared with the models that select with `if`.
-/

namespace AuraProtocol.PaddingMasks

open Fallible
open MessagePadding (lastSentinel nonZeroAfterSentinel)

variable {w : ℕ} {padded : Bytes}

/-! ## Masks -/

/-- `ct_gt_mask`: the sign of the wrapping difference, shifted through the whole word. -/
def ctGtMask (a b : BitVec w) : UInt8 := ⟨((b - a).sshiftRight (w - 1)).setWidth 8⟩

/-- `is_nonzero`: bit 7 of a byte or-ed with its negation in 16 bits. -/
def isNonzero (w : ℕ) (diff : UInt8) : BitVec w :=
  ((diff.toUInt16 ||| -diff.toUInt16) >>> 7).toBitVec.setWidth w &&& 1

/-- The mask of a byte: all ones for the sentinel, else zero. -/
def sentinelMask (w : ℕ) (byte : UInt8) : BitVec w := isNonzero w (byte ^^^ 0x01) - 1

/-- One round of the first loop, on `found_pos` and `found`. -/
def findRound (acc : BitVec w × BitVec w) (i : ℕ) (byte : UInt8) : BitVec w × BitVec w :=
  let mask := sentinelMask w byte
  ((acc.1 &&& ~~~mask) ||| (BitVec.ofNat w i &&& mask), acc.2 ||| (mask &&& 1))

/-- The first loop, from position `i` on. -/
def findSentinel : Bytes → ℕ → BitVec w × BitVec w → BitVec w × BitVec w
  | [], _, acc => acc
  | byte :: rest, i, acc => findSentinel rest (i + 1) (findRound acc i byte)

/-- The second loop, from position `i` on. -/
def nonZeroAfter (foundPos : BitVec w) : Bytes → ℕ → UInt8 → UInt8
  | [], _, acc => acc
  | byte :: rest, i, acc =>
    nonZeroAfter foundPos rest (i + 1) (acc ||| (byte &&& ctGtMask (BitVec.ofNat w i) foundPos))

/-- `MessagePadding::unpad`. -/
def unpad (w : ℕ) (padded : Bytes) : Except ProtocolError Bytes := do
  require (padded ≠ []) (.decode "Invalid padding: empty input")
  require (padded.length % messagePaddingBlockSize = 0)
    (.decode "Invalid padding: not block-aligned")
  let (foundPos, found) := findSentinel (w := w) padded 0 (0, 0)
  require (found ≠ 0) (.decode "Invalid padding: no sentinel byte found")
  require (nonZeroAfter foundPos padded 0 0 = 0)
    (.decode "Invalid padding: non-zero bytes after sentinel")
  .ok (padded.take foundPos.toNat)

def unpadFrame (w : ℕ) (padded : Bytes) : Except ProtocolError Bytes := do
  require (padded ≠ []) (.voipMedia "invalid padding: empty")
  require (padded.length % Voip.voipFramePaddingBlock = 0)
    (.voipMedia "invalid padding: not aligned")
  let (foundPos, found) := findSentinel (w := w) padded 0 (0, 0)
  require (found ≠ 0) (.voipMedia "invalid padding: no sentinel found")
  require (foundPos ≠ 0) (.voipMedia "empty decrypted frame payload")
  require (nonZeroAfter foundPos padded 0 0 = 0)
    (.voipMedia "invalid padding: non-zero after sentinel")
  .ok (padded.take foundPos.toNat)

/-! ## What the masks are -/

/-- Shifting the sign through a word fills it with the sign. -/
theorem sshiftRight_sign (x : BitVec w) :
    x.sshiftRight (w - 1) = if x.msb then BitVec.allOnes w else 0 := by
  apply BitVec.eq_of_getLsbD_eq
  intro i hi
  rw [BitVec.getLsbD_sshiftRight]
  by_cases h0 : i = 0
  · subst h0
    rw [Nat.add_zero, if_pos (by omega), ← BitVec.msb_eq_getLsbD_last]
    cases x.msb <;> simp [hi, hi.ne']
  · rw [if_neg (by omega)]
    cases x.msb <;> simp [hi]

/-- A wrapping difference is negative exactly if it wrapped, as long as both numbers leave the
sign bit free. -/
theorem msb_sub {a b : ℕ} (hw : 0 < w) (ha : a < 2 ^ (w - 1)) (hb : b < 2 ^ (w - 1)) :
    (BitVec.ofNat w b - BitVec.ofNat w a).msb = decide (b < a) := by
  obtain ⟨v, rfl⟩ := Nat.exists_eq_succ_of_ne_zero hw.ne'
  rw [Nat.succ_sub_one] at ha hb
  have hpow : 2 ^ (v + 1) = 2 * 2 ^ v := by rw [Nat.pow_succ, Nat.mul_comm]
  rw [BitVec.msb_eq_decide, BitVec.toNat_sub, BitVec.toNat_ofNat, BitVec.toNat_ofNat,
    Nat.succ_eq_add_one, Nat.add_sub_cancel, hpow, Nat.mod_eq_of_lt (by omega : a < 2 * 2 ^ v),
    Nat.mod_eq_of_lt (by omega : b < 2 * 2 ^ v)]
  apply decide_eq_decide.mpr
  by_cases hlt : b < a
  · rw [Nat.mod_eq_of_lt (by omega)]
    omega
  · rw [show 2 * 2 ^ v - a + b = b - a + 2 * 2 ^ v by omega, Nat.add_mod_right,
      Nat.mod_eq_of_lt (by omega)]
    omega

theorem ctGtMask_eq {a b : ℕ} (hw : 8 ≤ w) (ha : a < 2 ^ (w - 1)) (hb : b < 2 ^ (w - 1)) :
    ctGtMask (BitVec.ofNat w a) (BitVec.ofNat w b) = MessagePadding.ctGtMask a b := by
  have hones : (BitVec.allOnes w).setWidth 8 = BitVec.allOnes 8 := by
    apply BitVec.eq_of_getLsbD_eq
    intro i hi
    rw [BitVec.getLsbD_setWidth, BitVec.getLsbD_allOnes, BitVec.getLsbD_allOnes,
      decide_eq_true (hi.trans_le hw), Bool.and_true]
  rw [ctGtMask, sshiftRight_sign, msb_sub (by omega) ha hb, MessagePadding.ctGtMask]
  by_cases hlt : b < a
  · rw [if_pos (decide_eq_true hlt), if_pos hlt, hones]
    rfl
  · rw [if_neg (ne_true_of_eq_false (decide_eq_false hlt)), if_neg hlt]
    exact congrArg UInt8.ofBitVec (BitVec.setWidth_zero 8 w)

/-- Negation in 16 bits sets bit 7 for every byte but zero. -/
theorem isNonzero_eq (w : ℕ) (diff : UInt8) :
    isNonzero w diff = if diff = 0 then 0 else 1 := by
  have hbit : ∀ d : UInt8,
      ((d.toUInt16 ||| -d.toUInt16) >>> 7).toBitVec &&& 1 = if d = 0 then 0 else 1 := by
    decide +kernel
  have hone : (1#16).setWidth w = 1#w := BitVec.eq_of_toNat_eq (by simp)
  change _ &&& 1#w = _
  rw [← hone, ← BitVec.setWidth_and]
  refine (congrArg (BitVec.setWidth w) (hbit diff)).trans ?_
  split_ifs
  · exact BitVec.setWidth_zero w 16
  · exact hone

theorem sentinelMask_eq (w : ℕ) (byte : UInt8) :
    sentinelMask w byte = if byte = 0x01 then BitVec.allOnes w else 0 := by
  have hxor : byte ^^^ 0x01 = 0 ↔ byte = 0x01 := UInt8.xor_eq_zero_iff
  rw [sentinelMask, isNonzero_eq, if_congr hxor rfl rfl]
  split_ifs
  · exact (BitVec.zero_sub 1).trans BitVec.neg_one_eq_allOnes
  · exact BitVec.sub_self 1

/-! ## The loops -/

/-- `found_pos` and `found` for a position found so far. -/
def words (w : ℕ) : Option ℕ → BitVec w × BitVec w
  | none => (0, 0)
  | some pos => (BitVec.ofNat w pos, 1)

theorem findRound_words (w : ℕ) (found : Option ℕ) (i : ℕ) (byte : UInt8) :
    findRound (words w found) i byte = words w (if byte = 0x01 then some i else found) := by
  rw [findRound, sentinelMask_eq]
  split_ifs
  · cases found <;> simp [words]
  · cases found <;> simp [words]

theorem findSentinel_eq (w : ℕ) (bs : Bytes) (i : ℕ) (found : Option ℕ) :
    findSentinel bs i (words w found) = words w (lastSentinel bs i found) := by
  induction bs generalizing i found with
  | nil => rfl
  | cons b bs ih => rw [findSentinel, findRound_words, ih, lastSentinel]

theorem nonZeroAfter_eq (hw : 8 ≤ w) {foundPos : ℕ} (hpos : foundPos < 2 ^ (w - 1)) (bs : Bytes)
    (i : ℕ) (acc : UInt8) (hlen : i + bs.length < 2 ^ (w - 1)) :
    nonZeroAfter (BitVec.ofNat w foundPos) bs i acc =
      nonZeroAfterSentinel foundPos bs i acc := by
  induction bs generalizing i acc with
  | nil => rfl
  | cons b bs ih =>
    rw [List.length_cons] at hlen
    rw [nonZeroAfter, nonZeroAfterSentinel, ctGtMask_eq hw (by omega) hpos,
      ih (i + 1) _ (by omega)]

/-- What the masks leave of a found position: its word is the position, and both second loops
agree. -/
structure Reads (w pos : ℕ) (padded : Bytes) : Prop where
  toNat : (BitVec.ofNat w pos).toNat = pos
  eq_zero_iff : BitVec.ofNat w pos = 0#w ↔ pos = 0
  after : nonZeroAfter (BitVec.ofNat w pos) padded 0 0 =
    nonZeroAfterSentinel pos padded 0 0

section

variable (hw : 8 ≤ w) (hlen : padded.length < 2 ^ (w - 1))
include hw hlen

theorem reads_of_lastSentinel {pos : ℕ}
    (hfound : lastSentinel padded 0 none = some pos) : Reads w pos padded := by
  have hpos : pos < 2 ^ (w - 1) := by
    obtain hnone | ⟨xs, ys, rfl, rfl⟩ := MessagePadding.lastSentinel_eq_some hfound
    · cases hnone
    · rw [List.length_append, List.length_cons] at hlen
      omega
  have hpow : 2 ^ (w - 1) ≤ 2 ^ w := Nat.pow_le_pow_right Nat.two_pos (Nat.sub_le w 1)
  have htoNat : (BitVec.ofNat w pos).toNat = pos := by
    rw [BitVec.toNat_ofNat, Nat.mod_eq_of_lt (by omega)]
  refine ⟨htoNat, ⟨fun h => ?_, fun h => by rw [h]⟩,
    nonZeroAfter_eq hw hpos padded 0 0 (by omega)⟩
  rw [← htoNat, h]
  exact BitVec.toNat_zero

/-- The masks of `MessagePadding::unpad` select as its model does. -/
theorem unpad_eq :
    unpad w padded = MessagePadding.unpad padded := by
  have hw0 : w ≠ 0 := by omega
  have hloop : findSentinel padded 0 (0, 0) =
      words w (lastSentinel padded 0 none) := findSentinel_eq w padded 0 none
  rw [unpad, MessagePadding.unpad, hloop]
  by_cases hne : padded = []
  · subst hne
    rfl
  by_cases haligned : padded.length % messagePaddingBlockSize = 0
  · cases hfound : lastSentinel padded 0 none with
    | none => simp [words, require, hne, haligned, bind, Except.bind]
    | some pos =>
      obtain ⟨htoNat, -, hafter⟩ := reads_of_lastSentinel hw hlen hfound
      by_cases hzeros : nonZeroAfterSentinel pos padded 0 0 = 0 <;>
        simp [words, require, hne, haligned, bind, Except.bind, hw0, htoNat, hafter, hzeros]
  · simp [require, hne, haligned, bind, Except.bind]

/-- The masks of `unpad_frame` select as its model does. -/
theorem unpadFrame_eq :
    unpadFrame w padded = Voip.unpadFrame padded := by
  have hw0 : w ≠ 0 := by omega
  have hloop : findSentinel padded 0 (0, 0) =
      words w (lastSentinel padded 0 none) := findSentinel_eq w padded 0 none
  rw [unpadFrame, Voip.unpadFrame, hloop]
  cases hfound : lastSentinel padded 0 none with
  | none => simp [words, require, orError, bind, Except.bind]
  | some pos =>
    obtain ⟨htoNat, hzero, hafter⟩ := reads_of_lastSentinel hw hlen hfound
    by_cases hpos : pos = 0 <;>
      simp [words, require, orError, bind, Except.bind, hw0, htoNat, hafter, hzero, hpos]

end

/-! ## What is accepted -/

/-- `unpad` accepts exactly the blocks that end in the sentinel and zeros, with what stands before,
and undoes `pad`; `unpad_frame` and `pad_frame` do the same for payloads that are not empty.  The
lengths are those of slices on a target with words of `w` bits. -/
theorem unpad_characterised (hw : 8 ≤ w) :
    (∀ q p : Bytes, q.length < 2 ^ (w - 1) →
      (unpad w q = .ok p ↔ q ≠ [] ∧ messagePaddingBlockSize ∣ q.length ∧
        ∃ n, q = p ++ 0x01 :: List.replicate n 0x00)) ∧
    (∀ p : Bytes, (MessagePadding.pad p).length < 2 ^ (w - 1) →
      unpad w (MessagePadding.pad p) = .ok p) ∧
    (∀ q p : Bytes, q.length < 2 ^ (w - 1) →
      (unpadFrame w q = .ok p ↔ q ≠ [] ∧ Voip.voipFramePaddingBlock ∣ q.length ∧ p ≠ [] ∧
        ∃ n, q = p ++ 0x01 :: List.replicate n 0x00)) ∧
    ∀ p : Bytes, p ≠ [] → (Voip.padFrame p).length < 2 ^ (w - 1) →
      unpadFrame w (Voip.padFrame p) = .ok p := by
  refine ⟨fun q p hlen ↦ ?_, fun p hlen ↦ ?_, fun q p hlen ↦ ?_, fun p hne hlen ↦ ?_⟩
  · rw [unpad_eq hw hlen, MessagePadding.unpad_eq_ok, Nat.dvd_iff_mod_eq_zero]
  · rw [unpad_eq hw hlen, MessagePadding.unpad_pad]
  · rw [unpadFrame_eq hw hlen, Voip.unpadFrame_eq_ok, Nat.dvd_iff_mod_eq_zero]
  · rw [unpadFrame_eq hw hlen, Voip.unpadFrame_padFrame hne]

theorem unpad_characterised_sample :
    unpad 64 (MessagePadding.pad [7, 1, 0]) = .ok [7, 1, 0] ∧
      unpadFrame 32 (Voip.padFrame [1]) = .ok [1] := by
  obtain ⟨-, hmessage, -, -⟩ := unpad_characterised (w := 64) (by decide)
  obtain ⟨-, -, -, hframe⟩ := unpad_characterised (w := 32) (by decide)
  exact ⟨hmessage _ (by decide), hframe _ (by decide) (by decide)⟩

end AuraProtocol.PaddingMasks
