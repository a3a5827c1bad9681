import AuraProtocol.Core

/-!
# Message padding

`crypto/padding.rs`: a plaintext is followed by a sentinel byte `0x01` and
zeros up to a multiple of the block size.  `unpad` looks for the last sentinel
and then checks that only zeros follow it, each time over the whole buffer.  The
source selects with masks to stay constant-time; the model selects with `if`, and
`Crypto/PaddingMasks` shows that the masks select the same.
-/

namespace AuraProtocol.MessagePadding

open List

/-- `ct_gt_mask`: all ones if `a > b`, else zero. -/
def ctGtMask (a b : ℕ) : UInt8 := if b < a then 0xFF else 0x00

def paddedLength (plaintextLen : ℕ) : ℕ :=
  (plaintextLen + 1 + (messagePaddingBlockSize - 1)) / messagePaddingBlockSize *
    messagePaddingBlockSize

def pad (plaintext : Bytes) : Bytes :=
  plaintext ++ 0x01 ::
    List.replicate (paddedLength plaintext.length - (plaintext.length + 1)) 0x00

/-- The first loop of `unpad`: the position of the last sentinel, from position `i` on. -/
def lastSentinel : Bytes → ℕ → Option ℕ → Option ℕ
  | [], _, found => found
  | byte :: rest, i, found => lastSentinel rest (i + 1) (if byte = 0x01 then some i else found)

/-- The second loop of `unpad`: the bytes after `foundPos`, or-ed together. -/
def nonZeroAfterSentinel (foundPos : ℕ) : Bytes → ℕ → UInt8 → UInt8
  | [], _, acc => acc
  | byte :: rest, i, acc =>
    nonZeroAfterSentinel foundPos rest (i + 1) (acc ||| (byte &&& ctGtMask i foundPos))

def unpad (padded : Bytes) : Except ProtocolError Bytes :=
  if padded.isEmpty then .error (.decode "Invalid padding: empty input")
  else if padded.length % messagePaddingBlockSize ≠ 0 then
    .error (.decode "Invalid padding: not block-aligned")
  else match lastSentinel padded 0 none with
    | none => .error (.decode "Invalid padding: no sentinel byte found")
    | some foundPos =>
      if nonZeroAfterSentinel foundPos padded 0 0 ≠ 0 then
        .error (.decode "Invalid padding: non-zero bytes after sentinel")
      else .ok (padded.take foundPos)

theorem length_lt_paddedLength (n : ℕ) : n < paddedLength n := by
  rw [paddedLength, messagePaddingBlockSize]
  omega

@[simp] theorem length_pad (plaintext : Bytes) :
    (pad plaintext).length = paddedLength plaintext.length := by
  have := length_lt_paddedLength plaintext.length
  rw [pad, length_append, length_cons, length_replicate]
  omega

theorem lastSentinel_append (xs ys : Bytes) (i : ℕ) (found : Option ℕ) :
    lastSentinel (xs ++ ys) i found = lastSentinel ys (i + xs.length) (lastSentinel xs i found) := by
  induction xs generalizing i found with
  | nil => rfl
  | cons x xs ih =>
    rw [cons_append, lastSentinel, ih, lastSentinel, length_cons]
    congr 1
    omega

theorem lastSentinel_replicate_zero (n i : ℕ) (found : Option ℕ) :
    lastSentinel (List.replicate n 0x00) i found = found := by
  induction n generalizing i with
  | zero => rfl
  | succ n ih => rw [replicate_succ, lastSentinel, if_neg (by decide), ih]

/-- The last sentinel of a padded plaintext is the one padding put there. -/
theorem lastSentinel_padding (plaintext : Bytes) (n : ℕ) :
    lastSentinel (plaintext ++ 0x01 :: List.replicate n 0x00) 0 none = some plaintext.length := by
  rw [lastSentinel_append, lastSentinel, if_pos rfl, lastSentinel_replicate_zero, Nat.zero_add]

/-- Bytes up to the sentinel are masked away, so the second loop ends with zero exactly if only
zeros come after it. -/
theorem nonZeroAfterSentinel_eq_zero_iff {foundPos : ℕ} (bs : Bytes) (i : ℕ) (acc : UInt8) :
    nonZeroAfterSentinel foundPos bs i acc = 0 ↔
      acc = 0 ∧ ∀ k b, bs[k]? = some b → foundPos < i + k → b = 0 := by
  induction bs generalizing i acc with
  | nil => exact ⟨fun h => ⟨h, fun k b hk => (by cases hk)⟩, fun h => h.1⟩
  | cons b bs ih =>
    have hmask : b &&& ctGtMask i foundPos = 0 ↔ (foundPos < i → b = 0) := by
      rw [ctGtMask]
      split_ifs with hlt
      · rw [show b &&& 0xFF = b from UInt8.and_neg_one]
        exact ⟨fun h _ => h, fun h => h hlt⟩
      · exact ⟨fun _ h => absurd h hlt, fun _ => UInt8.and_zero⟩
    rw [nonZeroAfterSentinel, ih, UInt8.or_eq_zero_iff, hmask, and_assoc]
    refine and_congr_right fun _ => ⟨fun h k b' hk hlt => ?_, fun h => ⟨h 0 b rfl, ?_⟩⟩
    · cases k with
      | zero =>
        cases hk
        exact h.1 hlt
      | succ k => exact h.2 k b' hk (by omega)
    · exact fun k b' hk hlt => h (k + 1) b' hk (by omega)

/-- Only zeros follow the sentinel that padding put there. -/
theorem nonZeroAfterSentinel_padding (plaintext : Bytes) (n : ℕ) :
    nonZeroAfterSentinel plaintext.length (plaintext ++ 0x01 :: List.replicate n 0x00) 0 0 = 0 := by
  refine (nonZeroAfterSentinel_eq_zero_iff _ _ _).mpr ⟨rfl, fun k b hk hlt => ?_⟩
  obtain ⟨m, hm⟩ := Nat.exists_eq_add_of_lt hlt
  obtain rfl : k = plaintext.length + (m + 1) := by omega
  rw [List.getElem?_append_right (Nat.le_add_right _ _), Nat.add_sub_cancel_left,
    List.getElem?_cons_succ] at hk
  exact eq_of_mem_replicate (mem_of_getElem? hk)

/-- Where the first loop stops: at the last sentinel, or where it was before if there is none. -/
theorem lastSentinel_eq_some {bs : Bytes} {i : ℕ} {found : Option ℕ} {pos : ℕ}
    (h : lastSentinel bs i found = some pos) :
    found = some pos ∨ ∃ xs ys, bs = xs ++ 0x01 :: ys ∧ pos = i + xs.length := by
  induction bs generalizing i found with
  | nil => exact .inl h
  | cons b bs ih =>
    rw [lastSentinel] at h
    obtain hfound | ⟨xs, ys, rfl, rfl⟩ := ih h
    · split_ifs at hfound with hb
      · exact .inr ⟨[], bs, by rw [hb, nil_append], (Option.some.inj hfound).symm⟩
      · exact .inl hfound
    · refine .inr ⟨b :: xs, ys, rfl, ?_⟩
      rw [length_cons]
      omega

/-- A byte string that the two loops accept is a plaintext, the sentinel and zeros. -/
theorem eq_of_loops {padded : Bytes} {pos : ℕ} (hfound : lastSentinel padded 0 none = some pos)
    (hzeros : nonZeroAfterSentinel pos padded 0 0 = 0) :
    pos < padded.length ∧
      ∃ n, padded = padded.take pos ++ 0x01 :: List.replicate n 0x00 := by
  obtain hnone | ⟨xs, ys, rfl, hpos⟩ := lastSentinel_eq_some hfound
  · cases hnone
  rw [Nat.zero_add] at hpos
  subst hpos
  obtain ⟨-, hafter⟩ := (nonZeroAfterSentinel_eq_zero_iff _ _ _).mp hzeros
  have hys : ys = List.replicate ys.length 0x00 := by
    refine eq_replicate_iff.mpr ⟨rfl, fun y hy => ?_⟩
    obtain ⟨k, hk⟩ := List.getElem?_of_mem hy
    refine hafter (xs.length + (k + 1)) y ?_ (by omega)
    rw [List.getElem?_append_right (Nat.le_add_right _ _), Nat.add_sub_cancel_left,
      List.getElem?_cons_succ, hk]
  refine ⟨by simp, ys.length, ?_⟩
  rw [take_left', ← hys]
  rfl

/-- What the two loops accept. -/
theorem loops_iff {padded plaintext : Bytes} :
    (∃ pos, lastSentinel padded 0 none = some pos ∧ nonZeroAfterSentinel pos padded 0 0 = 0 ∧
      padded.take pos = plaintext) ↔ ∃ n, padded = plaintext ++ 0x01 :: List.replicate n 0x00 := by
  constructor
  · rintro ⟨pos, hfound, hzeros, rfl⟩
    exact (eq_of_loops hfound hzeros).2
  · rintro ⟨n, rfl⟩
    exact ⟨plaintext.length, lastSentinel_padding _ _, nonZeroAfterSentinel_padding _ _,
      take_left' rfl⟩

/-- When `unpad` succeeds, and with what. -/
theorem unpad_eq_ok {padded plaintext : Bytes} :
    unpad padded = .ok plaintext ↔ padded ≠ [] ∧ padded.length % messagePaddingBlockSize = 0 ∧
      ∃ n, padded = plaintext ++ 0x01 :: List.replicate n 0x00 := by
  rw [← loops_iff, unpad]
  split_ifs with hempty haligned
  · exact ⟨fun h => (by cases h), fun h => absurd (isEmpty_iff.mp hempty) h.1⟩
  · exact ⟨fun h => (by cases h), fun h => absurd h.2.1 haligned⟩
  have hne : padded ≠ [] := fun h => hempty (isEmpty_iff.mpr h)
  simp only [ne_eq, hne, not_false_eq_true, not_not.mp haligned, true_and]
  cases hfound : lastSentinel padded 0 none with
  | none => exact ⟨fun h => (by cases h), fun h => (by obtain ⟨_, h, _⟩ := h; cases h)⟩
  | some pos =>
    simp only [Option.some.injEq, exists_eq_left']
    by_cases hzeros : nonZeroAfterSentinel pos padded 0 0 = 0
    · rw [if_neg (not_not.mpr hzeros), Except.ok.injEq]
      exact ⟨fun h => ⟨hzeros, h⟩, fun h => h.2⟩
    · rw [if_pos hzeros]
      exact ⟨fun h => (by cases h), fun h => absurd h.1 hzeros⟩

/-- Unpadding recovers every padded plaintext. -/
theorem unpad_pad (plaintext : Bytes) : unpad (pad plaintext) = .ok plaintext := by
  refine unpad_eq_ok.mpr ⟨?_, ?_, _, rfl⟩
  · exact append_ne_nil_of_right_ne_nil _ (cons_ne_nil _ _)
  · rw [length_pad, paddedLength]
    exact Nat.mul_mod_left _ _

end AuraProtocol.MessagePadding
