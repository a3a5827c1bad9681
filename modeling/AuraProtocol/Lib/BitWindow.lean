import Mathlib.Order.Lattice.Nat

/-!
# Bitmaps in words, and the windows of numbers they stand for

A bitmap of `n` words of 64 bits; bit `i` is bit `i % 64` of word `i / 64`.  Shifting is
done as programs do it, by whole words and then by bits with a carry from the word
below, and moves every bit up by the same distance (`bit_shift`).

A window records a set of numbers by its largest element and the bitmap of what lies
below it (`Records`); what lies too far below is forgotten.
-/

namespace BitWindow

/-- A bitmap of `n` words. -/
abbrev Words (n : ℕ) := Vector (BitVec 64) n

variable {n : ℕ}

/-- The bitmap with no bit set. -/
def zero (n : ℕ) : Words n := Vector.replicate n 0

/-- Word `j`. -/
def word (b : Words n) (j : ℕ) : BitVec 64 := b[j]?.getD 0

/-- Bit `i`. -/
def bit (b : Words n) (i : ℕ) : Bool := (word b (i / 64)).getLsbD (i % 64)

/-- Sets bit `i`. -/
def set (b : Words n) (i : ℕ) : Words n :=
  b.setIfInBounds (i / 64) (word b (i / 64) ||| ((1 : BitVec 64) <<< (i % 64)))

/-- Moves whole words up and clears the lowest. -/
def shiftWords (b : Words n) (wordShift : ℕ) : Words n :=
  Vector.ofFn fun j => if j.1 < wordShift then 0 else word b (j.1 - wordShift)

/-- Moves the bits of every word up, with what falls out of the word below. -/
def shiftBits (b : Words n) (bitShift : ℕ) : Words n :=
  Vector.ofFn fun j =>
    if j.1 = 0 then word b j.1 <<< bitShift
    else (word b j.1 <<< bitShift) ||| (word b (j.1 - 1) >>> (64 - bitShift))

/-- Moves all bits up. -/
def shift (b : Words n) (distance : ℕ) : Words n :=
  if n * 64 ≤ distance then zero n
  else
    let moved := if 0 < distance / 64 then shiftWords b (distance / 64) else b
    if 0 < distance % 64 then shiftBits moved (distance % 64) else moved

/-! ## Single bits -/

theorem word_zero (j : ℕ) : word (zero n) j = 0 := by
  by_cases hj : j < n
  · simp [word, zero, hj]
  · simp [word, hj]

theorem bit_zero (i : ℕ) : bit (zero n) i = false := by
  rw [bit, word_zero]
  exact BitVec.getLsbD_zero

/-- A single bit. -/
theorem getLsbD_one_shiftLeft {w k i : ℕ} (hi : i < w) :
    ((1 : BitVec w) <<< k).getLsbD i = decide (i = k) := by
  rw [BitVec.getLsbD_shiftLeft, show (1 : BitVec w) = 1#w from rfl, BitVec.getLsbD_one]
  by_cases hik : i = k
  · simp [hik, hik ▸ hi, Nat.zero_lt_of_lt hi]
  · by_cases hlt : i < k
    · simp [hlt, hik]
    · have : i - k ≠ 0 := by omega
      simp [this, hik]

/-- A program tests a bit by masking its word. -/
theorem and_one_shiftLeft_eq_zero {w : ℕ} (b : BitVec w) {k : ℕ} (hk : k < w) :
    b &&& ((1 : BitVec w) <<< k) = 0 ↔ b.getLsbD k = false := by
  constructor
  · intro h
    have := congrArg (fun v : BitVec w => v.getLsbD k) h
    simpa [hk] using this
  · intro h
    apply BitVec.eq_of_getLsbD_eq
    intro i hi
    rw [BitVec.getLsbD_and, getLsbD_one_shiftLeft hi]
    by_cases hik : i = k
    · simp [hik, h]
    · simp [hik]

theorem word_ofFn (f : Fin n → BitVec 64) {j : ℕ} (hj : j < n) :
    word (Vector.ofFn f) j = f ⟨j, hj⟩ := by
  simp [word, hj]

theorem bit_set (b : Words n) {i k : ℕ} (hi : i < n * 64) (hk : k < n * 64) :
    bit (set b i) k = (decide (k = i) || bit b k) := by
  have hword : ∀ {j}, j < n * 64 → j / 64 < n := fun h => by omega
  by_cases hsame : k / 64 = i / 64
  · have hget : word (set b i) (k / 64) =
        word b (i / 64) ||| ((1 : BitVec 64) <<< (i % 64)) := by
      rw [hsame]
      simp [word, set, hword hi]
    rw [bit, hget, BitVec.getLsbD_or, getLsbD_one_shiftLeft (Nat.mod_lt _ (by decide)), bit,
      hsame, Bool.or_comm]
    congr 1
    exact decide_eq_decide.mpr ⟨fun h => by omega, fun h => by omega⟩
  · have hget : word (set b i) (k / 64) = word b (k / 64) := by
      simp [word, set, hword hk, Ne.symm hsame]
    have hne : k ≠ i := fun h => hsame (by rw [h])
    rw [bit, hget, bit, decide_eq_false hne, Bool.false_or]

theorem bit_shiftWords (b : Words n) (wordShift : ℕ) {i : ℕ} (hi : i < n * 64) :
    bit (shiftWords b wordShift) i =
      (decide (wordShift * 64 ≤ i) && bit b (i - wordShift * 64)) := by
  have hj : i / 64 < n := by omega
  have hmod : (i - wordShift * 64) % 64 = if wordShift * 64 ≤ i then i % 64 else 0 := by
    split_ifs <;> omega
  rw [bit, shiftWords, word_ofFn _ hj]
  dsimp only
  split_ifs with h
  · have : ¬ wordShift * 64 ≤ i := by omega
    rw [decide_eq_false this, Bool.false_and]
    exact BitVec.getLsbD_zero
  · have hle : wordShift * 64 ≤ i := by omega
    have hdiv : (i - wordShift * 64) / 64 = i / 64 - wordShift := by omega
    rw [decide_eq_true hle, Bool.true_and, bit, hmod, if_pos hle, hdiv]

theorem bit_shiftBits (b : Words n) {bitShift : ℕ} (hpos : 0 < bitShift) (hlt : bitShift < 64)
    {i : ℕ} (hi : i < n * 64) :
    bit (shiftBits b bitShift) i = (decide (bitShift ≤ i) && bit b (i - bitShift)) := by
  have hj : i / 64 < n := by omega
  have hm : i % 64 < 64 := Nat.mod_lt _ (by decide)
  rw [bit, shiftBits, word_ofFn _ hj]
  dsimp only
  by_cases hcarry : i % 64 < bitShift
  · split_ifs with h0
    · have : ¬ bitShift ≤ i := by omega
      rw [BitVec.getLsbD_shiftLeft, decide_eq_true hcarry, decide_eq_false this]
      simp
    · -- the bit comes out of the word below
      have hle : bitShift ≤ i := by omega
      have hdiv : (i - bitShift) / 64 = i / 64 - 1 := by omega
      have hmod : (i - bitShift) % 64 = 64 - bitShift + i % 64 := by omega
      rw [BitVec.getLsbD_or, BitVec.getLsbD_shiftLeft, BitVec.getLsbD_ushiftRight,
        decide_eq_true hcarry, decide_eq_true hle, bit, hdiv, hmod]
      simp
  · have hle : bitShift ≤ i := by omega
    have hdiv : (i - bitShift) / 64 = i / 64 := by omega
    have hmod : (i - bitShift) % 64 = i % 64 - bitShift := by omega
    have hout : ∀ w : BitVec 64, (w >>> (64 - bitShift)).getLsbD (i % 64) = false := fun w => by
      rw [BitVec.getLsbD_ushiftRight]
      exact BitVec.getLsbD_of_ge _ _ (by omega)
    have hin : (word b (i / 64) <<< bitShift).getLsbD (i % 64) =
        (word b (i / 64)).getLsbD (i % 64 - bitShift) := by
      rw [BitVec.getLsbD_shiftLeft, decide_eq_true hm, decide_eq_false hcarry]
      rfl
    rw [decide_eq_true hle, Bool.true_and, bit, hdiv, hmod]
    split_ifs
    · exact hin
    · rw [BitVec.getLsbD_or, hin, hout, Bool.or_false]

/-- Shifting moves every bit up by the same distance. -/
theorem bit_shift (b : Words n) (distance : ℕ) {i : ℕ} (hi : i < n * 64) :
    bit (shift b distance) i = (decide (distance ≤ i) && bit b (i - distance)) := by
  have hmoved : ∀ k < n * 64, bit (if 0 < distance / 64 then shiftWords b (distance / 64) else b)
      k = (decide (distance / 64 * 64 ≤ k) && bit b (k - distance / 64 * 64)) := by
    intro k hk
    by_cases hword : 0 < distance / 64
    · rw [if_pos hword, bit_shiftWords b _ hk]
    · have : distance / 64 * 64 = 0 := by omega
      rw [if_neg hword, this]
      simp
  rw [shift]
  by_cases hall : n * 64 ≤ distance
  · have : ¬ distance ≤ i := by omega
    rw [if_pos hall, bit_zero, decide_eq_false this, Bool.false_and]
  rw [if_neg hall]
  dsimp only
  by_cases hbits : 0 < distance % 64
  · rw [if_pos hbits, bit_shiftBits _ hbits (Nat.mod_lt _ (by decide)) hi, hmoved _ (by omega),
      ← Bool.and_assoc, Nat.sub_sub]
    congr 1
    · rw [← Bool.decide_and]
      exact decide_eq_decide.mpr ⟨fun h => by omega, fun h => by omega⟩
    · congr 1
      omega
  · rw [if_neg hbits, hmoved _ hi]
    have : distance / 64 * 64 = distance := by omega
    rw [this]

/-! ## Windows -/

/-- The bitmap and the largest element record which of the numbers in reach are in `seen`. -/
structure Records (high : ℕ) (b : Words n) (seen : Finset ℕ) : Prop where
  /-- The largest element; zero if there is none. -/
  high_eq : high = seen.sup id
  bit_iff : ∀ i < n * 64, bit b i = true ↔ i ≤ high ∧ high - i ∈ seen

namespace Records

variable {high c : ℕ} {b : Words n} {seen : Finset ℕ}

theorem empty : Records 0 (zero n) ∅ where
  high_eq := rfl
  bit_iff i _ := by simp [bit_zero]

theorem le_high (h : Records high b seen) {m : ℕ} (hm : m ∈ seen) : m ≤ high := by
  rw [h.high_eq]
  exact Finset.le_sup (f := id) hm

theorem high_mem (h : Records high b seen) (hne : seen.Nonempty) : high ∈ seen := by
  rw [h.high_eq, ← Finset.sup'_eq_sup hne]
  obtain ⟨m, hm, heq⟩ := Finset.exists_mem_eq_sup' hne id
  rw [heq]
  exact hm

/-- The window of one number. -/
theorem single (hn : 0 < n) (c : ℕ) : Records c (set (zero n) 0) {c} where
  high_eq := (Finset.sup_singleton (f := id)).symm
  bit_iff i hi := by
    rw [bit_set _ (by omega) hi, bit_zero, Bool.or_false, decide_eq_true_iff, Finset.mem_singleton]
    omega

/-- A number out of reach changes nothing. -/
theorem pass (h : Records high b seen) (hreach : n * 64 ≤ high - c) (hc : c ≤ high) :
    Records high b (insert c seen) where
  high_eq := by
    rw [Finset.sup_insert, ← h.high_eq]
    exact (max_eq_right hc).symm
  bit_iff i hi := by
    have hne : high - i ≠ c := by omega
    rw [h.bit_iff i hi, Finset.mem_insert, or_iff_right hne]

/-- A number above the largest element moves the window up to itself. -/
theorem advance (h : Records high b seen) (hc : high < c) (hn : 0 < n) :
    Records c (set (shift b (c - high)) 0) (insert c seen) where
  high_eq := by
    rw [Finset.sup_insert, ← h.high_eq]
    exact (max_eq_left hc.le).symm
  bit_iff i hi := by
    rw [bit_set _ (by omega) hi, bit_shift _ _ hi, Finset.mem_insert, Bool.or_eq_true,
      Bool.and_eq_true, decide_eq_true_iff, decide_eq_true_iff]
    by_cases h0 : i = 0
    · simp [h0]
    · rw [h.bit_iff _ (by omega)]
      constructor
      · rintro (h' | ⟨hle, hhigh, hmem⟩)
        · exact absurd h' h0
        · refine ⟨by omega, .inr ?_⟩
          rwa [show c - i = high - (i - (c - high)) by omega]
      · rintro ⟨hle, heq | hmem⟩
        · omega
        · have := h.le_high hmem
          refine .inr ⟨by omega, by omega, ?_⟩
          rwa [show high - (i - (c - high)) = c - i by omega]

/-- A number in reach sets its bit. -/
theorem fill (h : Records high b seen) (hc : c ≤ high) (hreach : high - c < n * 64) :
    Records high (set b (high - c)) (insert c seen) where
  high_eq := by
    rw [Finset.sup_insert, ← h.high_eq]
    exact (max_eq_right hc).symm
  bit_iff i hi := by
    rw [bit_set _ hreach hi, Finset.mem_insert, Bool.or_eq_true, decide_eq_true_iff, h.bit_iff i hi]
    constructor
    · rintro (rfl | ⟨hle, hmem⟩)
      · exact ⟨by omega, .inl (by omega)⟩
      · exact ⟨hle, .inr hmem⟩
    · rintro ⟨hle, heq | hmem⟩
      · exact .inl (by omega)
      · exact .inr ⟨hle, hmem⟩

end Records

end BitWindow
