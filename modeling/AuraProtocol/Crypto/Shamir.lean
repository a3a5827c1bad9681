import AuraProtocol.Crypto.Instance
import AuraProtocol.Lib.Interpolation
import AuraProtocol.Lib.LogTable
import AuraProtocol.Lib.Pieces
import Mathlib.Data.LawfulXor.Basic
import Mathlib.Data.Nat.Bitwise

/-!
# Shamir secret sharing

`crypto/shamir_secret_sharing.rs`: the tables of exponentials and logarithms, the
masked arithmetic on bytes, and splitting and reconstructing a secret byte by byte.

The tables are built by multiplying with a generator, an additive map of the bytes
under exclusive or; `Lib/LogTable` turns that into a field on the bytes (`GF256`)
whose operations are `gf_mul` and `gf_inv`.  Interpolation at more nodes than the
degree is then Lagrange's formula, evaluated by the loops of the source.
-/

namespace AuraProtocol.Shamir

open Fallible

variable {secret authKey : Bytes} {rand : ℕ → Bytes} {c : Crypto} {indices : List ℕ}
  {threshold shareCount : UInt8}

def maxShareSize : ℕ := 65536
def magicBytes : Bytes := [0xEC, 0x11, 0x1C, 0x00]
def shareHeaderSize : ℕ := magicBytes.length + 1
def minShareSize : ℕ := shareHeaderSize + 1
def gf256Modulus : UInt16 := 0x11B
def gf256Overflow : UInt16 := 0x100

/-! ## The tables -/

/-- One round of the loop that fills the table of exponentials: multiplication by `x + 1`. -/
def expStep (val : UInt16) : UInt16 :=
  let val := (val <<< 1) ^^^ val
  if val &&& gf256Overflow ≠ 0 then val ^^^ gf256Modulus else val

/-- The next `n` entries of the table. -/
def expLoop : ℕ → UInt16 → List UInt8
  | 0, _ => []
  | n + 1, val => val.toUInt8 :: expLoop n (expStep val)

def expTable : List UInt8 := expLoop 512 1

def logTable : List UInt8 :=
  (List.range 255).foldl (fun table i => table.set (expTable.getD i 0).toNat (UInt8.ofNat i))
    (List.replicate 256 0)

/-! ## Arithmetic on bytes -/

/-- `gf_mul`: the mask clears the result if a factor is zero. -/
def gfMul (a b : UInt8) : UInt8 :=
  let logSum := (logTable.getD a.toNat 0).toUInt16 + (logTable.getD b.toNat 0).toUInt16
  let result := expTable.getD logSum.toNat 0
  let mask := ((a.toUInt16 - 1) >>> 8) ||| ((b.toUInt16 - 1) >>> 8)
  result &&& (~~~mask).toUInt8

def gfInv (a : UInt8) : UInt8 :=
  let logA := (logTable.getD a.toNat 0).toUInt16
  let result := expTable.getD (255 - logA).toNat 0
  let mask := (a.toUInt16 - 1) >>> 8
  result &&& (~~~mask).toUInt8

def evaluatePolynomial (coefficients : Bytes) (x : UInt8) : UInt8 :=
  coefficients.reverse.foldl (fun result coef => gfMul result x ^^^ coef) 0

/-- The body of the inner loop of `lagrange_interpolate`: the factors of node `j` for node `i`. -/
def lagrangeStep (xValues : Bytes) (x : UInt8) (i : ℕ) (acc : UInt8 × UInt8) (j : ℕ) :
    UInt8 × UInt8 :=
  let isSame : UInt8 := if i ^^^ j = 0 then 1 else 0
  let numFactor := (x ^^^ xValues.getD j 0) ||| (0 - isSame)
  let denFactor := (xValues.getD i 0 ^^^ xValues.getD j 0) ||| (0 - isSame)
  let numProduct := gfMul acc.1 numFactor
  let denProduct := gfMul acc.2 denFactor
  let mask := 0 - isSame
  ((acc.1 &&& mask) ||| (numProduct &&& ~~~mask), (acc.2 &&& mask) ||| (denProduct &&& ~~~mask))

def lagrangeInterpolate (xValues yValues : Bytes) (x : UInt8) : Except ProtocolError UInt8 := do
  let n := xValues.length
  require (n = yValues.length) (.generic "x/y length mismatch in Lagrange interpolation")
  .ok ((List.range n).foldl (fun result i =>
    let fraction := (List.range n).foldl (lagrangeStep xValues x i) (yValues.getD i 0, 1)
    result ^^^ gfMul fraction.1 (gfInv fraction.2)) 0)

/-! ## Splitting and reconstructing -/

/-- The share number `i` before any byte of the secret. -/
def shareHeader (i : ℕ) : Bytes := magicBytes ++ [UInt8.ofNat i + 1]

/-- Appends the value of a polynomial at its own coordinate to every share. -/
def pushShares (coefficients : Bytes) (shares : List Bytes) : List Bytes :=
  shares.zipIdx.map fun share =>
    share.1 ++ [evaluatePolynomial coefficients (UInt8.ofNat share.2 + 1)]

/-- `ShamirSecretSharing::split`; `rand k` are the bytes drawn for byte `k` of the secret. -/
def split (c : Crypto) (secret : Bytes) (threshold shareCount : UInt8) (authKey : Bytes)
    (rand : ℕ → Bytes) : Except ProtocolError (List Bytes) := do
  require (2 ≤ threshold) (.invalidInput "Threshold must be at least 2")
  require (threshold ≤ shareCount) (.invalidInput "share_count must be >= threshold")
  require (secret ≠ [] ∧ secret.length ≤ maxShareSize) (.invalidInput "Invalid secret length")
  require (authKey.length = hmacBytes) (.invalidInput "Auth key must be 32 bytes")
  let headers := (List.range shareCount.toNat).map shareHeader
  let shares := secret.zipIdx.foldl
    (fun shares byte => pushShares (byte.1 :: rand byte.2) shares) headers
  .ok (shares ++ [c.hmacSha256 authKey secret])

/-- The loop over `seen_x`: whether a coordinate comes up twice. -/
def hasDuplicate (seen : List UInt8) : List UInt8 → Bool
  | [] => false
  | x :: xs => if x ∈ seen then true else hasDuplicate (x :: seen) xs

/-- The loop over the bytes of the secret. -/
def interpolateBytes (xValues : Bytes) (dataShares : List Bytes) (secretLen : ℕ) :
    Except ProtocolError Bytes :=
  Subtype.val <$> mapEach (fun byteIdx => lagrangeInterpolate xValues
    (dataShares.map fun share => share.getD (shareHeaderSize + byteIdx) 0) 0) (List.range secretLen)

/-- `ShamirSecretSharing::reconstruct`. -/
def reconstruct (c : Crypto) (shares : List Bytes) (authKey : Bytes) (threshold : ℕ) :
    Except ProtocolError Bytes := do
  require (2 ≤ shares.length) (.invalidInput "Need at least one data share plus auth tag")
  require (authKey.length = hmacBytes) (.invalidInput "Auth key must be 32 bytes")
  let authTag ← orError shares.getLast? (.invalidInput "Empty shares list")
  let dataShares := shares.dropLast
  require (threshold ≤ dataShares.length) (.invalidInput "Not enough shares")
  let firstLen := (dataShares.headD []).length
  require (minShareSize ≤ firstLen) (.invalidInput "Share too short")
  require (∀ share ∈ dataShares, share.length = firstLen ∧ share.take 4 = magicBytes)
    (.invalidInput "Invalid share format")
  let secretLen := firstLen - shareHeaderSize
  require (secretLen ≠ 0 ∧ secretLen ≤ maxShareSize) (.invalidInput "Invalid secret length")
  let xValues := dataShares.map fun share => share.getD magicBytes.length 0
  require (hasDuplicate [] xValues = false) (.invalidInput "Duplicate x-coordinate in shares")
  let secret ← interpolateBytes xValues dataShares secretLen
  require (authTag = c.hmacSha256 authKey secret) (.invalidInput "Share authentication failed")
  .ok secret

/-- `ShamirSecretSharing::reconstruct_serialized`. -/
def reconstructSerialized (c : Crypto) (serialized : Bytes) (shareLength shareCount : ℕ)
    (authKey : Bytes) (threshold : ℕ) : Except ProtocolError Bytes := do
  require (serialized.length = shareLength * shareCount)
    (.invalidInput "Invalid serialized shares length")
  reconstruct c ((List.range shareCount).map (Pieces.piece shareLength serialized)) authKey threshold

/-! ## The bytes as a field -/

/-- A byte as an element of the field with 256 elements. -/
@[ext]
structure GF256 where
  byte : UInt8
  deriving DecidableEq

namespace GF256

instance : Add GF256 := ⟨fun a b => ⟨a.byte ^^^ b.byte⟩⟩

instance : Zero GF256 := ⟨⟨0⟩⟩

instance : Neg GF256 := ⟨id⟩

/-- Bytes are added by exclusive or. -/
local instance : AddCommGroup GF256 :=
  { AddGroup.ofLeftAxioms (fun _ _ _ => GF256.ext (UInt8.xor_assoc ..))
      (fun _ => GF256.ext UInt8.zero_xor) (fun _ => GF256.ext UInt8.xor_self) with
    add_comm := fun _ _ => GF256.ext (UInt8.xor_comm ..) }

/-- One bit of a word. -/
theorem and_overflow (x : UInt16) :
    x &&& gf256Overflow = 0 ∨ x &&& gf256Overflow = gf256Overflow := by
  have hbit : ∀ i < 16, (0x100#16).getLsbD i = decide (i = 8) := by decide
  have hand : x.toBitVec &&& 0x100#16 =
      if x.toBitVec.getLsbD 8 then 0x100#16 else 0#16 := by
    apply BitVec.eq_of_getLsbD_eq
    intro i hi
    rw [BitVec.getLsbD_and, hbit i hi]
    by_cases h8 : i = 8
    · subst h8
      cases h : x.toBitVec.getLsbD 8 <;> simp
    · cases h : x.toBitVec.getLsbD 8 <;> simp [h8, hbit i hi]
  rw [← UInt16.toBitVec_inj, ← UInt16.toBitVec_inj]
  change x.toBitVec &&& 0x100#16 = 0#16 ∨ x.toBitVec &&& 0x100#16 = 0x100#16
  rw [hand]
  split_ifs
  · exact .inr rfl
  · exact .inl rfl

/-- Multiplication by the generator is additive. -/
theorem expStep_xor (a b : UInt16) : expStep (a ^^^ b) = expStep a ^^^ expStep b := by
  have hshift : (a ^^^ b) <<< 1 ^^^ (a ^^^ b) = (a <<< 1 ^^^ a) ^^^ (b <<< 1 ^^^ b) := by
    rw [UInt16.shiftLeft_xor]
    ac_rfl
  have hand : ∀ x y : UInt16,
      (x ^^^ y) &&& gf256Overflow = (x &&& gf256Overflow) ^^^ (y &&& gf256Overflow) := by
    intro x y
    rw [← UInt16.toBitVec_inj]
    apply BitVec.eq_of_getLsbD_eq
    intro i _
    simp [Bool.and_xor_distrib_right]
  simp only [expStep, hshift]
  generalize a <<< 1 ^^^ a = x
  generalize b <<< 1 ^^^ b = y
  rw [hand]
  have hne : gf256Overflow ≠ 0 := by decide
  obtain hx | hx := and_overflow x <;> obtain hy | hy := and_overflow y <;> rw [hx, hy]
  · simp
  · simp [hne, UInt16.xor_assoc]
  · simp only [UInt16.xor_zero, ne_eq, hne, not_false_eq_true, if_true, not_true_eq_false, if_false]
    ac_rfl
  · have hcancel : gf256Modulus ^^^ gf256Modulus = 0 := UInt16.xor_self
    simp only [UInt16.xor_self, ne_eq, hne, not_false_eq_true, if_true, not_true_eq_false, if_false]
    calc x ^^^ y = x ^^^ y ^^^ (gf256Modulus ^^^ gf256Modulus) := by rw [hcancel, UInt16.xor_zero]
      _ = x ^^^ gf256Modulus ^^^ (y ^^^ gf256Modulus) := by ac_rfl

/-- Multiplication by the generator, as a map of bytes. -/
def step : GF256 →+ GF256 where
  toFun a := ⟨(expStep a.byte.toUInt16).toUInt8⟩
  map_zero' := by decide
  map_add' a b := by
    change GF256.mk (expStep (a.byte ^^^ b.byte).toUInt16).toUInt8 = GF256.mk _
    rw [UInt8.toUInt16_xor, expStep_xor, UInt16.toUInt8_xor]

/-- Every byte is one of the first 256 numbers. -/
theorem forall_byte {P : UInt8 → Prop} (h : ∀ n < 256, P (UInt8.ofNat n)) (a : UInt8) : P a := by
  have := h a.toNat a.toNat_lt
  rwa [UInt8.ofNat_toNat] at this

/-- The loop stays within bytes. -/
theorem expStep_toUInt16 (a : GF256) : expStep a.byte.toUInt16 = (step a).byte.toUInt16 :=
  forall_byte (P := fun b => expStep b.toUInt16 = (expStep b.toUInt16).toUInt8.toUInt16)
    (by decide +kernel) a.byte

theorem getD_expLoop {n i : ℕ} (hi : i < n) (a : GF256) :
    (expLoop n a.byte.toUInt16).getD i 0 = (step^[i] a).byte := by
  induction n generalizing i a with
  | zero => exact absurd hi (Nat.not_lt_zero i)
  | succ n ih =>
    rw [expLoop, expStep_toUInt16]
    cases i with
    | zero => exact UInt8.toUInt8_toUInt16 a.byte
    | succ i => exact ih (Nat.lt_of_succ_lt_succ hi) (step a)

/-- The entries of the table are the powers of the generator. -/
theorem getD_expTable {i : ℕ} (hi : i < 512) : expTable.getD i 0 = (step^[i] ⟨1⟩).byte :=
  getD_expLoop hi ⟨1⟩

/-- The logarithm of a byte. -/
def log (a : GF256) : ℕ := (logTable.getD a.byte.toNat 0).toNat

theorem log_lt (a : GF256) : log a < 256 := UInt8.toNat_lt _

/-- The two tables are inverse to each other. -/
theorem map_logTable : logTable.map (fun l => expTable.getD l.toNat 0) =
    1 :: (List.range' 1 255).map UInt8.ofNat := by
  decide +kernel

-- the elaborator should not evaluate the tables; the kernel still does where it is asked to
attribute [irreducible] expTable logTable

theorem step_log (a : GF256) (ha : a ≠ 0) : step^[log a] ⟨1⟩ = a := by
  have hentry : ∀ n < 256, n ≠ 0 →
      (1 :: (List.range' 1 255).map UInt8.ofNat).getD n 0 = UInt8.ofNat n := by
    intro n hn hn0
    obtain ⟨m, rfl⟩ := Nat.exists_eq_succ_of_ne_zero hn0
    rw [List.getD_cons_succ, List.getD_eq_getElem _ _ (by simpa using Nat.lt_of_succ_lt_succ hn),
      List.getElem_map, List.getElem_range', Nat.one_mul, Nat.add_comm]
  have hne : a.byte.toNat ≠ 0 := fun h => ha (GF256.ext (UInt8.toNat_inj.mp h))
  have hlen : a.byte.toNat < logTable.length := by
    have := congrArg List.length map_logTable
    rw [List.length_map] at this
    rw [this]
    simpa using a.byte.toNat_lt
  have hmap := hentry a.byte.toNat a.byte.toNat_lt hne
  rw [← map_logTable, List.getD_eq_getElem _ _ (by rwa [List.length_map]), List.getElem_map,
    UInt8.ofNat_toNat, ← List.getD_eq_getElem (d := 0), getD_expTable] at hmap
  · exact GF256.ext hmap
  · exact (log_lt a).trans (by decide)

/-- The tables of the source. -/
def table : LogTable GF256 where
  unit := ⟨1⟩
  unit_ne_zero := by decide
  step := step
  period := 255
  iterate_period := GF256.ext (by rw [← getD_expTable (by decide)]; decide +kernel)
  log := log
  log_le a := Nat.le_of_lt_succ (log_lt a)
  iterate_log := step_log

/-- The tables implement a field. -/
instance : Field GF256 := table.field

@[simp] theorem byte_add (a b : GF256) : (a + b).byte = a.byte ^^^ b.byte := rfl

@[simp] theorem byte_sub (a b : GF256) : (a - b).byte = a.byte ^^^ b.byte := by
  rw [sub_eq_add_neg]
  rfl

@[simp] theorem byte_zero : (0 : GF256).byte = 0 := rfl

theorem byte_eq_zero {a : GF256} : a.byte = 0 ↔ a = 0 := GF256.ext_iff.symm

theorem table_exp (n : ℕ) : table.exp n = step^[n] ⟨1⟩ := rfl

theorem table_log (a : GF256) : table.log a = log a := rfl

/-- The mask of a factor. -/
theorem mask_eq (a : UInt8) : (a.toUInt16 - 1) >>> 8 = if a = 0 then 0xFF else 0 :=
  forall_byte (P := fun a => (a.toUInt16 - 1) >>> 8 = if a = 0 then 0xFF else 0)
    (by decide +kernel) a

/-- A full mask clears a byte, an empty one keeps it. -/
theorem and_not_mask (result : UInt8) (p : Prop) [Decidable p] :
    result &&& (~~~(if p then 0xFF else 0 : UInt16)).toUInt8 = if p then 0 else result := by
  split_ifs
  · exact UInt8.and_zero
  · exact forall_byte (P := fun b => b &&& 255 = b) (by decide +kernel) result

@[simp] theorem byte_mul (a b : GF256) : (a * b).byte = gfMul a.byte b.byte := by
  change (table.mul a b).byte = _
  have hsum : ((logTable.getD a.byte.toNat 0).toUInt16 +
      (logTable.getD b.byte.toNat 0).toUInt16).toNat = log a + log b := by
    have ha := log_lt a
    have hb := log_lt b
    rw [log] at ha hb
    rw [UInt16.toNat_add, UInt8.toNat_toUInt16, UInt8.toNat_toUInt16, log, log]
    omega
  have hlt : log a + log b < 512 := Nat.add_lt_add (log_lt a) (log_lt b)
  have hmask : (if a.byte = 0 then 0xFF else 0 : UInt16) ||| (if b.byte = 0 then 0xFF else 0) =
      if a = 0 ∨ b = 0 then 0xFF else 0 := by
    rw [if_congr byte_eq_zero rfl rfl, if_congr byte_eq_zero rfl rfl]
    by_cases ha : a = 0 <;> by_cases hb : b = 0 <;> simp [ha, hb]
  simp only [gfMul, mask_eq, hsum, hmask, and_not_mask, getD_expTable hlt]
  rw [LogTable.mul, apply_ite GF256.byte, byte_zero, table_exp, table_log, table_log]

@[simp] theorem byte_inv (a : GF256) : a⁻¹.byte = gfInv a.byte := by
  change (table.inv a).byte = _
  have hdiff : (255 - (logTable.getD a.byte.toNat 0).toUInt16).toNat = 255 - log a := by
    have ha := log_lt a
    rw [log] at ha
    rw [UInt16.toNat_sub, UInt8.toNat_toUInt16, log]
    change (2 ^ 16 - _ + 255) % 2 ^ 16 = _
    omega
  have hlt : 255 - log a < 512 := by omega
  simp only [gfInv, mask_eq, hdiff, and_not_mask, getD_expTable hlt]
  rw [LogTable.inv, apply_ite GF256.byte, byte_zero, table_exp, table_log,
    if_congr byte_eq_zero rfl rfl]
  rfl

end GF256

/-! ## Interpolation -/

open Interpolation Finset

/-- The bytes of a list as field elements. -/
def elements (bs : Bytes) : List GF256 := bs.map GF256.mk

/-- `evaluate_polynomial` is Horner's rule in the field. -/
theorem evaluatePolynomial_eq (coefficients : Bytes) (x : UInt8) :
    evaluatePolynomial coefficients x =
      ((ofCoeffs (elements coefficients)).eval ⟨x⟩).byte := by
  rw [evaluatePolynomial, List.foldl_reverse, eval_ofCoeffs, elements]
  induction coefficients with
  | nil => rfl
  | cons coef coefficients ih =>
    rw [List.map_cons, List.foldr_cons, List.foldr_cons, ih, GF256.byte_add, GF256.byte_mul]

/-- At zero a polynomial has the value of its constant term. -/
theorem evaluatePolynomial_zero (coef : UInt8) (coefficients : Bytes) :
    evaluatePolynomial (coef :: coefficients) 0 = coef := by
  rw [evaluatePolynomial_eq, elements, List.map_cons]
  exact congrArg GF256.byte (eval_ofCoeffs_zero _ _)

/-- The node number `j`. -/
def node (xValues : Bytes) (j : ℕ) : GF256 := ⟨xValues.getD j 0⟩

/-- The masks pick the old values at the node itself, and the products elsewhere. -/
theorem lagrangeStep_eq (xValues : Bytes) (x : UInt8) (i j : ℕ) (num den : GF256) :
    lagrangeStep xValues x i (num.byte, den.byte) j =
      ((num * if j = i then 1 else ⟨x⟩ - node xValues j).byte,
        (den * if j = i then 1 else node xValues i - node xValues j).byte) := by
  by_cases h : j = i
  · subst h
    simp [lagrangeStep]
  · have hne : i ^^^ j ≠ 0 := fun heq => h (xor_eq_zero_iff.mp heq).symm
    simp [lagrangeStep, h, hne, node]

/-- The inner loop multiplies up the factors of all nodes so far. -/
theorem foldl_lagrangeStep (xValues : Bytes) (x : UInt8) (i : ℕ) (num den : GF256) (n : ℕ) :
    (List.range n).foldl (lagrangeStep xValues x i) (num.byte, den.byte) =
      ((num * ∏ j ∈ range n, if j = i then 1 else ⟨x⟩ - node xValues j).byte,
        (den * ∏ j ∈ range n, if j = i then 1 else node xValues i - node xValues j).byte) := by
  induction n with
  | zero => rw [range_zero, prod_empty, prod_empty, mul_one, mul_one]; rfl
  | succ n ih =>
    rw [List.range_succ, List.foldl_append, ih, List.foldl_cons, List.foldl_nil, lagrangeStep_eq,
      prod_range_succ, prod_range_succ, mul_assoc, mul_assoc]

/-- The outer loop adds up field elements. -/
theorem foldl_xor_eq_sum (n : ℕ) (num den : ℕ → GF256) :
    (List.range n).foldl (fun result i => result ^^^ gfMul (num i).byte (gfInv (den i).byte)) 0 =
      (∑ i ∈ range n, num i * (den i)⁻¹).byte := by
  induction n with
  | zero => rfl
  | succ n ih =>
    rw [List.range_succ, List.foldl_append, ih, List.foldl_cons, List.foldl_nil, sum_range_succ,
      GF256.byte_add, GF256.byte_mul, GF256.byte_inv]

/-- `lagrange_interpolate` computes Lagrange's formula. -/
theorem lagrangeInterpolate_eq_sum {xValues yValues : Bytes}
    (hlen : xValues.length = yValues.length) (x : UInt8) :
    lagrangeInterpolate xValues yValues x = .ok (∑ i ∈ range xValues.length,
      (⟨yValues.getD i 0⟩ * ∏ j ∈ range xValues.length,
          if j = i then 1 else ⟨x⟩ - node xValues j) *
        (∏ j ∈ range xValues.length,
          if j = i then 1 else node xValues i - node xValues j)⁻¹ : GF256).byte := by
  rw [lagrangeInterpolate, except_seq_eq_ok, require_eq_ok]
  refine ⟨hlen, congrArg _ ?_⟩
  have hfraction : ∀ i, (List.range xValues.length).foldl (lagrangeStep xValues x i)
      (yValues.getD i 0, 1) = _ := fun i => foldl_lagrangeStep xValues x i ⟨yValues.getD i 0⟩ 1 _
  simp only [hfraction, one_mul]
  exact foldl_xor_eq_sum _ _ _

/-- Interpolation at distinct nodes, at least as many as coefficients, gives back the values of
the polynomial everywhere. -/
theorem lagrangeInterpolate_map {xValues coefficients : Bytes} (hnodup : xValues.Nodup)
    (hlen : coefficients.length ≤ xValues.length) (x : UInt8) :
    lagrangeInterpolate xValues (xValues.map (evaluatePolynomial coefficients)) x =
      .ok (evaluatePolynomial coefficients x) := by
  have hinj : Set.InjOn (node xValues) (range xValues.length) := by
    intro i hi j hj hij
    rw [coe_range, Set.mem_Iio] at hi hj
    have hbyte : xValues.getD i 0 = xValues.getD j 0 := congrArg GF256.byte hij
    rw [List.getD_eq_getElem _ _ hi, List.getD_eq_getElem _ _ hj] at hbyte
    exact (hnodup.getElem_inj_iff).mp hbyte
  have hdegree : (ofCoeffs (elements coefficients)).degree < xValues.length := by
    refine (degree_ofCoeffs_lt _).trans_le ?_
    rw [elements, List.length_map]
    exact_mod_cast hlen
  rw [lagrangeInterpolate_eq_sum (List.length_map _).symm, evaluatePolynomial_eq,
    eval_eq_sum hinj hdegree]
  refine congrArg _ (congrArg _ (sum_congr rfl fun i hi => ?_))
  have hvalue : (⟨(xValues.map (evaluatePolynomial coefficients)).getD i 0⟩ : GF256) =
      (ofCoeffs (elements coefficients)).eval (node xValues i) := by
    have hi' : i < xValues.length := mem_range.mp hi
    rw [GF256.ext_iff, List.getD_eq_getElem _ _ (by rwa [List.length_map]), List.getElem_map,
      evaluatePolynomial_eq, node, List.getD_eq_getElem _ _ hi']
  rw [hvalue]

/-! ## What splitting makes -/

/-- The coordinate of share `i`. -/
def coordinate (i : ℕ) : UInt8 := UInt8.ofNat i + 1

theorem coordinate_injOn {i j : ℕ} (hi : i < 255) (hj : j < 255)
    (h : coordinate i = coordinate j) : i = j := by
  have hnat := congrArg UInt8.toNat (UInt8.add_left_inj 1 |>.mp h)
  rw [UInt8.toNat_ofNat', UInt8.toNat_ofNat'] at hnat
  omega

theorem coordinate_ne_zero {i : ℕ} (hi : i < 255) : coordinate i ≠ 0 := by
  intro h
  have hnat := congrArg UInt8.toNat h
  rw [coordinate, UInt8.toNat_add, UInt8.toNat_ofNat'] at hnat
  change (i % 2 ^ 8 + 1) % 2 ^ 8 = 0 at hnat
  omega

/-- The values of all bytes of the secret at a coordinate. -/
def values (secret : Bytes) (rand : ℕ → Bytes) (x : UInt8) : Bytes :=
  secret.zipIdx.map fun byte => evaluatePolynomial (byte.1 :: rand byte.2) x

/-- Share `i` of a secret. -/
def dataShare (secret : Bytes) (rand : ℕ → Bytes) (i : ℕ) : Bytes :=
  shareHeader i ++ values secret rand (coordinate i)

theorem pushShares_map (coefficients : Bytes) (share : ℕ → Bytes) (n : ℕ) :
    pushShares coefficients ((List.range n).map share) =
      (List.range n).map fun i => share i ++ [evaluatePolynomial coefficients (coordinate i)] := by
  refine List.ext_getElem (by simp [pushShares]) fun i _ _ => ?_
  simp [pushShares, coordinate]

/-- The loop over the secret gives every share its values. -/
theorem foldl_pushShares (bytes : List (UInt8 × ℕ)) (rand : ℕ → Bytes) (share : ℕ → Bytes)
    (n : ℕ) :
    bytes.foldl (fun shares byte => pushShares (byte.1 :: rand byte.2) shares)
        ((List.range n).map share) =
      (List.range n).map fun i => share i ++
        bytes.map fun byte => evaluatePolynomial (byte.1 :: rand byte.2) (coordinate i) := by
  induction bytes generalizing share with
  | nil => simp
  | cons byte bytes ih =>
    rw [List.foldl_cons, pushShares_map, ih]
    simp only [List.map_cons, List.append_assoc, List.singleton_append]

theorem split_eq_ok {shares : List Bytes} :
    split c secret threshold shareCount authKey rand = .ok shares ↔
      2 ≤ threshold ∧ threshold ≤ shareCount ∧ (secret ≠ [] ∧ secret.length ≤ maxShareSize) ∧
        authKey.length = hmacBytes ∧
        (List.range shareCount.toNat).map (dataShare secret rand) ++ [c.hmacSha256 authKey secret] =
          shares := by
  simp only [split, except_seq_eq_ok, require_eq_ok, foldl_pushShares, Except.ok.injEq]
  rfl

/-! ### Reading a share -/

section

variable (secret : Bytes) (rand : ℕ → Bytes)

theorem length_values (x : UInt8) :
    (values secret rand x).length = secret.length := by
  rw [values, List.length_map, List.length_zipIdx]

theorem length_dataShare (i : ℕ) :
    (dataShare secret rand i).length = shareHeaderSize + secret.length := by
  rw [dataShare, List.length_append, length_values]
  rfl

theorem take_dataShare (i : ℕ) :
    (dataShare secret rand i).take 4 = magicBytes := rfl

theorem getD_dataShare_value (i : ℕ) {k : ℕ}
    (hk : k < secret.length) :
    (dataShare secret rand i).getD (shareHeaderSize + k) 0 =
      evaluatePolynomial (secret[k] :: rand k) (coordinate i) := by
  have hheader : (shareHeader i).length = shareHeaderSize := rfl
  rw [dataShare, List.getD_append_right _ _ _ _ (by rw [hheader]; exact Nat.le_add_right _ _),
    hheader, Nat.add_sub_cancel_left,
    List.getD_eq_getElem _ _ (by rwa [length_values])]
  simp [values]

end

theorem hasDuplicate_eq_false {seen xs : List UInt8} (hnodup : xs.Nodup)
    (hdisjoint : ∀ x ∈ xs, x ∉ seen) : hasDuplicate seen xs = false := by
  induction xs generalizing seen with
  | nil => rfl
  | cons x xs ih =>
    rw [List.nodup_cons] at hnodup
    rw [hasDuplicate, if_neg (hdisjoint x (List.mem_cons_self ..))]
    refine ih hnodup.2 fun y hy hmem => ?_
    obtain rfl | hseen := List.mem_cons.mp hmem
    · exact hnodup.1 hy
    · exact hdisjoint y (List.mem_cons_of_mem _ hy) hseen

/-- A selection from numbered shares is the list of its numbers. -/
theorem exists_indices {share : ℕ → Bytes} {n : ℕ} {chosen : List Bytes}
    (h : chosen ⊆ (List.range n).map share) :
    ∃ indices : List ℕ, chosen = indices.map share ∧ ∀ i ∈ indices, i < n := by
  induction chosen with
  | nil => exact ⟨[], rfl, by simp⟩
  | cons first chosen ih =>
    rw [List.cons_subset] at h
    obtain ⟨i, hi, rfl⟩ := List.mem_map.mp h.1
    obtain ⟨indices, rfl, hindices⟩ := ih h.2
    exact ⟨i :: indices, rfl, List.forall_mem_cons.mpr ⟨List.mem_range.mp hi, hindices⟩⟩

/-! ## The secret comes back -/

/-- Byte `k` is the value at zero of the polynomial that the shares carry for it. -/
theorem interpolateBytes_dataShares (hnodup : (indices.map coordinate).Nodup)
    (hrand : ∀ k < secret.length, (rand k).length + 1 ≤ indices.length) :
    interpolateBytes (indices.map coordinate) (indices.map (dataShare secret rand)) secret.length =
      .ok secret := by
  have hbytes : List.Forall₂ (fun k byte => lagrangeInterpolate (indices.map coordinate)
      ((indices.map (dataShare secret rand)).map fun share =>
        share.getD (shareHeaderSize + k) 0) 0 = .ok byte)
      (List.range secret.length) secret := by
    rw [List.forall₂_iff_get]
    refine ⟨List.length_range, fun k hk hk' => ?_⟩
    have hvalues : (indices.map (dataShare secret rand)).map (fun share =>
        share.getD (shareHeaderSize + k) 0) =
          (indices.map coordinate).map (evaluatePolynomial (secret[k] :: rand k)) := by
      rw [List.map_map, List.map_map]
      exact List.map_congr_left fun i _ => getD_dataShare_value secret rand i hk'
    rw [List.get_eq_getElem, List.getElem_range, hvalues, lagrangeInterpolate_map hnodup,
      evaluatePolynomial_zero]
    · rfl
    · rw [List.length_cons, List.length_map]
      exact hrand k hk'
  rw [interpolateBytes, (mapEach_eq_ok (r := ⟨secret, List.length_range.symm⟩)).mpr hbytes]
  rfl

/-- At least as many shares as coefficients, at distinct coordinates, give the secret. -/
theorem reconstruct_dataShares {threshold : ℕ} (hthreshold : 0 < threshold) (hpos : secret ≠ [])
    (hmax : secret.length ≤ maxShareSize) (hkey : authKey.length = hmacBytes)
    (hrand : ∀ k < secret.length, (rand k).length + 1 = threshold)
    (hnodup : (indices.map coordinate).Nodup) (hlen : threshold ≤ indices.length) :
    reconstruct c (indices.map (dataShare secret rand) ++ [c.hmacSha256 authKey secret]) authKey
      threshold = .ok secret := by
  have hsecret : 0 < secret.length := List.length_pos_iff.mpr hpos
  have hdata : (indices.map (dataShare secret rand) ++ [c.hmacSha256 authKey secret]).dropLast =
      indices.map (dataShare secret rand) := List.dropLast_concat ..
  have hfirst : ((indices.map (dataShare secret rand)).headD []).length =
      shareHeaderSize + secret.length := by
    cases indices with
    | nil => exact absurd (hthreshold.trans_le hlen) (lt_irrefl 0)
    | cons i indices => exact length_dataShare secret rand i
  have hx : (indices.map (dataShare secret rand)).map (fun share =>
      share.getD magicBytes.length 0) = indices.map coordinate := by
    rw [List.map_map]
    rfl
  have hbytes : interpolateBytes (indices.map coordinate) (indices.map (dataShare secret rand))
      secret.length = .ok secret :=
    interpolateBytes_dataShares hnodup fun k hk => (hrand k hk).trans_le hlen
  have hformat : ∀ share ∈ indices.map (dataShare secret rand),
      share.length = shareHeaderSize + secret.length ∧ share.take 4 = magicBytes := by
    intro share hshare
    obtain ⟨i, -, rfl⟩ := List.mem_map.mp hshare
    exact ⟨length_dataShare secret rand i, take_dataShare secret rand i⟩
  have htwo : 2 ≤ (indices.map (dataShare secret rand) ++ [c.hmacSha256 authKey secret]).length := by
    rw [List.length_append, List.length_map, List.length_singleton]
    omega
  have hmin : minShareSize ≤ shareHeaderSize + secret.length := by
    rw [minShareSize]
    omega
  have hsize : secret.length ≠ 0 ∧ secret.length ≤ maxShareSize := ⟨hsecret.ne', hmax⟩
  simp only [reconstruct, except_bind_eq_ok, require_eq_ok, orError_eq_ok, hdata, hfirst, hx,
    Nat.add_sub_cancel_left]
  refine ⟨(), htwo, (), hkey, c.hmacSha256 authKey secret, List.getLast?_concat, (), ?_, (), hmin,
    (), hformat, (), hsize, (), hasDuplicate_eq_false hnodup (by simp), secret, hbytes, (), rfl,
    rfl⟩
  rwa [List.length_map]

/-- Any selection of enough distinct data shares, with the tag behind it, gives the secret. -/
theorem reconstruct_of_split {tag : Bytes} {data chosen : List Bytes}
    (hsplit : split c secret threshold shareCount authKey rand = .ok (data ++ [tag]))
    (hrand : ∀ k < secret.length, (rand k).length = threshold.toNat - 1) (hsub : chosen ⊆ data)
    (hnodup : chosen.Nodup) (hlen : threshold.toNat ≤ chosen.length) :
    reconstruct c (chosen ++ [tag]) authKey threshold.toNat = .ok secret := by
  obtain ⟨hthreshold, -, ⟨hpos, hmax⟩, hkey, hshares⟩ := split_eq_ok.mp hsplit
  obtain ⟨rfl, htag⟩ := List.append_inj' hshares rfl
  cases htag
  have htwo : 2 ≤ threshold.toNat := hthreshold
  obtain ⟨indices, rfl, hindices⟩ := exists_indices hsub
  rw [List.length_map] at hlen
  refine reconstruct_dataShares (by omega) hpos hmax hkey (fun k hk => ?_) ?_ hlen
  · rw [hrand k hk]
    omega
  · refine (hnodup.of_map _).map_on fun i hi j hj hij => ?_
    have hbound : shareCount.toNat < 256 := shareCount.toNat_lt
    have := hindices i hi
    have := hindices j hj
    exact coordinate_injOn (by omega) (by omega) hij

/-- For every secret of admissible size, every threshold and number of shares, and whatever
coefficients are drawn: any selection of at least `threshold` distinct data shares, in any order,
with the tag behind them, gives back the secret.  The arithmetic of the tables is that of a
field. -/
theorem reconstruct_split (c : Crypto) {secret : Bytes} {threshold shareCount : UInt8}
    {authKey : Bytes} {rand : ℕ → Bytes} (hpos : 1 ≤ secret.length)
    (hmax : secret.length ≤ 65536) (hthreshold : 2 ≤ threshold) (hcount : threshold ≤ shareCount)
    (hkey : authKey.length = hmacBytes)
    (hrand : ∀ k < secret.length, (rand k).length = threshold.toNat - 1) :
    (∃ data tag, split c secret threshold shareCount authKey rand = .ok (data ++ [tag]) ∧
      data.length = shareCount.toNat ∧
      ∀ chosen : List Bytes, chosen ⊆ data → chosen.Nodup → threshold.toNat ≤ chosen.length →
        reconstruct c (chosen ++ [tag]) authKey threshold.toNat = .ok secret) ∧
    ∃ _ : Field GF256, ∀ a b : GF256, (a + b).byte = a.byte ^^^ b.byte ∧
      (a * b).byte = gfMul a.byte b.byte ∧ a⁻¹.byte = gfInv a.byte := by
  have hsplit : split c secret threshold shareCount authKey rand = .ok (_ ++ [_]) :=
    split_eq_ok.mpr ⟨hthreshold, hcount, ⟨List.length_pos_iff.mp hpos, hmax⟩, hkey, rfl⟩
  exact ⟨⟨_, _, hsplit, by simp, fun _ ↦ reconstruct_of_split hsplit hrand⟩, inferInstance,
    fun a b ↦ ⟨GF256.byte_add a b, GF256.byte_mul a b, GF256.byte_inv a⟩⟩

/-- Two bytes, shared among three with threshold two. -/
theorem reconstruct_split_sample :
    let secret : Bytes := [0x53, 0xCA]
    let authKey : Bytes := List.replicate 32 1
    (∃ data tag, split Crypto.transparent secret 2 3 authKey (fun _ ↦ [0x8E]) =
        .ok (data ++ [tag]) ∧ data.length = 3 ∧
      ∀ chosen : List Bytes, chosen ⊆ data → chosen.Nodup → 2 ≤ chosen.length →
        reconstruct Crypto.transparent (chosen ++ [tag]) authKey 2 = .ok secret) ∧
    ∃ _ : Field GF256, ∀ a b : GF256, (a + b).byte = a.byte ^^^ b.byte ∧
      (a * b).byte = gfMul a.byte b.byte ∧ a⁻¹.byte = gfInv a.byte :=
  reconstruct_split Crypto.transparent (by decide) (by decide)
    (by decide) (by decide) (by decide) fun _ _ ↦ rfl

/-! ## Serialised shares -/

/-- The serialised form is cut into pieces of the length of a share, and the tag has 32 bytes: the
pieces are the shares and the tag only if a share has 32 bytes too. -/
theorem reconstructSerialized_iff (c : Crypto) {secret : Bytes} {threshold shareCount : UInt8}
    {authKey tag : Bytes} {rand : ℕ → Bytes} {data chosen : List Bytes} {shareLength : ℕ}
    (hsplit : split c secret threshold shareCount authKey rand = .ok (data ++ [tag]))
    (hrand : ∀ k < secret.length, (rand k).length = threshold.toNat - 1)
    (hshares : ∀ share ∈ data, share.length = shareLength) (hsub : chosen ⊆ data)
    (hnodup : chosen.Nodup) (hlen : threshold.toNat ≤ chosen.length) :
    reconstruct c (chosen ++ [tag]) authKey threshold.toNat = .ok secret ∧
    (reconstructSerialized c (chosen ++ [tag]).flatten shareLength (chosen.length + 1) authKey
      threshold.toNat = .ok secret ↔ secret.length = 27) := by
  have hreconstruct := reconstruct_of_split hsplit hrand hsub hnodup hlen
  obtain ⟨hthreshold, -, -, -, hparts⟩ := split_eq_ok.mp hsplit
  obtain ⟨hdata, htag⟩ := List.append_inj' hparts rfl
  have htagLen : tag.length = 32 := by
    rw [← List.cons.inj htag |>.1]
    exact c.length_hmacSha256 _ _
  have hlength : shareLength = 5 + secret.length := by
    have htwo : 2 ≤ threshold.toNat := hthreshold
    obtain ⟨share, hshare⟩ := List.exists_mem_of_length_pos (l := chosen) (by omega)
    have hmem := hsub hshare
    rw [← hshares share hmem]
    rw [← hdata] at hmem
    obtain ⟨i, -, rfl⟩ := List.mem_map.mp hmem
    exact length_dataShare secret rand i
  have htotal : (chosen ++ [tag]).flatten.length = chosen.length * shareLength + 32 := by
    have hsizes : ∀ n ∈ chosen.map List.length, n = shareLength := by
      intro n hn
      obtain ⟨share, hshare, rfl⟩ := List.mem_map.mp hn
      exact hshares share (hsub hshare)
    rw [List.flatten_concat, List.length_append, htagLen, List.length_flatten,
      List.sum_eq_card_nsmul _ _ hsizes, List.length_map, smul_eq_mul]
  refine ⟨hreconstruct, fun h ↦ ?_, fun h ↦ ?_⟩
  · have hsum := require_eq_ok.mp (except_seq_eq_ok.mp h).1
    rw [htotal, Nat.mul_comm shareLength, Nat.succ_mul] at hsum
    omega
  · have hall : ∀ share ∈ chosen ++ [tag], share.length = shareLength := by
      intro share hshare
      rcases List.mem_append.mp hshare with hshare | hshare
      · exact hshares share (hsub hshare)
      · rw [List.mem_singleton.mp hshare, htagLen, hlength, h]
    have hpieces := Pieces.map_piece_flatten hall
    rw [List.length_append, List.length_singleton] at hpieces
    refine except_seq_eq_ok.mpr ⟨require_eq_ok.mpr ?_, by rwa [hpieces]⟩
    rw [htotal, Nat.mul_comm shareLength, Nat.succ_mul, hlength, h]

/-- Two shares of 32 bytes and the tag. -/
theorem reconstructSerialized_iff_sample :
    ∃ data tag, split .transparent (List.replicate 27 7) 2 2 (List.replicate 32 1) (fun _ ↦ [9]) =
        .ok (data ++ [tag]) ∧
      reconstructSerialized .transparent (data ++ [tag]).flatten 32 3 (List.replicate 32 1) 2 =
        .ok (List.replicate 27 7) := by
  have hsplit : split .transparent (List.replicate 27 7) 2 2 (List.replicate 32 1) (fun _ ↦ [9]) =
      .ok (_ ++ [_]) := split_eq_ok.mpr ⟨by decide, by decide, by decide, by decide, rfl⟩
  exact ⟨_, _, hsplit, (reconstructSerialized_iff .transparent hsplit (fun _ _ ↦ rfl) (by decide)
    (List.Subset.refl _) (by decide) (by decide)).2.mpr rfl⟩

/-- Two shares of seven bytes and the tag are no multiple of seven bytes. -/
theorem reconstructSerialized_rejects :
    ∃ data tag, split .transparent [0x53, 0xCA] 2 2 (List.replicate 32 1) (fun _ ↦ [9]) =
        .ok (data ++ [tag]) ∧
      reconstruct .transparent (data ++ [tag]) (List.replicate 32 1) 2 = .ok [0x53, 0xCA] ∧
      reconstructSerialized .transparent (data ++ [tag]).flatten 7 3 (List.replicate 32 1) 2 =
        .error (.invalidInput "Invalid serialized shares length") := by
  have hsplit : split .transparent [0x53, 0xCA] 2 2 (List.replicate 32 1) (fun _ ↦ [9]) =
      .ok (_ ++ [_]) := split_eq_ok.mpr ⟨by decide, by decide, by decide, by decide, rfl⟩
  have hsecret := reconstruct_of_split hsplit (fun _ _ ↦ rfl) (List.Subset.refl _) (by decide)
    (by decide)
  exact ⟨_, _, hsplit, hsecret, except_bind_eq_error.mpr (.inl (require_eq_error.mpr
    ⟨by decide, rfl⟩))⟩

end AuraProtocol.Shamir
