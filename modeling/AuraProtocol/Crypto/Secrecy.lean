import AuraProtocol.Crypto.Shamir
import Mathlib.Data.FinEnum

/-!
# What fewer shares than the threshold say

`split` draws the coefficients of a polynomial for every byte of the secret.  To
the holders of fewer data shares than the threshold all secrets of one length look
alike: whatever they see, as many draws of the coefficients give it for one secret
as for the other.

The draws for the two secrets are matched by adding, for each byte, a polynomial
that has the difference of the two bytes as constant term and vanishes at the
coordinates of the shares.
-/

namespace AuraProtocol.Shamir

open Fallible Interpolation List

variable {indices : List ℕ}

/-! ## The checks of `split` -/

/-- The checks at the start of `split`. -/
def checkSplit (secret : Bytes) (threshold shareCount : UInt8) (authKey : Bytes) :
    Except ProtocolError Unit := do
  require (2 ≤ threshold) (.invalidInput "Threshold must be at least 2")
  require (threshold ≤ shareCount) (.invalidInput "share_count must be >= threshold")
  require (secret ≠ [] ∧ secret.length ≤ maxShareSize) (.invalidInput "Invalid secret length")
  require (authKey.length = hmacBytes) (.invalidInput "Auth key must be 32 bytes")

/-- `split` fails in its checks or makes the shares. -/
theorem split_eq_bind (c : Crypto) (secret : Bytes) (threshold shareCount : UInt8)
    (authKey : Bytes) (rand : ℕ → Bytes) :
    split c secret threshold shareCount authKey rand =
      (do checkSplit secret threshold shareCount authKey
          .ok ((List.range shareCount.toNat).map (dataShare secret rand) ++
            [c.hmacSha256 authKey secret])) := by
  simp only [split, checkSplit, bind_assoc, foldl_pushShares]
  rfl

/-- The checks of the secret read its length only. -/
theorem checkSplit_congr {secret secret' : Bytes} (h : secret.length = secret'.length)
    (threshold shareCount : UInt8) (authKey : Bytes) :
    checkSplit secret threshold shareCount authKey =
      checkSplit secret' threshold shareCount authKey := by
  simp only [checkSplit, ne_eq, ← length_eq_zero_iff, h]

/-! ## Adding polynomials -/

theorem evaluatePolynomial_xor {as bs : Bytes} (h : as.length = bs.length) (x : UInt8) :
    evaluatePolynomial (List.zipWith (· ^^^ ·) as bs) x =
      evaluatePolynomial as x ^^^ evaluatePolynomial bs x := by
  have helements : elements (List.zipWith (· ^^^ ·) as bs) =
      List.zipWith (· + ·) (elements as) (elements bs) := by
    rw [elements, elements, elements, map_zipWith, zipWith_map]
    rfl
  rw [evaluatePolynomial_eq, evaluatePolynomial_eq, evaluatePolynomial_eq, helements,
    ofCoeffs_zipWith_add (by simpa [elements] using h), Polynomial.eval_add, GF256.byte_add]

/-- For any constant term there are coefficients that make the polynomial vanish at the
coordinates of as many shares. -/
theorem exists_vanishing_bytes (hindices : ∀ i ∈ indices, i < 255) {n : ℕ} (hn : indices.length ≤ n)
    (a : UInt8) :
    ∃ as : Bytes, as.length = n ∧
      ∀ i ∈ indices, evaluatePolynomial (a :: as) (coordinate i) = 0 := by
  let nodes : Finset GF256 := (indices.map fun i => GF256.mk (coordinate i)).toFinset
  have hzero : (0 : GF256) ∉ nodes := by
    intro hmem
    obtain ⟨i, hi, heq⟩ := mem_map.mp (mem_toFinset.mp hmem)
    exact coordinate_ne_zero (hindices i hi) (congrArg GF256.byte heq)
  have hcard : nodes.card ≤ n :=
    (toFinset_card_le _).trans (by rwa [length_map])
  obtain ⟨as, hlen, hvanish⟩ := exists_vanishing nodes hzero hcard ⟨a⟩
  refine ⟨as.map GF256.byte, by rwa [length_map], fun i hi => ?_⟩
  have helements : elements (a :: as.map GF256.byte) = ⟨a⟩ :: as := by
    rw [elements, map_cons, map_map]
    exact congrArg _ (map_id as)
  rw [evaluatePolynomial_eq, helements,
    hvanish _ (mem_toFinset.mpr (mem_map_of_mem hi)), GF256.byte_zero]

/-! ## The draws -/

/-- What `split` draws for a secret of `len` bytes: `n` coefficients for each byte. -/
abbrev Draw (len n : ℕ) := Fin len → Fin n → UInt8

/-- The draw as the random bytes of `split`. -/
def Draw.rand {len n : ℕ} (r : Draw len n) (k : ℕ) : Bytes :=
  if h : k < len then List.ofFn (r ⟨k, h⟩) else []

/-- What the holders of the shares in `indices` see. -/
def observe (c : Crypto) (secret : Bytes) (threshold shareCount : UInt8) (authKey : Bytes)
    (indices : List ℕ) (rand : ℕ → Bytes) : Except ProtocolError (List Bytes) := do
  let shares ← split c secret threshold shareCount authKey rand
  .ok (indices.map fun i => shares.getD i [])

/-- The holders see data shares, and the tag is not among them. -/
theorem observe_eq {c : Crypto} {secret : Bytes} {threshold shareCount : UInt8} {authKey : Bytes}
    (h : ∀ i ∈ indices, i < shareCount.toNat) (rand : ℕ → Bytes) :
    observe c secret threshold shareCount authKey indices rand =
      (do checkSplit secret threshold shareCount authKey
          .ok (indices.map (dataShare secret rand))) := by
  rw [observe, split_eq_bind, bind_assoc]
  refine congrArg _ (funext fun _ => congrArg Except.ok (map_congr_left fun i hi => ?_))
  have hlt : i < ((List.range shareCount.toNat).map (dataShare secret rand)).length := by
    simpa using h i hi
  rw [getD_append _ _ _ _ hlt, getD_eq_getElem _ _ hlt, getElem_map,
    getElem_range]

section Shift

variable {len n : ℕ}

/-- The draw with another draw added to it. -/
def Draw.shift (δ : Draw len n) : Equiv.Perm (Draw len n) :=
  Function.Involutive.toPerm (fun r k j => r k j ^^^ δ k j) fun r => by
    funext k j
    change r k j ^^^ δ k j ^^^ δ k j = r k j
    rw [UInt8.xor_assoc, UInt8.xor_self, UInt8.xor_zero]

theorem Draw.shift_apply (δ r : Draw len n) (k : Fin len) :
    List.ofFn (δ.shift r k) = List.zipWith (· ^^^ ·) (List.ofFn (r k)) (List.ofFn (δ k)) := by
  refine ext_getElem (by simp) fun j _ _ => ?_
  simp only [List.getElem_ofFn, List.getElem_zipWith]
  rfl

/-- The draw that turns shares of one secret into shares of the other. -/
theorem exists_shift (hindices : ∀ i ∈ indices, i < 255) (hn : indices.length ≤ n)
    {secret secret' : Bytes} (hlen : secret.length = len) (hlen' : secret'.length = len) :
    ∃ δ : Draw len n, ∀ r, ∀ i ∈ indices,
      dataShare secret' (δ.shift r).rand i = dataShare secret r.rand i := by
  choose δ hδlen hδ using fun k : Fin len =>
    exists_vanishing_bytes hindices hn (secret.getD k 0 ^^^ secret'.getD k 0)
  refine ⟨fun k j => (δ k).get (j.cast (hδlen k).symm), fun r i hi => ?_⟩
  refine congrArg (shareHeader i ++ ·) (ext_getElem ?_ fun k hk hk' => ?_)
  · rw [length_values, length_values, hlen, hlen']
  rw [length_values] at hk hk'
  have hkn : k < len := hlen ▸ hk'
  have hδk : List.ofFn (fun j => (δ ⟨k, hkn⟩).get (Fin.cast (hδlen ⟨k, hkn⟩).symm j)) =
      δ ⟨k, hkn⟩ := by
    refine ext_getElem (by simp [hδlen]) fun j _ _ => ?_
    simp
  -- the new coefficients are the old ones plus a polynomial that vanishes at the coordinate
  have hcoeffs : secret'[k] :: List.zipWith (· ^^^ ·) (List.ofFn (r ⟨k, hkn⟩)) (δ ⟨k, hkn⟩) =
      List.zipWith (· ^^^ ·) (secret[k] :: List.ofFn (r ⟨k, hkn⟩))
        ((secret[k] ^^^ secret'[k]) :: δ ⟨k, hkn⟩) := by
    rw [zipWith_cons_cons, ← UInt8.xor_assoc, UInt8.xor_self, UInt8.zero_xor]
  have hvanish := hδ ⟨k, hkn⟩ i hi
  rw [getD_eq_getElem _ _ hk', getD_eq_getElem _ _ hk] at hvanish
  simp only [values, getElem_map, getElem_zipIdx, Nat.zero_add, Draw.rand, dif_pos hkn]
  rw [Draw.shift_apply, hδk, hcoeffs, evaluatePolynomial_xor (by simp [hδlen]), hvanish,
    UInt8.xor_zero]

end Shift

/-! ## Secrecy -/

/-- For every threshold, every selection of fewer data shares than the threshold, and any two
secrets of one length: each observation comes from equally many draws of the coefficients. -/
theorem equally_often (c : Crypto) {secret secret' : Bytes} {len : ℕ} (hlen : secret.length = len)
    (hlen' : secret'.length = len) (threshold shareCount : UInt8) (authKey : Bytes)
    {indices : List ℕ} (hindices : ∀ i ∈ indices, i < shareCount.toNat)
    (hcard : indices.length ≤ threshold.toNat - 1) (seen : Except ProtocolError (List Bytes)) :
    (Finset.univ.filter fun r : Draw len (threshold.toNat - 1) ↦
        observe c secret threshold shareCount authKey indices r.rand = seen).card =
      (Finset.univ.filter fun r : Draw len (threshold.toNat - 1) ↦
        observe c secret' threshold shareCount authKey indices r.rand = seen).card := by
  have hbound : ∀ i ∈ indices, i < 255 := fun i hi ↦
    (hindices i hi).trans_le (Nat.le_of_lt_succ shareCount.toNat_lt)
  obtain ⟨δ, hδ⟩ := exists_shift hbound hcard hlen hlen'
  refine Finset.card_equiv δ.shift fun r ↦ ?_
  have hseen : observe c secret' threshold shareCount authKey indices (δ.shift r).rand =
      observe c secret threshold shareCount authKey indices r.rand := by
    rw [observe_eq hindices, observe_eq hindices, checkSplit_congr (hlen'.trans hlen.symm),
      map_congr_left (hδ r)]
  rw [Finset.mem_filter_univ, Finset.mem_filter_univ, hseen]

theorem equally_often_sample :
    (Finset.univ.filter fun r : Draw 1 ((3 : UInt8).toNat - 1) ↦
        observe Crypto.transparent [7] 3 5 (List.replicate 32 0) [4, 0] r.rand =
          .ok [[236, 17, 28, 0, 5, 7], [236, 17, 28, 0, 1, 7]]).card =
      (Finset.univ.filter fun r : Draw 1 ((3 : UInt8).toNat - 1) ↦
        observe Crypto.transparent [9] 3 5 (List.replicate 32 0) [4, 0] r.rand =
          .ok [[236, 17, 28, 0, 5, 7], [236, 17, 28, 0, 1, 7]]).card :=
  @equally_often Crypto.transparent [7] [9] 1 rfl rfl 3 5 (List.replicate 32 0) [4, 0]
    (by decide) (by decide) (.ok [[236, 17, 28, 0, 5, 7], [236, 17, 28, 0, 1, 7]])

end AuraProtocol.Shamir
