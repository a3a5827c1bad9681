import Mathlib.LinearAlgebra.Lagrange

/-!
# Interpolation along a list of nodes

Polynomials given by the list of their coefficients, and Lagrange's formula for the
value of a polynomial at any point from its values at sufficiently many nodes, with
numerators and denominators multiplied up separately.
-/

namespace Interpolation

open Polynomial Finset

variable {F : Type} [Field F]

/-- The polynomial with the given coefficients, constant term first. -/
noncomputable def ofCoeffs : List F → F[X]
  | [] => 0
  | a :: as => C a + X * ofCoeffs as

/-- Horner's rule. -/
theorem eval_ofCoeffs (as : List F) (x : F) :
    (ofCoeffs as).eval x = as.foldr (fun a value => value * x + a) 0 := by
  induction as with
  | nil => exact eval_zero
  | cons a as ih =>
    rw [ofCoeffs, eval_add, eval_C, eval_mul, eval_X, ih, List.foldr_cons, mul_comm x, add_comm]

theorem eval_ofCoeffs_zero (a : F) (as : List F) : (ofCoeffs (a :: as)).eval 0 = a := by
  rw [ofCoeffs, eval_add, eval_C, eval_mul, eval_X, zero_mul, add_zero]

theorem degree_ofCoeffs_lt (as : List F) : (ofCoeffs as).degree < as.length := by
  induction as with
  | nil =>
    rw [ofCoeffs, degree_zero]
    exact WithBot.bot_lt_coe _
  | cons a as ih =>
    have hmul : (X * ofCoeffs as).degree < ((a :: as).length : WithBot ℕ) := by
      rw [degree_mul, degree_X, List.length_cons, Nat.cast_add, Nat.cast_one, add_comm]
      exact WithBot.add_lt_add_right (by decide) ih
    have hconst : (C a).degree < ((a :: as).length : WithBot ℕ) :=
      degree_C_le.trans_lt (by rw [List.length_cons]; exact_mod_cast Nat.succ_pos _)
    rw [ofCoeffs]
    exact (degree_add_le _ _).trans_lt (max_lt hconst hmul)

theorem ofCoeffs_zipWith_add {as bs : List F} (h : as.length = bs.length) :
    ofCoeffs (List.zipWith (· + ·) as bs) = ofCoeffs as + ofCoeffs bs := by
  induction as generalizing bs with
  | nil =>
    rw [List.length_nil] at h
    rw [List.length_eq_zero_iff.mp h.symm, List.zipWith_nil_right, ofCoeffs, add_zero]
  | cons a as ih =>
    cases bs with
    | nil => exact absurd h (Nat.succ_ne_zero _)
    | cons b bs =>
      rw [List.zipWith_cons_cons, ofCoeffs, ih (Nat.succ.inj h), ofCoeffs, ofCoeffs, C_add]
      ring

/-- Every polynomial is given by the list of its coefficients. -/
theorem ofCoeffs_map_coeff {n : ℕ} {P : F[X]} (h : P.natDegree ≤ n) :
    ofCoeffs ((List.range (n + 1)).map P.coeff) = P := by
  induction n generalizing P with
  | zero =>
    rw [List.range_one, List.map_singleton, ofCoeffs, ofCoeffs, mul_zero, add_zero]
    exact (eq_C_of_natDegree_le_zero h).symm
  | succ n ih =>
    have hdiv : P.divX.natDegree ≤ n := by
      rw [natDegree_divX_eq_natDegree_tsub_one]
      exact Nat.sub_le_of_le_add h
    have hshift : (List.range (n + 1)).map (P.coeff ∘ Nat.succ) =
        (List.range (n + 1)).map P.divX.coeff :=
      List.map_congr_left fun i _ => (coeff_divX).symm
    rw [List.range_succ_eq_map, List.map_cons, List.map_map, ofCoeffs, hshift, ih hdiv, add_comm,
      mul_comm, divX_mul_X_add]

/-- A polynomial with any constant term that vanishes at given points other than zero, with no
more further coefficients than there are points. -/
theorem exists_vanishing [DecidableEq F] (nodes : Finset F) (hzero : 0 ∉ nodes) {n : ℕ}
    (hn : nodes.card ≤ n) (a : F) :
    ∃ as : List F, as.length = n ∧ ∀ x ∈ nodes, (ofCoeffs (a :: as)).eval x = 0 := by
  set P : F[X] := C a * ∏ x ∈ nodes, (1 - C x⁻¹ * X) with hP
  have hdegree : P.natDegree ≤ n := by
    refine (natDegree_C_mul_le _ _).trans ((natDegree_prod_le _ _).trans (le_trans ?_ hn))
    rw [card_eq_sum_ones]
    refine sum_le_sum fun x _ => ?_
    refine (natDegree_sub_le _ _).trans (max_le ?_ ?_)
    · rw [natDegree_one]
      exact Nat.zero_le _
    · exact (natDegree_C_mul_le _ _).trans natDegree_X_le
  have hconst : P.coeff 0 = a := by
    rw [coeff_zero_eq_eval_zero, hP, eval_mul, eval_C, eval_prod]
    simp
  have hlist : ofCoeffs (a :: (List.range n).map (P.coeff ∘ Nat.succ)) = P := by
    have hcoeffs := ofCoeffs_map_coeff hdegree
    rwa [List.range_succ_eq_map, List.map_cons, List.map_map, hconst] at hcoeffs
  refine ⟨(List.range n).map (P.coeff ∘ Nat.succ), by rw [List.length_map, List.length_range],
    fun x hx => ?_⟩
  have hfactor : (1 - C x⁻¹ * X : F[X]).eval x = 0 := by
    rw [eval_sub, eval_one, eval_mul, eval_C, eval_X,
      inv_mul_cancel₀ (ne_of_mem_of_not_mem hx hzero), sub_self]
  rw [hlist, hP, eval_mul, eval_prod, prod_eq_zero hx hfactor, mul_zero]

/-- Lagrange's formula, with the factors of the own node replaced by one. -/
theorem eval_eq_sum {n : ℕ} {node : ℕ → F} (hnode : Set.InjOn node (range n)) {P : F[X]}
    (hdegree : P.degree < n) (x : F) :
    P.eval x = ∑ i ∈ range n,
      (P.eval (node i) * ∏ j ∈ range n, if j = i then 1 else x - node j) *
        (∏ j ∈ range n, if j = i then 1 else node i - node j)⁻¹ := by
  have herase : ∀ (i : ℕ) (f : ℕ → F),
      ∏ j ∈ range n, (if j = i then 1 else f j) = ∏ j ∈ (range n).erase i, f j := by
    intro i f
    calc ∏ j ∈ range n, (if j = i then 1 else f j)
        = ∏ j ∈ (range n).erase i, (if j = i then 1 else f j) :=
          (prod_erase (f := fun j => if j = i then 1 else f j) _ (if_pos rfl)).symm
      _ = ∏ j ∈ (range n).erase i, f j := prod_congr rfl fun j hj => if_neg (ne_of_mem_erase hj)
  have hP : P = Lagrange.interpolate (range n) node (fun i => P.eval (node i)) :=
    Lagrange.eq_interpolate_of_eval_eq _ hnode (by rwa [card_range]) fun _ _ => rfl
  conv_lhs => rw [hP]
  rw [Lagrange.interpolate_apply, eval_finsetSum]
  refine sum_congr rfl fun i _ => ?_
  rw [herase, herase, eval_mul, eval_C, Lagrange.basis, eval_prod, mul_assoc, ← prod_inv_distrib,
    ← prod_mul_distrib]
  refine congrArg _ (prod_congr rfl fun j _ => ?_)
  rw [Lagrange.basisDivisor, eval_mul, eval_C, eval_sub, eval_X, eval_C, mul_comm]

end Interpolation
