import Mathlib.Algebra.Field.MinimalAxioms
import Mathlib.Algebra.Group.Hom.End
import Mathlib.Tactic.Tauto

/-!
# Fields from a table of logarithms

Multiplication by logarithms needs little to be a field.  Let `step` be an additive
map of an abelian group (multiplication by a generator), such that every non-zero
element is reached from `unit` by `log` many steps, and such that the steps come back
to `unit`.  Then

* a product with `a ≠ 0` is `log a` steps from the other factor, so multiplication is
  additive in it because `step` is;
* products commute since logarithms are added, and associate since iterates of one map
  commute;
* the inverse of `a` is what is left of a round after `log a` steps.

No property of the group is checked for triples of elements.
-/

/-- An additive map whose iterates at `unit` run through all non-zero elements, with logarithms. -/
structure LogTable (A : Type) [AddCommGroup A] where
  unit : A
  unit_ne_zero : unit ≠ 0
  step : A →+ A
  period : ℕ
  iterate_period : step^[period] unit = unit
  log : A → ℕ
  log_le : ∀ a, log a ≤ period
  iterate_log : ∀ a, a ≠ 0 → step^[log a] unit = a

namespace LogTable

variable {A : Type} [AddCommGroup A] [DecidableEq A] (T : LogTable A)

/-- The powers of the generator. -/
def exp (n : ℕ) : A := T.step^[n] T.unit

/-- Multiplication by adding logarithms. -/
def mul (a b : A) : A := if a = 0 ∨ b = 0 then 0 else T.exp (T.log a + T.log b)

/-- The inverse by the complement of the logarithm; zero is its own. -/
def inv (a : A) : A := if a = 0 then 0 else T.exp (T.period - T.log a)

variable {T} {a b : A}

theorem zero_mul (b : A) : T.mul 0 b = 0 := if_pos (.inl rfl)

theorem mul_zero (a : A) : T.mul a 0 = 0 := if_pos (.inr rfl)

/-- A product is so many steps from one factor as the logarithm of the other says. -/
theorem mul_eq_iterate (h : a ≠ 0) (b : A) : T.mul a b = T.step^[T.log a] b := by
  by_cases hb : b = 0
  · rw [hb, mul_zero, iterate_map_zero]
  · rw [mul, if_neg (by tauto), exp, Function.iterate_add_apply, T.iterate_log b hb]

protected theorem mul_comm (a b : A) : T.mul a b = T.mul b a := by
  rw [mul, mul, Nat.add_comm]
  exact if_congr or_comm rfl rfl

protected theorem mul_assoc (a b c : A) : T.mul (T.mul a b) c = T.mul a (T.mul b c) := by
  by_cases ha : a = 0
  · rw [ha, zero_mul, zero_mul, zero_mul]
  by_cases hc : c = 0
  · rw [hc, mul_zero, mul_zero, mul_zero]
  calc T.mul (T.mul a b) c
      = T.step^[T.log c] (T.step^[T.log a] b) := by
        rw [LogTable.mul_comm, mul_eq_iterate hc, mul_eq_iterate ha]
    _ = T.step^[T.log a] (T.step^[T.log c] b) := Function.Commute.iterate_iterate_self _ _ _ b
    _ = T.mul a (T.mul b c) := by
        rw [mul_eq_iterate ha, LogTable.mul_comm b, mul_eq_iterate hc]

protected theorem unit_mul (b : A) : T.mul T.unit b = b := by
  by_cases hb : b = 0
  · rw [hb, mul_zero]
  · rw [LogTable.mul_comm, mul_eq_iterate hb, T.iterate_log b hb]

protected theorem mul_add (a b c : A) : T.mul a (b + c) = T.mul a b + T.mul a c := by
  by_cases ha : a = 0
  · rw [ha, zero_mul, zero_mul, zero_mul, add_zero]
  · rw [mul_eq_iterate ha, mul_eq_iterate ha, mul_eq_iterate ha, iterate_map_add]

protected theorem mul_inv_cancel (h : a ≠ 0) : T.mul a (T.inv a) = T.unit := by
  rw [mul_eq_iterate h, inv, if_neg h, exp, ← Function.iterate_add_apply,
    Nat.add_sub_cancel' (T.log_le a), T.iterate_period]

variable (T) in
/-- The field of a table of logarithms; its addition is that of the group. -/
abbrev field : Field A :=
  letI : Mul A := ⟨T.mul⟩
  letI : Inv A := ⟨T.inv⟩
  letI : One A := ⟨T.unit⟩
  Field.ofMinimalAxioms A add_assoc zero_add neg_add_cancel LogTable.mul_assoc LogTable.mul_comm
    LogTable.unit_mul (fun _ => LogTable.mul_inv_cancel) (if_pos rfl) LogTable.mul_add
    ⟨T.unit, 0, T.unit_ne_zero⟩

end LogTable
