import Mathlib.Data.List.Flatten
import Mathlib.Data.List.Forall2
import Mathlib.Tactic.Ring

/-!
# Cutting a list into pieces of a fixed size

`piece n l i` is the `i`-th of the pieces of `n` elements a list is cut into; the
last one may be shorter.  Complete pieces do not change when the list grows, and
the pieces in order make up the list again.
-/

namespace Pieces

open List

variable {α : Type} {n : ℕ} {l : List α}

/-- The elements of `l` from position `i * n` on, at most `n` of them. -/
def piece (n : ℕ) (l : List α) (i : ℕ) : List α := (l.drop (i * n)).take n

/-- A complete piece stays what it is when the list grows. -/
theorem piece_append {i : ℕ} (h : (i + 1) * n ≤ l.length) (rest : List α) :
    piece n (l ++ rest) i = piece n l i := by
  have hsplit : i * n + n ≤ l.length := by rwa [Nat.add_mul, Nat.one_mul] at h
  rw [piece, piece, drop_append_of_le_length (Nat.le_of_add_right_le hsplit),
    take_append_of_le_length]
  rw [length_drop]
  exact Nat.le_sub_of_add_le' hsplit

/-- What is left from position `i * n` on is the last piece, if it is not longer than one. -/
theorem piece_eq_drop {i : ℕ} (h : l.length ≤ (i + 1) * n) : piece n l i = l.drop (i * n) := by
  rw [piece, take_of_length_le]
  rw [length_drop, Nat.sub_le_iff_le_add, Nat.add_comm n, ← Nat.succ_mul]
  exact h

/-- The first `k` pieces make up the first `k * n` elements. -/
theorem flatten_map_piece (n : ℕ) (l : List α) (k : ℕ) :
    ((List.range k).map (piece n l)).flatten = l.take (k * n) := by
  induction k with
  | zero => simp
  | succ k ih =>
    rw [range_succ, map_append, flatten_append, ih, map_singleton,
      flatten_singleton, Nat.add_mul, Nat.one_mul, take_add, piece]

theorem flatten_map_piece_of_le {k : ℕ} (h : l.length ≤ k * n) :
    ((List.range k).map (piece n l)).flatten = l := by
  rw [flatten_map_piece, take_of_length_le h]

/-- Lists of one size, put one after the other, are the pieces of that size. -/
theorem map_piece_flatten {ls : List (List α)} (h : ∀ l ∈ ls, l.length = n) :
    (List.range ls.length).map (piece n ls.flatten) = ls := by
  induction ls with
  | nil => rfl
  | cons l ls ih =>
    obtain ⟨hl, hls⟩ := forall_mem_cons.mp h
    have hrest : (List.range ls.length).map (piece n (l ++ ls.flatten) ∘ Nat.succ) = ls := by
      refine Eq.trans (map_congr_left fun i _ => ?_) (ih hls)
      rw [Function.comp_apply, piece, Nat.succ_mul, Nat.add_comm, ← hl, ← drop_drop,
        drop_left, hl, piece]
    rw [length_cons, range_succ_eq_map, map_cons, map_map, flatten_cons,
      hrest, piece, Nat.zero_mul, drop_zero, ← hl, take_left]

end Pieces
