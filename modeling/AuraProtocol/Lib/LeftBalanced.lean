import Mathlib.Algebra.Order.Ring.Nat
import AuraProtocol.Lib.LabelTree

/-!
# Left-balanced binary trees stored in order

The tree with `n` leaves in which every left subtree is full, its nodes numbered
in order: leaf `i` is node `2 * i`, inner nodes are odd.  `block n k a` is the part
over the leaves from `a` on, at most `2 ^ k` of them, where `a` is a multiple of
`2 ^ k`; a node whose right half would be empty is left out.

In the infinite numbering the ancestor of leaf `i` at height `k` is `ancestor k i`,
for every `n`.  The ancestors in the tree with `n` leaves are those whose number
fits (`mem_path_iff`), so growing the tree only adds ancestors.
-/

namespace LeftBalanced

open LabelTree List

variable {n k a i : ℕ}

/-- The number of nodes of a tree with `n` leaves. -/
def nodeCount (n : ℕ) : ℕ := 2 * n - 1

/-- The part of the tree with `n` leaves over the leaves `a, …, a + 2 ^ k - 1`. -/
def block (n : ℕ) : ℕ → ℕ → LabelTree ℕ
  | 0, a => .leaf (2 * a)
  | k + 1, a =>
    if a + 2 ^ k < n then .node (2 * (a + 2 ^ k) - 1) (block n k a) (block n k (a + 2 ^ k))
    else block n k a

/-- The tree with `n` leaves. -/
def shape (n : ℕ) : LabelTree ℕ := block n (nodeCount n).log2 0

/-- The number of the ancestor of leaf `i` at height `k`. -/
def ancestor (k i : ℕ) : ℕ := 2 * (i / 2 ^ k * 2 ^ k) + 2 ^ k - 1

theorem block_of_lt (h : a + 2 ^ k < n) :
    block n (k + 1) a =
      .node (2 * (a + 2 ^ k) - 1) (block n k a) (block n k (a + 2 ^ k)) := if_pos h

theorem block_of_le (h : n ≤ a + 2 ^ k) : block n (k + 1) a = block n k a :=
  if_neg (not_lt.mpr h)

theorem two_pow_pos (k : ℕ) : 0 < 2 ^ k := Nat.pow_pos (by decide)

/-- In order the nodes of a block are consecutive numbers. -/
theorem labels_block (ha : a < n) :
    (block n k a).labels = List.range' (2 * a) (2 * (min n (a + 2 ^ k) - a) - 1) := by
  induction k generalizing a with
  | zero =>
    have hcount : 2 * (min n (a + 2 ^ 0) - a) - 1 = 1 := by
      rw [pow_zero]
      omega
    rw [hcount]
    rfl
  | succ k ih =>
    have hpos := two_pow_pos k
    have hpow : 2 ^ (k + 1) = 2 * 2 ^ k := by rw [pow_succ, mul_comm]
    by_cases hlt : a + 2 ^ k < n
    · rw [block_of_lt hlt, labels, ih ha, ih hlt]
      have hleft : 2 * (min n (a + 2 ^ k) - a) - 1 = 2 * 2 ^ k - 1 := by omega
      have hroot : 2 * (a + 2 ^ k) - 1 = 2 * a + (2 * 2 ^ k - 1) := by omega
      have hnext : 2 * (a + 2 ^ k) = 2 * a + (2 * 2 ^ k - 1) + 1 := by omega
      rw [hleft, hroot, hnext, ← List.range'_succ, List.range'_append_1]
      congr 1
      omega
    · rw [block_of_le (not_lt.mp hlt), ih ha]
      congr 1
      omega

theorem nodup_labels_block (ha : a < n) : (block n k a).labels.Nodup := by
  rw [labels_block ha]
  exact nodup_range'

theorem lt_of_mem_block {x : ℕ} (ha : a < n) (hx : x ∈ (block n k a).labels) : x < nodeCount n := by
  rw [labels_block ha, mem_range'_1] at hx
  rw [nodeCount]
  omega

theorem height_block (n k a : ℕ) : (block n k a).height ≤ k := by
  induction k generalizing a with
  | zero => exact le_rfl
  | succ k ih =>
    by_cases hlt : a + 2 ^ k < n
    · rw [block_of_lt hlt, height]
      exact Nat.succ_le_succ (max_le (ih a) (ih _))
    · rw [block_of_le (not_lt.mp hlt)]
      exact (ih a).trans (Nat.le_succ k)

/-- The label of a block whose left half is full. -/
theorem label_block_of_full (h : a + 2 ^ k ≤ n) : (block n k a).label = 2 * a + 2 ^ k - 1 := by
  cases k with
  | zero => rfl
  | succ k =>
    have hpos := two_pow_pos k
    have hpow : 2 ^ (k + 1) = 2 * 2 ^ k := by rw [pow_succ, mul_comm]
    rw [block_of_lt (by omega), label_node]
    omega

/-! ## Ancestors -/

theorem ancestor_eq (hdvd : 2 ^ k ∣ a) (hle : a ≤ i) (hlt : i < a + 2 ^ k) :
    ancestor k i = 2 * a + 2 ^ k - 1 := by
  obtain ⟨j, rfl⟩ := hdvd
  have hdiv : i / 2 ^ k = j := by
    refine Nat.div_eq_of_lt_le ?_ ?_
    · rwa [mul_comm]
    · rwa [Nat.succ_mul, mul_comm]
  rw [ancestor, hdiv, mul_comm j]

theorem two_pow_le_ancestor (k i : ℕ) : 2 ^ k - 1 ≤ ancestor k i := by
  rw [ancestor]
  omega

/-- Every leaf of a block has a path, and the ancestors on it are those whose number fits. -/
theorem exists_path_block (hdvd : 2 ^ k ∣ a) (hle : a ≤ i) (hi : i < n) (hlt : i < a + 2 ^ k) :
    ∃ p, Path (2 * i) (block n k a) p ∧ ∀ x, x ∈ p.map Prod.fst ↔
      x < nodeCount n ∧ ∃ m, 1 ≤ m ∧ m ≤ k ∧ x = ancestor m i := by
  induction k generalizing a with
  | zero =>
    rw [pow_zero] at hlt
    obtain rfl : i = a := by omega
    refine ⟨[], .leaf, fun x => ⟨fun h => (by cases h), ?_⟩⟩
    rintro ⟨-, m, hm, hm', -⟩
    omega
  | succ k ih =>
    have hpow : 2 ^ (k + 1) = 2 * 2 ^ k := by rw [pow_succ, mul_comm]
    have hdvd' : 2 ^ k ∣ a := (Nat.pow_dvd_pow 2 (Nat.le_succ k)).trans hdvd
    have htop : ancestor (k + 1) i = 2 * (a + 2 ^ k) - 1 := by
      rw [ancestor_eq hdvd hle hlt]
      omega
    -- the ancestors up to height `k + 1` are those up to `k` and the one at the top
    have hsplit : ∀ x, (∃ m, 1 ≤ m ∧ m ≤ k + 1 ∧ x = ancestor m i) ↔
        (∃ m, 1 ≤ m ∧ m ≤ k ∧ x = ancestor m i) ∨ x = 2 * (a + 2 ^ k) - 1 := by
      intro x
      constructor
      · rintro ⟨m, hm, hm', rfl⟩
        rcases Nat.lt_or_ge k m with hkm | hkm
        · obtain rfl : m = k + 1 := by omega
          exact .inr htop
        · exact .inl ⟨m, hm, hkm, rfl⟩
      · rintro (⟨m, hm, hm', rfl⟩ | rfl)
        · exact ⟨m, hm, hm'.trans (Nat.le_succ k), rfl⟩
        · exact ⟨k + 1, Nat.succ_pos k, le_rfl, htop.symm⟩
    by_cases hnode : a + 2 ^ k < n
    · have hroot : 2 * (a + 2 ^ k) - 1 < nodeCount n := by
        rw [nodeCount]
        omega
      rw [block_of_lt hnode]
      obtain ⟨p, s, hp, hmem⟩ : ∃ p s, Path (2 * i) (.node (2 * (a + 2 ^ k) - 1) (block n k a)
          (block n k (a + 2 ^ k))) (p ++ [(2 * (a + 2 ^ k) - 1, s)]) ∧
          ∀ x, x ∈ p.map Prod.fst ↔ x < nodeCount n ∧ ∃ m, 1 ≤ m ∧ m ≤ k ∧ x = ancestor m i := by
        by_cases hside : i < a + 2 ^ k
        · obtain ⟨p, hp, hmem⟩ := ih hdvd' hle hside
          exact ⟨p, _, .left hp, hmem⟩
        · obtain ⟨p, hp, hmem⟩ := ih (a := a + 2 ^ k) (Nat.dvd_add hdvd' (Nat.dvd_refl _))
            (by omega) (by omega)
          exact ⟨p, _, .right hp, hmem⟩
      refine ⟨_, hp, fun x => ?_⟩
      rw [map_append, mem_append, hmem, hsplit, map_singleton, mem_singleton]
      constructor
      · rintro (⟨hx, hm⟩ | rfl)
        · exact ⟨hx, .inl hm⟩
        · exact ⟨hroot, .inr rfl⟩
      · rintro ⟨hx, hm | rfl⟩
        · exact .inl ⟨hx, hm⟩
        · exact .inr rfl
    · rw [block_of_le (not_lt.mp hnode)]
      obtain ⟨p, hp, hmem⟩ := ih hdvd' hle (by omega)
      refine ⟨p, hp, fun x => ?_⟩
      rw [hmem, hsplit]
      constructor
      · rintro ⟨hx, hm⟩
        exact ⟨hx, .inl hm⟩
      · rintro ⟨hx, hm | rfl⟩
        · exact ⟨hx, hm⟩
        · rw [nodeCount] at hx
          omega

/-! ## The whole tree -/

theorem two_pow_log2_le (hn : 0 < n) : 2 ^ (nodeCount n).log2 ≤ nodeCount n :=
  Nat.log2_self_le (by rw [nodeCount]; omega)

theorem lt_two_pow_log2 (n : ℕ) : nodeCount n < 2 * 2 ^ (nodeCount n).log2 := by
  rw [mul_comm, ← pow_succ]
  exact Nat.lt_log2_self

theorem label_shape (hn : 0 < n) : (shape n).label = 2 ^ (nodeCount n).log2 - 1 := by
  have hle := two_pow_log2_le hn
  rw [shape]
  cases hk : (nodeCount n).log2 with
  | zero => rfl
  | succ k =>
    rw [hk, pow_succ, nodeCount] at hle
    rw [block_of_lt (by omega), label_node, pow_succ]
    omega

/-- In order the nodes of the tree are the numbers below the node count. -/
theorem labels_shape (hn : 0 < n) : (shape n).labels = List.range (nodeCount n) := by
  have hlt := lt_two_pow_log2 n
  rw [shape, labels_block hn, range_eq_range']
  congr 1
  rw [nodeCount] at hlt ⊢
  omega

/-- The tree determines the number of its leaves. -/
theorem shape_injective {m : ℕ} (hm : 0 < m) (hn : 0 < n) (h : shape m = shape n) : m = n := by
  have hlength := congrArg (fun t => (labels t).length) h
  simp only [labels_shape hm, labels_shape hn, length_range, nodeCount] at hlength
  omega

theorem nodup_labels_shape (hn : 0 < n) : (shape n).labels.Nodup := nodup_labels_block hn

theorem lt_of_mem_shape {x : ℕ} (hn : 0 < n) (hx : x ∈ (shape n).labels) : x < nodeCount n :=
  lt_of_mem_block hn hx

theorem height_shape (hn : n ≤ 2 ^ k) : (shape n).height ≤ k := by
  refine (height_block _ _ _).trans (Nat.lt_succ_iff.mp ?_)
  rcases Nat.eq_zero_or_pos n with rfl | hpos
  · exact Nat.succ_pos k
  · refine (Nat.pow_lt_pow_iff_right (by decide : 1 < 2)).mp ((two_pow_log2_le hpos).trans_lt ?_)
    rw [nodeCount, pow_succ]
    omega

/-- Every leaf has a path, and its ancestors are those of the infinite numbering that fit. -/
theorem exists_path (hi : i < n) :
    ∃ p, Path (2 * i) (shape n) p ∧ ∀ x, x ∈ p.map Prod.fst ↔
      x < nodeCount n ∧ ∃ m, 1 ≤ m ∧ x = ancestor m i := by
  have hlt := lt_two_pow_log2 n
  obtain ⟨p, hp, hmem⟩ := exists_path_block (k := (nodeCount n).log2) (Nat.dvd_zero _) (Nat.zero_le i)
    hi (by rw [nodeCount] at hlt ⊢; omega)
  refine ⟨p, hp, fun x => (hmem x).trans (and_congr_right fun hx => ?_)⟩
  constructor
  · rintro ⟨m, hm, -, rfl⟩
    exact ⟨m, hm, rfl⟩
  · rintro ⟨m, hm, rfl⟩
    refine ⟨m, hm, not_lt.mp fun hkm => ?_, rfl⟩
    -- a higher ancestor has a number of at least `2 ^ (k + 1) - 1`, which does not fit
    have hge := two_pow_le_ancestor m i
    have hpow : 2 ^ ((nodeCount n).log2 + 1) ≤ 2 ^ m := Nat.pow_le_pow_right (by decide) hkm
    rw [pow_succ] at hpow
    omega

end LeftBalanced
