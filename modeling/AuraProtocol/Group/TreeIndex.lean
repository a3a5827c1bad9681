import AuraProtocol.Core
import AuraProtocol.Lib.Fallible
import AuraProtocol.Lib.LeftBalanced
import Mathlib.Tactic.Ring

/-!
# Index arithmetic of the ratchet tree

The node arithmetic of `protocol/group/tree.rs`: the ratchet tree is an array in
which leaf `i` is node `2 * i` and inner nodes are odd.  Indices are natural
numbers; a tree has at most `MAX_GROUP_MEMBERS` leaves, so nothing wraps.

The functions compute with bits (`left`, `right`, the fast path of `parent`) or
search (`parent_walk`).  `follows_shape`, `parent_of_edge` and `paths` say that all
of them walk one and the same tree, `LeftBalanced.shape n`, whatever `n` is.
-/

namespace AuraProtocol.Group

variable {i k a x y s : ℕ} {t : LabelTree ℕ} {p : List (ℕ × LabelTree ℕ)} {n : ℕ}

def maxTreeDepth : ℕ := 20

namespace Tree

open Fallible List
open LeftBalanced (shape block two_pow_pos block_of_le block_of_lt nodup_labels_shape)

/-- The number of low bits set, among the lowest `fuel`. -/
def trailingOnes : ℕ → ℕ → ℕ
  | 0, _ => 0
  | fuel + 1, x => if x % 2 = 1 then trailingOnes fuel (x / 2) + 1 else 0

/-- `level`: the trailing zeros of the complement of a `u32`. -/
def level (x : ℕ) : ℕ := trailingOnes 32 x

def isLeaf (x : ℕ) : Bool := x % 2 == 0

def nodeCount (n : ℕ) : ℕ := if n = 0 then 0 else 2 * n - 1

def log2 (x : ℕ) : Except ProtocolError ℕ :=
  if x = 0 then .error (.treeIntegrity "log2(0) is undefined") else .ok x.log2

def root (n : ℕ) : Except ProtocolError ℕ :=
  if n = 0 then .error (.treeIntegrity "root: leaf count must be > 0")
  else do
    let k ← log2 (nodeCount n)
    return (1 <<< k) - 1

def left (x : ℕ) : Except ProtocolError ℕ :=
  if isLeaf x then .error (.treeIntegrity "left: leaves have no children")
  else if level x = 0 then .error (.treeIntegrity "left: level must be > 0 for non-leaf")
  else .ok (x ^^^ (1 <<< (level x - 1)))

/-- The loop of `right`: goes left until the index is one of the tree.  A step to the left lowers
the level by one, so from level `k` it is taken at most `k + 1` times, the last one failing. -/
def descend (n : ℕ) : ℕ → ℕ → Except ProtocolError ℕ
  | 0, r => if r < nodeCount n then .ok r else left r
  | k + 1, r => if r < nodeCount n then .ok r else left r >>= descend n k

def right (x n : ℕ) : Except ProtocolError ℕ :=
  if isLeaf x then .error (.treeIntegrity "right: leaves have no children")
  else if level x = 0 then .error (.treeIntegrity "right: level must be > 0 for non-leaf")
  else
    let r := x ^^^ (3 <<< (level x - 1))
    descend n (level r) r

/-- `find_parent`, with the depths that are left instead of the depth reached. -/
def findParent (target n : ℕ) : ℕ → ℕ → Except ProtocolError (Option ℕ)
  | 0, _ => .error (.treeIntegrity "parent_walk: exceeded MAX_TREE_DEPTH")
  | depth + 1, node =>
    if isLeaf node ∨ nodeCount n ≤ node then .ok none
    else do
      let l ← left node
      let r ← right node n
      if l = target ∨ r = target then return some node
      match ← findParent target n depth l with
      | some p => return some p
      | none => findParent target n depth r

def parentWalk (x n : ℕ) : Except ProtocolError ℕ := do
  let r ← root n
  let found ← findParent x n (maxTreeDepth + 1) r
  return found.getD r

def parent (x n : ℕ) : Except ProtocolError ℕ := do
  let r ← root n
  if x = r then throw (.treeIntegrity "parent: root has no parent")
  let k := level x
  if 31 ≤ k then throw (.treeIntegrity "parent: node level exceeds tree depth")
  let b := (x >>> (k + 1)) &&& 1
  let p := (x ||| (1 <<< k)) ^^^ (b <<< (k + 1))
  if r < p ∨ nodeCount n ≤ p then parentWalk x n else return p

def sibling (x n : ℕ) : Except ProtocolError ℕ := do
  let p ← parent x n
  let l ← left p
  if l = x then right p n else return l

def checkedLeafToNode (leafIdx : ℕ) : Except ProtocolError ℕ :=
  if leafIdx * 2 < 2 ^ 32 then .ok (leafIdx * 2)
  else .error (.treeIntegrity "checked_leaf_to_node: leaf index overflow")

theorem checkedLeafToNode_eq {node : ℕ} (h : checkedLeafToNode i = .ok node) : node = 2 * i := by
  rw [checkedLeafToNode] at h
  split_ifs at h
  rw [← Except.ok.inj h, mul_comm]

theorem checkedLeafToNode_of_le (h : i ≤ 2 ^ maxTreeDepth) : checkedLeafToNode i = .ok (2 * i) := by
  have : 2 ^ maxTreeDepth * 2 < 2 ^ 32 := by decide
  rw [checkedLeafToNode, if_pos (by omega), mul_comm]

/-- The loops of `direct_path` and `copath`: what `visit` finds at every node on the way from `x`
up to, but not at, the root `r`.  The first argument bounds the number of rounds: every round
climbs to a higher level, and a `u32` has 32 of them (`paths` shows that the bound is not met). -/
def climb (n r : ℕ) (visit : ℕ → Except ProtocolError ℕ) :
    ℕ → ℕ → Except ProtocolError (List ℕ)
  | 0, x => if x = r then .ok [] else .error (.treeIntegrity "climb: out of levels")
  | fuel + 1, x =>
    if x = r then .ok []
    else do
      let found ← visit x
      let p ← parent x n
      let rest ← climb n r visit fuel p
      return found :: rest

def directPath (leafIdx n : ℕ) : Except ProtocolError (List ℕ) := do
  let r ← root n
  let x ← checkedLeafToNode leafIdx
  climb n r (fun x => parent x n) 32 x

def copath (leafIdx n : ℕ) : Except ProtocolError (List ℕ) := do
  let r ← root n
  let x ← checkedLeafToNode leafIdx
  climb n r (fun x => sibling x n) 32 x

/-! ## Bits of a node index -/

/-- The index of the node at level `k` whose leaves start at `a`. -/
def nominal (k a : ℕ) : ℕ := 2 * a + 2 ^ k - 1

/-- A number that ends in `k` ones. -/
def ones (k q : ℕ) : ℕ := 2 ^ k * q + (2 ^ k - 1)

theorem nominal_eq (k j : ℕ) : nominal k (2 ^ k * j) = ones k (2 * j) := by
  have := two_pow_pos k
  rw [nominal, ones, Nat.mul_left_comm]
  omega

theorem nominal_succ_eq (k j : ℕ) : nominal (k + 1) (2 ^ (k + 1) * j) = ones k (4 * j + 1) := by
  have := two_pow_pos k
  rw [nominal, ones, pow_succ]
  grind

theorem testBit_ones (k q i : ℕ) :
    (ones k q).testBit i = if i < k then true else q.testBit (i - k) := by
  have := two_pow_pos k
  rw [ones, Nat.testBit_two_pow_mul_add _ (by omega), Nat.testBit_two_pow_sub_one]
  split_ifs with h <;> simp [h]

theorem ones_xor (k q b : ℕ) : ones k q ^^^ (b <<< k) = ones k (q ^^^ b) := by
  refine Nat.eq_of_testBit_eq fun i => ?_
  rw [Nat.testBit_xor, testBit_ones, testBit_ones, Nat.testBit_shiftLeft, Nat.testBit_xor]
  by_cases h : i < k
  · simp [h, h.not_ge]
  · simp [h, not_lt.mp h]

theorem ones_or (k q b : ℕ) : ones k q ||| (b <<< k) = ones k (q ||| b) := by
  refine Nat.eq_of_testBit_eq fun i => ?_
  rw [Nat.testBit_or, testBit_ones, testBit_ones, Nat.testBit_shiftLeft, Nat.testBit_or]
  by_cases h : i < k
  · simp [h]
  · simp [h, not_lt.mp h]

theorem ones_shiftRight (k q : ℕ) : ones k q >>> k = q := by
  refine Nat.eq_of_testBit_eq fun i => ?_
  rw [Nat.testBit_shiftRight, testBit_ones, if_neg (by omega), Nat.add_sub_cancel_left]

/-- The bits above the lowest two are left alone. -/
theorem xor_low (j : ℕ) {r b : ℕ} (hr : r < 2 ^ 2) (hb : b < 2 ^ 2) :
    (4 * j + r) ^^^ b = 4 * j + (r ^^^ b) := by
  refine Nat.eq_of_testBit_eq fun i => ?_
  rw [Nat.testBit_xor, Nat.testBit_two_pow_mul_add j hr,
    Nat.testBit_two_pow_mul_add j (Nat.xor_lt_two_pow hr hb), Nat.testBit_xor]
  split_ifs with h
  · rfl
  · rw [Nat.testBit_lt_two_pow (hb.trans_le (Nat.pow_le_pow_right two_pos (not_lt.mp h))),
      Bool.xor_false]

theorem level_nominal (hk : k < 32) (hdvd : 2 ^ k ∣ a) : level (nominal k a) = k := by
  have hgen : ∀ fuel k a, k < fuel → 2 ^ k ∣ a → trailingOnes fuel (nominal k a) = k := by
    intro fuel
    induction fuel with
    | zero => exact fun k a h => (Nat.not_lt_zero k h).elim
    | succ fuel ih =>
      intro k a h hdvd
      cases k with
      | zero =>
        rw [trailingOnes, if_neg]
        rw [nominal, pow_zero]
        omega
      | succ k =>
        obtain ⟨j, rfl⟩ := hdvd
        have hpow : 2 ^ (k + 1) * j = 2 * (2 ^ k * j) := by
          rw [pow_succ, mul_assoc, mul_left_comm]
        have hpow' : 2 ^ (k + 1) = 2 * 2 ^ k := by rw [pow_succ, mul_comm]
        have hpos := two_pow_pos k
        have hodd : nominal (k + 1) (2 ^ (k + 1) * j) % 2 = 1 := by
          rw [nominal, hpow, hpow']
          omega
        have hhalf : nominal (k + 1) (2 ^ (k + 1) * j) / 2 = nominal k (2 ^ k * j) := by
          rw [nominal, nominal, hpow, hpow']
          omega
        rw [trailingOnes, if_pos hodd, hhalf, ih k _ (by omega) (Nat.dvd_mul_right _ _)]
  exact hgen 32 k a hk hdvd

theorem isLeaf_nominal_succ (k a : ℕ) : isLeaf (nominal (k + 1) a) = false := by
  have hpow : 2 ^ (k + 1) = 2 * 2 ^ k := by rw [pow_succ, mul_comm]
  have hpos := two_pow_pos k
  rw [isLeaf, nominal, beq_eq_false_iff_ne]
  omega

theorem left_nominal (hk : k + 1 < 32) (hdvd : 2 ^ (k + 1) ∣ a) :
    left (nominal (k + 1) a) = .ok (nominal k a) := by
  rw [left, isLeaf_nominal_succ, if_neg Bool.false_ne_true, level_nominal hk hdvd,
    if_neg (Nat.succ_ne_zero k), Nat.add_sub_cancel]
  obtain ⟨j, rfl⟩ := hdvd
  have hpow : 2 ^ (k + 1) * j = 2 ^ k * (2 * j) := by rw [pow_succ, mul_assoc]
  rw [nominal_succ_eq, hpow, nominal_eq, ones_xor, xor_low j (by decide) (by decide),
    Nat.xor_self]
  congr 2
  omega

/-- The right child before the loop of `right` looks whether it exists. -/
theorem xor_right_nominal (hdvd : 2 ^ (k + 1) ∣ a) :
    nominal (k + 1) a ^^^ (3 <<< k) = nominal k (a + 2 ^ k) := by
  obtain ⟨j, rfl⟩ := hdvd
  have hpow : 2 ^ (k + 1) * j + 2 ^ k = 2 ^ k * (2 * j + 1) := by
    rw [pow_succ, mul_assoc, mul_add, mul_one]
  rw [nominal_succ_eq, hpow, nominal_eq, ones_xor, xor_low j (by decide) (by decide)]
  have hbits : 1 ^^^ 3 = 2 := rfl
  congr 1
  omega

theorem nodeCount_eq (n : ℕ) : nodeCount n = LeftBalanced.nodeCount n := by
  rw [nodeCount, LeftBalanced.nodeCount]
  split_ifs with h
  · rw [h]
  · rfl

theorem nominal_lt_nodeCount : nominal k a < nodeCount n ↔ 2 * a + 2 ^ k < 2 * n := by
  have := two_pow_pos k
  rw [nodeCount_eq, LeftBalanced.nodeCount, nominal]
  omega

/-- The loop of `right` finds the root of the block that exists. -/
theorem descend_nominal (hk : k < 32) (hdvd : 2 ^ k ∣ a) (ha : a < n) :
    descend n k (nominal k a) = .ok (block n k a).label := by
  induction k with
  | zero =>
    rw [descend, if_pos (nominal_lt_nodeCount.mpr (by rw [pow_zero]; omega)), block,
      LabelTree.label_leaf, nominal, pow_zero]
    rfl
  | succ k ih =>
    have hpow : 2 ^ (k + 1) = 2 * 2 ^ k := by rw [pow_succ, mul_comm]
    rw [descend]
    split_ifs with h
    · rw [nominal_lt_nodeCount] at h
      rw [block_of_lt (by omega), LabelTree.label_node, nominal, hpow]
      congr 1
      omega
    · rw [nominal_lt_nodeCount] at h
      rw [left_nominal hk hdvd, block_of_le (by omega)]
      exact ih (by omega) ((Nat.pow_dvd_pow 2 (Nat.le_succ k)).trans hdvd)

theorem right_nominal (hk : k + 1 < 32) (hdvd : 2 ^ (k + 1) ∣ a) (ha : a + 2 ^ k < n) :
    right (nominal (k + 1) a) n = .ok (block n k (a + 2 ^ k)).label := by
  have hdvd' : 2 ^ k ∣ a + 2 ^ k :=
    Nat.dvd_add ((Nat.pow_dvd_pow 2 (Nat.le_succ k)).trans hdvd) (Nat.dvd_refl _)
  rw [right, isLeaf_nominal_succ, if_neg Bool.false_ne_true, level_nominal hk hdvd,
    if_neg (Nat.succ_ne_zero k), Nat.add_sub_cancel]
  simp only [xor_right_nominal hdvd, level_nominal (by omega : k < 32) hdvd']
  exact descend_nominal (by omega) hdvd' ha

/-! ## The tree the functions walk -/

/-- The child functions follow a tree: even labels are leaves, and at an inner node `left` and
`right` give the labels of the children. -/
def Follows (n : ℕ) : LabelTree ℕ → Prop
  | .leaf x => isLeaf x = true ∧ x < nodeCount n
  | .node x l r => isLeaf x = false ∧ x < nodeCount n ∧ left x = .ok l.label ∧
      right x n = .ok r.label ∧ Follows n l ∧ Follows n r

theorem follows_block (hk : k < 32) (hdvd : 2 ^ k ∣ a) (ha : a < n) :
    Follows n (block n k a) := by
  induction k generalizing a with
  | zero =>
    refine ⟨?_, ?_⟩
    · rw [isLeaf, Nat.mul_mod_right]
      rfl
    · rw [nodeCount_eq, LeftBalanced.nodeCount]
      omega
  | succ k ih =>
    have hdvd' : 2 ^ k ∣ a := (Nat.pow_dvd_pow 2 (Nat.le_succ k)).trans hdvd
    have hpow : 2 ^ (k + 1) = 2 * 2 ^ k := by rw [pow_succ, mul_comm]
    by_cases hlt : a + 2 ^ k < n
    · have hroot : 2 * (a + 2 ^ k) - 1 = nominal (k + 1) a := by
        rw [nominal, hpow]
        omega
      rw [block_of_lt hlt, hroot]
      refine ⟨isLeaf_nominal_succ k a, nominal_lt_nodeCount.mpr (by omega), ?_,
        right_nominal hk hdvd hlt, ih (by omega) hdvd' ha,
        ih (by omega) (Nat.dvd_add hdvd' (Nat.dvd_refl _)) hlt⟩
      rw [left_nominal hk hdvd, LeftBalanced.label_block_of_full hlt.le]
      rfl
    · rw [block_of_le (not_lt.mp hlt)]
      exact ih (by omega) hdvd' ha

/-- The nodes on the path of a leaf are inner nodes. -/
theorem Follows.isLeaf_of_path {n b : ℕ} (ht : Follows n t) (hp : LabelTree.Path b t p) :
    ∀ x ∈ p.map Prod.fst, isLeaf x = false := by
  induction hp with
  | leaf => exact fun x hx => absurd hx not_mem_nil
  | left _ ih =>
    intro x hx
    rw [map_append, mem_append] at hx
    rcases hx with hx | hx
    · exact ih ht.2.2.2.2.1 x hx
    · cases mem_singleton.mp hx
      exact ht.1
  | right _ ih =>
    intro x hx
    rw [map_append, mem_append] at hx
    rcases hx with hx | hx
    · exact ih ht.2.2.2.2.2 x hx
    · cases mem_singleton.mp hx
      exact ht.1

theorem log2_nodeCount_lt (hn : 0 < n) (hle : n ≤ 2 ^ maxTreeDepth) :
    (LeftBalanced.nodeCount n).log2 < 31 := by
  refine (Nat.pow_lt_pow_iff_right (by decide : 1 < 2)).mp
    ((LeftBalanced.two_pow_log2_le hn).trans_lt ?_)
  have : 2 * 2 ^ maxTreeDepth < 2 ^ 31 := by decide
  rw [LeftBalanced.nodeCount]
  omega

theorem follows_shape (hn : 0 < n) (hle : n ≤ 2 ^ maxTreeDepth) :
    Follows n (shape n) :=
  follows_block ((log2_nodeCount_lt hn hle).trans (by decide)) (Nat.dvd_zero _) hn

theorem root_eq (hn : 0 < n) : root n = .ok (shape n).label := by
  have hpos : LeftBalanced.nodeCount n ≠ 0 := by
    rw [LeftBalanced.nodeCount]
    omega
  rw [root, if_neg hn.ne', nodeCount_eq, log2, if_neg hpos, LeftBalanced.label_shape hn,
    ← Nat.one_shiftLeft]
  rfl

/-! ## Parents -/

/-- `find_parent` searches the tree it follows. -/
theorem findParent_eq {n target : ℕ} {depth : ℕ} (ht : Follows n t) (hdepth : t.height < depth) :
    findParent target n depth t.label = .ok (t.parentOf target) := by
  induction t generalizing depth with
  | leaf x =>
    obtain ⟨depth, rfl⟩ := Nat.exists_eq_succ_of_ne_zero (Nat.ne_zero_of_lt hdepth)
    rw [findParent, if_pos (.inl ht.1)]
    rfl
  | node x l r ihl ihr =>
    obtain ⟨depth, rfl⟩ := Nat.exists_eq_succ_of_ne_zero (Nat.ne_zero_of_lt hdepth)
    obtain ⟨hleaf, hlt, hl, hr, hfl, hfr⟩ := ht
    have hheight : max l.height r.height < depth := Nat.lt_of_succ_lt_succ hdepth
    have hnot : ¬(isLeaf x = true ∨ nodeCount n ≤ x) := by
      rw [hleaf, not_or, not_le]
      exact ⟨Bool.false_ne_true, hlt⟩
    have hleft := ihl hfl ((le_max_left _ _).trans_lt hheight)
    have hright := ihr hfr ((le_max_right _ _).trans_lt hheight)
    rw [LabelTree.label_node, findParent, if_neg hnot, hl, hr, LabelTree.parentOf]
    change (if l.label = target ∨ r.label = target then _ else _) = _
    split_ifs with h
    · rfl
    · rw [hleft]
      change (match l.parentOf target with | some p => _ | none => _) = _
      cases l.parentOf target with
      | some p => rfl
      | none => exact hright

/-- The parent that the fast path of `parent` computes, before it looks whether it exists. -/
theorem parent_bits (k q : ℕ) :
    (nominal k (2 ^ k * q) ||| (1 <<< k)) ^^^
        (((nominal k (2 ^ k * q) >>> (k + 1)) &&& 1) <<< (k + 1)) =
      nominal (k + 1) (2 ^ (k + 1) * (q / 2)) := by
  have hodd : 2 * q + 1 = 4 * (q / 2) + (2 * (q % 2) + 1) := by omega
  have hshift : (q % 2) <<< (k + 1) = (2 * (q % 2)) <<< k := by
    rw [Nat.shiftLeft_eq, Nat.shiftLeft_eq, pow_succ]
    ring
  rw [nominal_eq, nominal_succ_eq, ones_or, ← Nat.two_pow_add_eq_or_of_lt (i := 1) (by decide),
    Nat.shiftRight_add, ones_shiftRight, Nat.and_one_is_mod, Nat.shiftRight_eq_div_pow, pow_one,
    Nat.mul_div_cancel_left _ two_pos, hshift, ones_xor, hodd, xor_low _ (by omega) (by omega)]
  -- the lowest bit of `q` is cleared
  rcases Nat.mod_two_eq_zero_or_one q with h | h <;> rw [h] <;> rfl

/-- The label of a block, at the height at which its right half starts to exist. -/
theorem label_block (n k a : ℕ) :
    ∃ j ≤ k, (block n k a).label = nominal j a ∧ (j < k → n ≤ a + 2 ^ j) := by
  induction k with
  | zero => exact ⟨0, le_rfl, rfl, fun h => (Nat.not_lt_zero 0 h).elim⟩
  | succ k ih =>
    have hpow : 2 ^ (k + 1) = 2 * 2 ^ k := by rw [pow_succ, mul_comm]
    by_cases hlt : a + 2 ^ k < n
    · refine ⟨k + 1, le_rfl, ?_, fun h => (Nat.lt_irrefl _ h).elim⟩
      rw [block_of_lt hlt, LabelTree.label_node, nominal]
      omega
    · obtain ⟨j, hj, hlabel, hfull⟩ := ih
      refine ⟨j, hj.trans (Nat.le_succ k), ?_, fun _ => ?_⟩
      · rw [block_of_le (not_lt.mp hlt), hlabel]
      · rcases hj.lt_or_eq with hjk | rfl
        · exact hfull hjk
        · exact not_lt.mp hlt

/-- Where the nominal parent of a node exists it is the node's parent. -/
theorem edge_block (hk : k < 31) (hdvd : 2 ^ k ∣ a) (ha : a < n)
    (h : (block n k a).Edge x y s) :
    ∃ j q, j < 31 ∧ x = nominal j (2 ^ j * q) ∧
      (nominal (j + 1) (2 ^ (j + 1) * (q / 2)) < nodeCount n →
        nominal (j + 1) (2 ^ (j + 1) * (q / 2)) = y) := by
  induction k generalizing a with
  | zero => exact h.elim
  | succ k ih =>
    have hdvd' : 2 ^ k ∣ a := (Nat.pow_dvd_pow 2 (Nat.le_succ k)).trans hdvd
    have hpow : 2 ^ (k + 1) = 2 * 2 ^ k := by rw [pow_succ, mul_comm]
    have hpos := two_pow_pos k
    by_cases hlt : a + 2 ^ k < n
    · rw [block_of_lt hlt] at h
      have hdvdr : 2 ^ k ∣ a + 2 ^ k := Nat.dvd_add hdvd' (Nat.dvd_refl _)
      obtain ⟨j, rfl⟩ := hdvd
      have hroot : nominal (k + 1) (2 ^ (k + 1) * j) = 2 * (2 ^ (k + 1) * j + 2 ^ k) - 1 := by
        rw [nominal, hpow]
        omega
      rcases h with ⟨rfl, ⟨rfl, -⟩ | ⟨rfl, -⟩⟩ | h | h
      · refine ⟨k, 2 * j, by omega, ?_, fun _ => ?_⟩
        · rw [LeftBalanced.label_block_of_full hlt.le, nominal, hpow]
          congr 3
          ring
        · rw [Nat.mul_div_cancel_left _ (by decide : 0 < 2), hroot]
      · -- the right child starts at an odd multiple of `2 ^ k` and may lie lower than its place
        obtain ⟨i, hi, hlabel, hfull⟩ := label_block n k (2 ^ (k + 1) * j + 2 ^ k)
        rcases hi.lt_or_eq with hik | rfl
        · obtain ⟨d, rfl⟩ := Nat.exists_eq_add_of_lt hik
          have hstart : 2 ^ (i + d + 1 + 1) * j + 2 ^ (i + d + 1) =
              2 ^ i * (2 * (2 ^ d * (2 * j + 1))) := by
            rw [pow_succ, pow_succ, pow_add]
            ring
          refine ⟨i, 2 * (2 ^ d * (2 * j + 1)), by omega, ?_, fun hin => ?_⟩
          · rw [hlabel, hstart]
          · have hend := hfull hik
            have hpow' : 2 ^ (i + 1) = 2 ^ i * 2 := pow_succ 2 i
            rw [hstart] at hend
            rw [Nat.mul_div_cancel_left _ (by decide : 0 < 2), nominal_lt_nodeCount, hpow',
              mul_assoc] at hin
            omega
        · have hstart : 2 ^ (i + 1) * j + 2 ^ i = 2 ^ i * (2 * j + 1) := by
            rw [pow_succ]
            ring
          refine ⟨i, 2 * j + 1, by omega, ?_, fun _ => ?_⟩
          · rw [hlabel, hstart]
          · rw [show (2 * j + 1) / 2 = j by omega, hroot]
      · exact ih (by omega) hdvd' ha h
      · exact ih (by omega) hdvdr hlt h
    · rw [block_of_le (not_lt.mp hlt)] at h
      exact ih (by omega) hdvd' ha h

/-- The children of a node at the upper end of an edge. -/
theorem Follows.children_of_edge (ht : Follows n t) (hnd : t.labels.Nodup)
    (h : t.Edge x y s) :
    (left y = .ok x ∧ right y n = .ok s) ∨ (left y = .ok s ∧ right y n = .ok x ∧ s ≠ x) := by
  induction t with
  | leaf a => exact h.elim
  | node a l r ihl ihr =>
    obtain ⟨-, -, hl, hr, hfl, hfr⟩ := ht
    have hapart := LabelTree.apart_of_nodup hnd
    rcases h with ⟨rfl, ⟨rfl, rfl⟩ | ⟨rfl, rfl⟩⟩ | h | h
    · exact .inl ⟨hl, hr⟩
    · refine .inr ⟨hl, hr, fun heq => ?_⟩
      exact hapart.disjoint _ l.label_mem_labels (heq ▸ r.label_mem_labels)
    · exact ihl hfl hapart.left h
    · exact ihr hfr hapart.right h

/-- A climb along edges that `visit` and `parent` follow ends at the root. -/
theorem climb_eq {n r : ℕ} {visit : ℕ → Except ProtocolError ℕ} {E : ℕ → ℕ → ℕ → Prop}
    (pick : ℕ × ℕ → ℕ) (hvisit : ∀ x y s, E x y s → visit x = .ok (pick (y, s)))
    (hparent : ∀ x y s, E x y s → parent x n = .ok y) (hroot : ∀ x y s, E x y s → x ≠ r) {fuel : ℕ}
    {p : List (ℕ × ℕ)} (h : LabelTree.Climbs E x p r) (hfuel : p.length ≤ fuel) :
    climb n r visit fuel x = .ok (p.map pick) := by
  induction p generalizing x fuel with
  | nil =>
    obtain rfl : x = r := h
    cases fuel with
    | zero => rw [climb, if_pos rfl]; rfl
    | succ fuel => rw [climb, if_pos rfl]; rfl
  | cons q p ih =>
    obtain ⟨y, s⟩ := q
    obtain ⟨hedge, hrest⟩ := h
    obtain ⟨fuel, rfl⟩ := Nat.exists_eq_succ_of_ne_zero (Nat.ne_zero_of_lt hfuel)
    rw [climb, if_neg (hroot x y s hedge), hvisit x y s hedge, hparent x y s hedge]
    change (climb n r visit fuel y >>= _) = _
    rw [ih hrest (Nat.le_of_succ_le_succ hfuel)]
    rfl

section Shape

variable {n : ℕ} (hn : 0 < n) (hle : n ≤ 2 ^ maxTreeDepth)
include hn hle

theorem parentWalk_of_edge (h : (shape n).Edge x y s) : parentWalk x n = .ok y := by
  have hheight : (shape n).height < maxTreeDepth + 1 :=
    Nat.lt_succ_of_le (LeftBalanced.height_shape hle)
  rw [parentWalk, root_eq hn]
  change (findParent x n (maxTreeDepth + 1) _ >>= _) = _
  rw [findParent_eq (follows_shape hn hle) hheight,
    h.parentOf_eq (nodup_labels_shape hn)]
  rfl

theorem parent_of_edge (h : (shape n).Edge x y s) : parent x n = .ok y := by
  have hne := (h.mem (nodup_labels_shape hn)).2
  obtain ⟨j, q, hj, rfl, hfast⟩ :=
    edge_block (log2_nodeCount_lt hn hle) (Nat.dvd_zero _) hn h
  have hlevel := level_nominal (by omega : j < 32) (Nat.dvd_mul_right (2 ^ j) q)
  rw [parent, root_eq hn]
  change (if _ then _ else _) = _
  rw [if_neg hne]
  simp only [hlevel, parent_bits]
  rw [if_neg (not_le.mpr hj)]
  change (if _ then _ else _) = _
  split_ifs with hout
  · exact parentWalk_of_edge hn hle h
  · rw [not_or, not_lt, not_le] at hout
    rw [hfast hout.2]
    rfl

theorem sibling_of_edge (h : (shape n).Edge x y s) : sibling x n = .ok s := by
  rw [sibling, parent_of_edge hn hle h]
  rcases (follows_shape hn hle).children_of_edge (nodup_labels_shape hn) h with
    ⟨hl, hr⟩ | ⟨hl, hr, hne⟩
  · change (left y >>= _) = _
    rw [hl]
    change (if x = x then _ else _) = _
    rw [if_pos rfl, hr]
  · change (left y >>= _) = _
    rw [hl]
    change (if s = x then _ else _) = _
    rw [if_neg hne]
    rfl

/-- `direct_path` and `copath` of a leaf read the leaf's path off the tree. -/
theorem paths_of_path (hi : i < n) (hp : LabelTree.Path (2 * i) (shape n) p) :
    directPath i n = .ok (p.map Prod.fst) ∧ copath i n = .ok (p.map fun q => q.2.label) := by
  have hnode := checkedLeafToNode_of_le (hi.le.trans hle)
  have hlen : (p.map fun q => (q.1, q.2.label)).length ≤ 32 := by
    rw [length_map]
    exact (hp.length_le_height.trans (LeftBalanced.height_shape hle)).trans (by decide)
  have hroot : ∀ x y s, (shape n).Edge x y s → x ≠ (shape n).label :=
    fun x y s h => (h.mem (nodup_labels_shape hn)).2
  have hparent : ∀ x y s, (shape n).Edge x y s → parent x n = .ok y :=
    fun x y s => parent_of_edge hn hle
  have hsibling : ∀ x y s, (shape n).Edge x y s → sibling x n = .ok s :=
    fun x y s => sibling_of_edge hn hle
  constructor
  · rw [directPath, root_eq hn, hnode]
    refine (climb_eq Prod.fst hparent hparent hroot hp.climbs hlen).trans ?_
    rw [map_map]
    rfl
  · rw [copath, root_eq hn, hnode]
    refine (climb_eq Prod.snd hsibling hparent hroot hp.climbs hlen).trans ?_
    rw [map_map]
    rfl

theorem paths (hi : i < n) :
    ∃ p, LabelTree.Path (2 * i) (shape n) p ∧
      directPath i n = .ok (p.map Prod.fst) ∧ copath i n = .ok (p.map fun q => q.2.label) := by
  obtain ⟨p, hp, -⟩ := LeftBalanced.exists_path hi
  exact ⟨p, hp, paths_of_path hn hle hi hp⟩

/-- The direct path of a leaf goes over inner nodes, and has a co-path node for each of them. -/
theorem isLeaf_of_mem_directPath (hi : i < n) {path : List ℕ} (h : directPath i n = .ok path) :
    (∀ x ∈ path, isLeaf x = false) ∧ ∃ copath', copath i n = .ok copath' ∧
      copath'.length = path.length := by
  obtain ⟨p, hp, hpath, hcopath⟩ := paths hn hle hi
  cases hpath.symm.trans h
  refine ⟨(follows_shape hn hle).isLeaf_of_path hp, _, hcopath, ?_⟩
  rw [length_map, length_map]

end Shape

end Tree

end AuraProtocol.Group
