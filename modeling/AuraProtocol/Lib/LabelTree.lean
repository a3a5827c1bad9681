import Mathlib.Data.List.Nodup
import Mathlib.Data.Nat.Basic

/-!
# Binary trees with a label at every node

A tree whose leaves and inner nodes carry labels, and what a program needs that
keeps such a tree as an array: the path from a leaf to the root with the subtree
hanging off at every level, the edges a climb follows and the *resolution* of a
subtree (the topmost labels that are not blank).
-/

/-- A binary tree with a label at every node. -/
inductive LabelTree (α : Type*) where
  | leaf (a : α)
  | node (a : α) (l r : LabelTree α)

namespace LabelTree

open List

variable {α : Type*} {x : α} {t : LabelTree α}

/-- The label at the root. -/
def label : LabelTree α → α
  | leaf a => a
  | node a _ _ => a

/-- All labels, in order. -/
def labels : LabelTree α → List α
  | leaf a => [a]
  | node a l r => l.labels ++ a :: r.labels

/-- The number of edges on a longest path. -/
def height : LabelTree α → ℕ
  | leaf _ => 0
  | node _ l r => max l.height r.height + 1

@[simp] theorem label_leaf (a : α) : (leaf a).label = a := rfl
@[simp] theorem label_node (a : α) (l r : LabelTree α) : (node a l r).label = a := rfl

theorem label_mem_labels (t : LabelTree α) : t.label ∈ t.labels := by
  cases t with
  | leaf a => exact mem_singleton_self a
  | node a l r => exact mem_append_right _ mem_cons_self

theorem mem_labels_node {a : α} {l r : LabelTree α} :
    x ∈ (node a l r).labels ↔ x ∈ l.labels ∨ x = a ∨ x ∈ r.labels := by
  rw [labels, mem_append, mem_cons]

/-- The label `y` is in the subtree below the node with label `x`. -/
def Below (x y : α) : LabelTree α → Prop
  | leaf a => a = x ∧ a = y
  | node a l r => a = x ∧ y ∈ (node a l r).labels ∨ Below x y l ∨ Below x y r

/-- A property that children inherit holds of a subtree at every label. -/
theorem exists_subtree {P : LabelTree α → Prop} (hP : ∀ a l r, P (node a l r) → P l ∧ P r)
    (ht : P t) (hx : x ∈ t.labels) : ∃ s, P s ∧ s.label = x := by
  induction t with
  | leaf a => exact ⟨_, ht, (mem_singleton.mp hx).symm⟩
  | node a l r ihl ihr =>
    rcases mem_labels_node.mp hx with hx | rfl | hx
    · exact ihl (hP a l r ht).1 hx
    · exact ⟨_, ht, rfl⟩
    · exact ihr (hP a l r ht).2 hx

/-- The labels of a node's subtrees and its own are apart. -/
structure Apart (a : α) (l r : LabelTree α) : Prop where
  left : l.labels.Nodup
  right : r.labels.Nodup
  root_left : a ∉ l.labels
  root_right : a ∉ r.labels
  disjoint : ∀ x ∈ l.labels, x ∉ r.labels

theorem apart_of_nodup {a : α} {l r : LabelTree α} (h : (node a l r).labels.Nodup) :
    Apart a l r := by
  rw [labels, nodup_append, nodup_cons] at h
  obtain ⟨hl, ⟨har, hr⟩, hd⟩ := h
  exact ⟨hl, hr, fun ha => hd a ha a mem_cons_self rfl, har,
    fun x hx hx' => hd x hx x (mem_cons_of_mem _ hx') rfl⟩

/-! ## Paths -/

/-- `Path b t p`: the leaf `b` of `t` has the ancestors and the subtrees hanging off its path
that `p` lists from the leaf up. -/
inductive Path (b : α) : LabelTree α → List (α × LabelTree α) → Prop
  | leaf : Path b (leaf b) []
  | left {a l r p} (h : Path b l p) : Path b (node a l r) (p ++ [(a, r)])
  | right {a l r p} (h : Path b r p) : Path b (node a l r) (p ++ [(a, l)])

namespace Path

variable {b : α} {t : LabelTree α} {p q : List (α × LabelTree α)}

theorem length_le_height (h : Path b t p) : p.length ≤ t.height := by
  induction h with
  | leaf => exact le_rfl
  | left _ ih =>
    rw [length_append, height]
    exact Nat.succ_le_succ (le_trans ih (le_max_left _ _))
  | right _ ih =>
    rw [length_append, height]
    exact Nat.succ_le_succ (le_trans ih (le_max_right _ _))

/-- Everything on or off a path lies in the tree. -/
theorem mem_labels (h : Path b t p) {s : LabelTree α} (hmem : (x, s) ∈ p) :
    x ∈ t.labels ∧ ∀ y ∈ s.labels, y ∈ t.labels := by
  induction h with
  | leaf => cases hmem
  | @left a l r p _ ih =>
    rcases mem_append.mp hmem with hp | hp
    · exact ⟨mem_labels_node.mpr (.inl (ih hp).1),
        fun y hy => mem_labels_node.mpr (.inl ((ih hp).2 y hy))⟩
    · cases mem_singleton.mp hp
      exact ⟨mem_labels_node.mpr (.inr (.inl rfl)), fun y hy => mem_labels_node.mpr (.inr (.inr hy))⟩
  | @right a l r p _ ih =>
    rcases mem_append.mp hmem with hp | hp
    · exact ⟨mem_labels_node.mpr (.inr (.inr (ih hp).1)),
        fun y hy => mem_labels_node.mpr (.inr (.inr ((ih hp).2 y hy)))⟩
    · cases mem_singleton.mp hp
      exact ⟨mem_labels_node.mpr (.inr (.inl rfl)), fun y hy => mem_labels_node.mpr (.inl hy)⟩

theorem fst_mem_labels (h : Path b t p) (hx : x ∈ p.map Prod.fst) : x ∈ t.labels := by
  obtain ⟨⟨x, s⟩, hmem, rfl⟩ := mem_map.mp hx
  exact (h.mem_labels hmem).1

/-- The last ancestor is the root. -/
theorem getLast?_eq (h : Path b t p) (ht : 1 < t.labels.length) :
    (p.map Prod.fst).getLast? = some t.label := by
  cases h with
  | leaf => exact absurd ht (lt_irrefl 1)
  | left => rw [map_append, map_singleton, List.getLast?_concat, label_node]
  | right => rw [map_append, map_singleton, List.getLast?_concat, label_node]

end Path

/-! ## Edges and climbing -/

/-- `Edge t x y s`: in `t` the node labelled `y` has a child labelled `x`, and its other child is
labelled `s`. -/
def Edge : LabelTree α → α → α → α → Prop
  | leaf _, _, _, _ => False
  | node a l r, x, y, s => (y = a ∧ (x = l.label ∧ s = r.label ∨ x = r.label ∧ s = l.label)) ∨
      l.Edge x y s ∨ r.Edge x y s

/-- `Climbs E x steps y`: the steps, each a parent and the sibling passed, lead from `x` to `y`. -/
def Climbs (E : α → α → α → Prop) : α → List (α × α) → α → Prop
  | x, [], y => x = y
  | x, (a, s) :: rest, y => E x a s ∧ Climbs E a rest y

theorem Climbs.append {E : α → α → α → Prop} {y z : α} {p q : List (α × α)} (hp : Climbs E x p y)
    (hq : Climbs E y q z) : Climbs E x (p ++ q) z := by
  induction p generalizing x with
  | nil => exact hp ▸ hq
  | cons step p ih => exact ⟨hp.1, ih hp.2⟩

theorem Climbs.mono {E F : α → α → α → Prop} (hEF : ∀ x a s, E x a s → F x a s) {y : α}
    {p : List (α × α)} (h : Climbs E x p y) : Climbs F x p y := by
  induction p generalizing x with
  | nil => exact h
  | cons step p ih => exact ⟨hEF _ _ _ h.1, ih h.2⟩

/-- A path is climbed edge by edge. -/
theorem Path.climbs {b : α} {p : List (α × LabelTree α)} (h : Path b t p) :
    Climbs t.Edge b (p.map fun q => (q.1, q.2.label)) t.label := by
  induction h with
  | leaf => exact rfl
  | left _ ih =>
    rw [map_append]
    exact (ih.mono fun _ _ _ => fun h => .inr (.inl h)).append
      ⟨.inl ⟨rfl, .inl ⟨rfl, rfl⟩⟩, rfl⟩
  | right _ ih =>
    rw [map_append]
    exact (ih.mono fun _ _ _ => fun h => .inr (.inr h)).append
      ⟨.inl ⟨rfl, .inr ⟨rfl, rfl⟩⟩, rfl⟩

/-- The lower end of an edge is a label other than the root's. -/
theorem Edge.mem {y s : α} (h : t.Edge x y s) (hnd : t.labels.Nodup) :
    x ∈ t.labels ∧ x ≠ t.label := by
  induction t with
  | leaf a => exact h.elim
  | node a l r ihl ihr =>
    have hap := apart_of_nodup hnd
    have hbelow : x ∈ l.labels ∨ x ∈ r.labels := by
      rcases h with ⟨-, ⟨rfl, -⟩ | ⟨rfl, -⟩⟩ | h | h
      · exact .inl l.label_mem_labels
      · exact .inr r.label_mem_labels
      · exact .inl (ihl h hap.left).1
      · exact .inr (ihr h hap.right).1
    refine ⟨mem_labels_node.mpr (hbelow.imp_right .inr), ?_⟩
    rintro rfl
    exact hbelow.elim hap.root_left hap.root_right

theorem exists_edge (hx : x ∈ t.labels) (hne : x ≠ t.label) :
    ∃ y s, t.Edge x y s := by
  induction t with
  | leaf a => exact absurd (mem_singleton.mp hx) hne
  | node a l r ihl ihr =>
    rcases mem_labels_node.mp hx with hx | rfl | hx
    · by_cases hl : x = l.label
      · exact ⟨a, _, .inl ⟨rfl, .inl ⟨hl, rfl⟩⟩⟩
      · obtain ⟨y, s, h⟩ := ihl hx hl
        exact ⟨y, s, .inr (.inl h)⟩
    · exact absurd rfl hne
    · by_cases hr : x = r.label
      · exact ⟨a, _, .inl ⟨rfl, .inr ⟨hr, rfl⟩⟩⟩
      · obtain ⟨y, s, h⟩ := ihr hx hr
        exact ⟨y, s, .inr (.inr h)⟩

/-- Depth-first search for the node with a child labelled `x`. -/
def parentOf [DecidableEq α] (x : α) : LabelTree α → Option α
  | leaf _ => none
  | node a l r =>
    if l.label = x ∨ r.label = x then some a else (l.parentOf x).or (r.parentOf x)

theorem parentOf_eq_none [DecidableEq α] (h : x ∉ t.labels) :
    t.parentOf x = none := by
  induction t with
  | leaf a => rfl
  | node a l r ihl ihr =>
    rw [mem_labels_node, not_or, not_or] at h
    rw [parentOf, if_neg, ihl h.1, ihr h.2.2, Option.or_none]
    rintro (rfl | rfl)
    · exact h.1 l.label_mem_labels
    · exact h.2.2 r.label_mem_labels

/-- Where labels are distinct the search finds the upper end of an edge. -/
theorem Edge.parentOf_eq [DecidableEq α] {y s : α} (h : t.Edge x y s)
    (hnd : t.labels.Nodup) : t.parentOf x = some y := by
  induction t with
  | leaf a => exact h.elim
  | node a l r ihl ihr =>
    have hap := apart_of_nodup hnd
    rw [parentOf]
    rcases h with ⟨rfl, ⟨rfl, -⟩ | ⟨rfl, -⟩⟩ | h | h
    · rw [if_pos (.inl rfl)]
    · rw [if_pos (.inr rfl)]
    · obtain ⟨hmem, hne⟩ := h.mem hap.left
      rw [if_neg, ihl h hap.left, Option.some_or]
      rintro (rfl | rfl)
      · exact hne rfl
      · exact hap.disjoint _ hmem r.label_mem_labels
    · obtain ⟨hmem, hne⟩ := h.mem hap.right
      rw [if_neg, ihr h hap.right, parentOf_eq_none fun hl => hap.disjoint _ hl hmem, Option.none_or]
      rintro (rfl | rfl)
      · exact hap.disjoint _ l.label_mem_labels hmem
      · exact hne rfl

/-! ## Resolutions -/

/-- The topmost labels that are not blank. -/
def resolution (blank : α → Bool) : LabelTree α → List α
  | leaf a => if blank a then [] else [a]
  | node a l r => if blank a then l.resolution blank ++ r.resolution blank else [a]

theorem mem_resolution {blank : α → Bool} (h : x ∈ t.resolution blank) :
    x ∈ t.labels ∧ blank x = false := by
  induction t with
  | leaf a =>
    rw [resolution] at h
    split_ifs at h with ha
    · cases h
    · cases mem_singleton.mp h
      exact ⟨mem_singleton_self _, Bool.not_eq_true _ ▸ ha⟩
  | node a l r ihl ihr =>
    rw [mem_labels_node]
    rw [resolution] at h
    split_ifs at h with ha
    · rcases mem_append.mp h with h | h
      · exact ⟨.inl (ihl h).1, (ihl h).2⟩
      · exact ⟨.inr (.inr (ihr h).1), (ihr h).2⟩
    · cases mem_singleton.mp h
      exact ⟨.inr (.inl rfl), Bool.not_eq_true _ ▸ ha⟩

end LabelTree
