import AuraProtocol.Group.Tree

/-!
# Subtrees, partitions of the leaves and resolutions

A node is *under* another if `left` and `right` lead down to it.  Under a node of the
ratchet tree are the labels of one subtree of `LeftBalanced.shape n`
(`Follows.mem_of_under`, `Follows.under_of_mem`), so what the index functions say about
ancestors is proved by induction over that tree: the co-path of a leaf cuts the other
leaves into parts, and the resolution of a node cuts the members below it.
-/

namespace AuraProtocol.Group

open List

open LabelTree (apart_of_nodup mem_labels_node mem_resolution resolution)

namespace Tree

variable {n b c x y : ℕ} {t : LabelTree ℕ} {p : List (ℕ × LabelTree ℕ)}

/-- `c` is a child of `x`. -/
def Child (n x c : ℕ) : Prop := left x = .ok c ∨ right x n = .ok c

/-- `y` is in the subtree of `x`. -/
def Under (n : ℕ) : ℕ → ℕ → Prop := Relation.ReflTransGen (Child n)

theorem Follows.mem_of_child (ht : Follows n t) (hx : x ∈ t.labels) (hc : Child n x c) :
    c ∈ t.labels := by
  induction t with
  | leaf a =>
    cases mem_singleton.mp hx
    rcases hc with hc | hc
    · rw [left, if_pos ht.1] at hc
      cases hc
    · rw [right, if_pos ht.1] at hc
      cases hc
  | node a l r ihl ihr =>
    obtain ⟨-, -, hl, hr, hfl, hfr⟩ := ht
    rw [mem_labels_node] at hx ⊢
    rcases hx with hx | rfl | hx
    · exact .inl (ihl hfl hx)
    · rcases hc with hc | hc
      · cases hl.symm.trans hc
        exact .inl l.label_mem_labels
      · cases hr.symm.trans hc
        exact .inr (.inr r.label_mem_labels)
    · exact .inr (.inr (ihr hfr hx))

theorem Follows.mem_of_under (ht : Follows n t) (hx : x ∈ t.labels) (h : Under n x y) :
    y ∈ t.labels := by
  induction h with
  | refl => exact hx
  | tail _ hc ih => exact ht.mem_of_child ih hc

theorem Follows.under_of_mem (ht : Follows n t) (hy : y ∈ t.labels) : Under n t.label y := by
  induction t with
  | leaf a =>
    cases mem_singleton.mp hy
    exact .refl
  | node a l r ihl ihr =>
    obtain ⟨-, -, hl, hr, hfl, hfr⟩ := ht
    rcases mem_labels_node.mp hy with hy | rfl | hy
    · exact .head (.inl hl) (ihl hfl hy)
    · exact .refl
    · exact .head (.inr hr) (ihr hfr hy)

/-- Subtrees without a common label have no node under both. -/
theorem Follows.not_under {l r : LabelTree ℕ} (hl : Follows n l) (hr : Follows n r)
    (hdisjoint : ∀ z ∈ l.labels, z ∉ r.labels) (hx : x ∈ l.labels) (hy : y ∈ r.labels) {z : ℕ} :
    ¬ (Under n x z ∧ Under n y z) :=
  fun h => hdisjoint z (hl.mem_of_under hx h.1) (hr.mem_of_under hy h.2)

theorem exists_subtree (hn : 0 < n) (hle : n ≤ 2 ^ maxTreeDepth) (hx : x < nodeCount n) :
    ∃ s, Follows n s ∧ s.height ≤ maxTreeDepth ∧ s.labels.Pairwise (· < ·) ∧ s.label = x := by
  have hlabels := LeftBalanced.labels_shape hn
  have hroot : (LeftBalanced.shape n).labels.Pairwise (· < ·) := by
    rw [hlabels]
    exact pairwise_lt_range
  have hmem : x ∈ (LeftBalanced.shape n).labels := by
    rwa [hlabels, mem_range, ← nodeCount_eq]
  obtain ⟨s, ⟨hs, hheight, hsorted⟩, hlabel⟩ := LabelTree.exists_subtree
    (P := fun s => Follows n s ∧ s.height ≤ maxTreeDepth ∧ s.labels.Pairwise (· < ·)) (by
      rintro a l r ⟨⟨-, -, -, -, hfl, hfr⟩, hheight, hsorted⟩
      obtain ⟨hsl, hsr, -⟩ := pairwise_append.mp hsorted
      have hmax := Nat.le_of_succ_le hheight
      exact ⟨⟨hfl, (le_max_left _ _).trans hmax, hsl⟩, hfr, (le_max_right _ _).trans hmax,
        hsr.of_cons⟩)
    ⟨follows_shape hn hle, LeftBalanced.height_shape hle, hroot⟩ hmem
  exact ⟨s, hs, hheight, hsorted, hlabel⟩

/-! ## Parents, children and paths -/

theorem Follows.children (ht : Follows n t) (hnd : t.labels.Nodup) (hx : x ∈ t.labels)
    (hinner : isLeaf x = false) :
    ∃ l r, left x = .ok l ∧ right x n = .ok r ∧ l ≠ r ∧ t.Edge l x r ∧ t.Edge r x l := by
  induction t with
  | leaf a =>
    rw [mem_singleton.mp hx, ht.1] at hinner
    cases hinner
  | node a tl tr ihl ihr =>
    have hap := apart_of_nodup hnd
    obtain ⟨-, -, hl, hr, hfl, hfr⟩ := ht
    rcases mem_labels_node.mp hx with hx | rfl | hx
    · obtain ⟨l, r, hl, hr, hne, h, h'⟩ := ihl hfl hap.left hx
      exact ⟨l, r, hl, hr, hne, .inr (.inl h), .inr (.inl h')⟩
    · refine ⟨_, _, hl, hr, fun heq => ?_, .inl ⟨rfl, .inl ⟨rfl, rfl⟩⟩, .inl ⟨rfl, .inr ⟨rfl, rfl⟩⟩⟩
      exact hap.disjoint _ tl.label_mem_labels (heq ▸ tr.label_mem_labels)
    · obtain ⟨l, r, hl, hr, hne, h, h'⟩ := ihr hfr hap.right hx
      exact ⟨l, r, hl, hr, hne, .inr (.inr h), .inr (.inr h')⟩

/-- The nodes are roots of disjoint subtrees that have all leaves of `t`. -/
structure Parts (n : ℕ) (t : LabelTree ℕ) (cs : List ℕ) : Prop where
  mem : ∀ c ∈ cs, c ∈ t.labels
  disjoint : cs.Pairwise fun c d => ∀ z, ¬ (Under n c z ∧ Under n d z)
  cover : ∀ y ∈ t.labels, isLeaf y = true → ∃ c ∈ cs, Under n c y

theorem Parts.append {l r : LabelTree ℕ} {cs : List ℕ} (h : Parts n l cs) (hl : Follows n l)
    (hr : Follows n r) (hdisjoint : ∀ z ∈ l.labels, z ∉ r.labels) (hx : isLeaf x = false)
    (ht : ∀ y, y ∈ t.labels ↔ y ∈ l.labels ∨ y = x ∨ y ∈ r.labels) :
    Parts n t (cs ++ [r.label]) where
  mem := by
    intro c hc
    rcases mem_append.mp hc with hc | hc
    · exact (ht c).mpr (.inl (h.mem c hc))
    · exact (ht c).mpr (.inr (.inr (mem_singleton.mp hc ▸ r.label_mem_labels)))
  disjoint := by
    refine pairwise_append.mpr ⟨h.disjoint, pairwise_singleton _ _, fun c hc d hd z => ?_⟩
    exact hl.not_under hr hdisjoint (h.mem c hc) (mem_singleton.mp hd ▸ r.label_mem_labels)
  cover := by
    intro y hy hleaf
    rcases (ht y).mp hy with hy | rfl | hy
    · obtain ⟨c, hc, hunder⟩ := h.cover y hy hleaf
      exact ⟨c, mem_append_left _ hc, hunder⟩
    · rw [hx] at hleaf
      cases hleaf
    · exact ⟨_, mem_append_right _ (mem_singleton_self _), hr.under_of_mem hy⟩

/-- A leaf and the subtrees off its path have every leaf of the tree once. -/
theorem Follows.parts (ht : Follows n t) (hnd : t.labels.Nodup) (hp : LabelTree.Path b t p) :
    Parts n t (b :: p.map fun q => q.2.label) := by
  induction hp with
  | leaf =>
    refine ⟨fun c hc => hc, pairwise_singleton _ b, fun y hy _ => ⟨b, mem_singleton_self b, ?_⟩⟩
    rw [mem_singleton.mp hy]
    exact .refl
  | left _ ih =>
    have hap := apart_of_nodup hnd
    obtain ⟨hinner, -, -, -, hfl, hfr⟩ := ht
    rw [map_append]
    exact (ih hfl hap.left).append hfl hfr hap.disjoint hinner fun y => mem_labels_node
  | right _ ih =>
    have hap := apart_of_nodup hnd
    obtain ⟨hinner, -, -, -, hfl, hfr⟩ := ht
    rw [map_append]
    refine (ih hfr hap.right).append hfr hfl (fun z hz hl => hap.disjoint z hl hz) hinner fun y => ?_
    rw [mem_labels_node, or_comm, or_assoc, or_left_comm]

/-- What the index functions say about the tree with `n` leaves. -/
structure IndexLaws (n : ℕ) : Prop where
  children : ∀ x < 2 * n - 1, isLeaf x = false → ∃ l r, left x = .ok l ∧ right x n = .ok r ∧
    l < 2 * n - 1 ∧ r < 2 * n - 1 ∧ l ≠ r ∧ parent l n = .ok x ∧ parent r n = .ok x
  parents : ∀ x < 2 * n - 1, root n ≠ .ok x → ∃ y, parent x n = .ok y ∧
    parentWalk x n = .ok y ∧ (left y = .ok x ∨ right y n = .ok x)
  paths : ∀ i < n, ∃ path copath', directPath i n = .ok path ∧ copath i n = .ok copath' ∧
    path.length ≤ 20 ∧ (1 < n → ∃ r, root n = .ok r ∧ path.getLast? = some r) ∧
    (2 * i :: copath').Pairwise (fun c d => ∀ z, ¬ (Under n c z ∧ Under n d z)) ∧
    ∀ j < n, ∃ c ∈ 2 * i :: copath', Under n c (2 * j)

/-- For every number of leaves up to the greatest, `left`, `right`, both ways of `parent` and the
paths agree, and a leaf and its co-path partition the leaves. -/
theorem indexLaws (hn : 1 ≤ n) (hle : n ≤ 2 ^ 20) : IndexLaws n := by
  have hfollows := follows_shape hn hle
  have hnd := LeftBalanced.nodup_labels_shape hn
  have hmem (x : ℕ) : x ∈ (LeftBalanced.shape n).labels ↔ x < 2 * n - 1 := by
    rw [LeftBalanced.labels_shape hn]
    exact mem_range
  refine ⟨fun x hx hinner ↦ ?_, fun x hx hroot ↦ ?_, fun i hi ↦ ?_⟩
  · obtain ⟨l, r, hl, hr, hne, h, h'⟩ := hfollows.children hnd ((hmem x).mpr hx) hinner
    exact ⟨l, r, hl, hr, (hmem l).mp (h.mem hnd).1, (hmem r).mp (h'.mem hnd).1, hne,
      parent_of_edge hn hle h, parent_of_edge hn hle h'⟩
  · have hne : x ≠ (LeftBalanced.shape n).label := by
      rintro rfl
      exact hroot (root_eq hn)
    obtain ⟨y, s, h⟩ := LabelTree.exists_edge ((hmem x).mpr hx) hne
    refine ⟨y, parent_of_edge hn hle h, parentWalk_of_edge hn hle h, ?_⟩
    exact (hfollows.children_of_edge hnd h).imp And.left fun h ↦ h.2.1
  · obtain ⟨p, hp, hpath, hcopath⟩ := paths hn hle hi
    have hparts := hfollows.parts hnd hp
    refine ⟨_, _, hpath, hcopath, ?_, fun hone ↦ ⟨_, root_eq hn, hp.getLast?_eq ?_⟩, hparts.disjoint,
      fun j hj ↦ hparts.cover _ ((hmem _).mpr (by omega)) ?_⟩
    · rw [length_map]
      exact hp.length_le_height.trans (LeftBalanced.height_shape hle)
    · rw [LeftBalanced.labels_shape hn, length_range, LeftBalanced.nodeCount]
      omega
    · rw [isLeaf, Nat.mul_mod_right]
      rfl

/-- The tree of three leaves, which is not full. -/
theorem indexLaws_three : IndexLaws 3 := indexLaws (by decide) (by decide)

/-! ## Resolutions -/

/-- Neither node is under the other, and the first is to the left. -/
def Before (n x y : ℕ) : Prop := x < y ∧ ¬ Under n x y ∧ ¬ Under n y x

variable {blank : ℕ → Bool}

theorem Follows.resolution_pairwise (ht : Follows n t) (hsorted : t.labels.Pairwise (· < ·)) :
    (t.resolution blank).Pairwise (Before n) := by
  induction t with
  | leaf a =>
    rw [resolution]
    split_ifs
    · exact .nil
    · exact pairwise_singleton _ a
  | node a l r ihl ihr =>
    have hap := apart_of_nodup (hsorted.imp ne_of_lt)
    obtain ⟨-, -, -, -, hfl, hfr⟩ := ht
    obtain ⟨hsl, hsr, hlt⟩ := pairwise_append.mp hsorted
    rw [resolution]
    split_ifs
    · refine pairwise_append.mpr ⟨ihl hfl hsl, ihr hfr hsr.of_cons, fun x hx y hy => ?_⟩
      have hxl := (mem_resolution hx).1
      have hyr := (mem_resolution hy).1
      refine ⟨hlt x hxl y (mem_cons_of_mem _ hyr), fun h => ?_, fun h => ?_⟩
      · exact hfl.not_under hfr hap.disjoint hxl hyr ⟨h, .refl⟩
      · exact hfl.not_under hfr hap.disjoint hxl hyr ⟨.refl, h⟩
    · exact pairwise_singleton _ a

/-- One node of the resolution is above a leaf that is not blank. -/
theorem Follows.existsUnique_resolution (ht : Follows n t) (hnd : t.labels.Nodup)
    (hb : b ∈ t.labels) (hleaf : isLeaf b = true) (hblank : blank b = false) :
    ∃! x, x ∈ t.resolution blank ∧ Under n x b := by
  induction t with
  | leaf a =>
    cases mem_singleton.mp hb
    rw [resolution, hblank, if_neg Bool.false_ne_true]
    exact ⟨b, ⟨mem_singleton_self b, .refl⟩, fun y hy => mem_singleton.mp hy.1⟩
  | node a l r ihl ihr =>
    have hunder := ht.under_of_mem hb
    have hap := apart_of_nodup hnd
    obtain ⟨hinner, -, -, -, hfl, hfr⟩ := ht
    rw [resolution]
    split_ifs
    · rcases mem_labels_node.mp hb with hb | rfl | hb
      · obtain ⟨x, ⟨hx, hxb⟩, hunique⟩ := ihl hfl hap.left hb
        refine ⟨x, ⟨mem_append_left _ hx, hxb⟩, fun y hy => ?_⟩
        rcases mem_append.mp hy.1 with hmem | hmem
        · exact hunique y ⟨hmem, hy.2⟩
        · exact (hfl.not_under hfr hap.disjoint hb (mem_resolution hmem).1
            ⟨.refl, hy.2⟩).elim
      · rw [hinner] at hleaf
        cases hleaf
      · obtain ⟨x, ⟨hx, hxb⟩, hunique⟩ := ihr hfr hap.right hb
        refine ⟨x, ⟨mem_append_right _ hx, hxb⟩, fun y hy => ?_⟩
        rcases mem_append.mp hy.1 with hmem | hmem
        · exact (hfl.not_under hfr hap.disjoint (mem_resolution hmem).1 hb
            ⟨hy.2, .refl⟩).elim
        · exact hunique y ⟨hmem, hy.2⟩
    · exact ⟨a, ⟨mem_singleton_self a, hunder⟩, fun y hy => mem_singleton.mp hy.1⟩

end Tree

/-- In every ratchet tree the resolution of a node consists of populated nodes below it, from left
to right and none above another, and has exactly one node above each populated leaf below it. -/
theorem RatchetTree.resolution_spec (t : RatchetTree) (v : Fin (Tree.nodeCount t.leafCount)) :
    ∃ res, t.resolution v = .ok res ∧
      (∀ x ∈ res, t.isBlank x = false ∧ Tree.Under t.leafCount v x) ∧
      res.Pairwise (Tree.Before t.leafCount) ∧
      ∀ b, Tree.isLeaf b = true → Tree.Under t.leafCount v b → t.isBlank b = false →
        ∃! x, x ∈ res ∧ Tree.Under t.leafCount x b := by
  obtain ⟨s, hs, hheight, hsorted, hlabel⟩ :=
    Tree.exists_subtree t.leafCount_pos t.leafCount_le_depth v.2
  have hmem (b : ℕ) (hb : Tree.Under t.leafCount v b) : b ∈ s.labels :=
    hs.mem_of_under s.label_mem_labels (hlabel ▸ hb)
  refine ⟨_, hlabel ▸ t.resolution_eq hs hheight, fun x hx ↦ ?_, hs.resolution_pairwise hsorted,
    fun b hleaf hb ↦ hs.existsUnique_resolution (hsorted.imp ne_of_lt) (hmem b hb) hleaf⟩
  obtain ⟨hx, hpopulated⟩ := mem_resolution hx
  exact ⟨hpopulated, hlabel ▸ hs.under_of_mem hx⟩

end AuraProtocol.Group
