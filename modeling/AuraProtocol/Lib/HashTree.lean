import Mathlib.Data.Set.Function
import AuraProtocol.Lib.LabelTree

/-!
# Hash trees

The hash of a labelled tree: at a leaf a message made of the label is hashed, at an
inner node a message made of the label and the hashes of the two subtrees.

If the messages can be read back, equal hashes come from equal trees, as far as the
hash function is injective on the messages of the two trees (`eq_of_hash_eq`).  No
hash function is injective on all messages, so nothing more is asked of it.
-/

namespace LabelTree

open List

variable {α β δ : Type*}

/-- The messages that are hashed at the nodes of a tree. -/
structure Encoding (α β δ : Type*) where
  leaf : α → β
  node : α → δ → δ → β

/-- The hash of a tree. -/
def hash (H : β → δ) (e : Encoding α β δ) : LabelTree α → δ
  | leaf a => H (e.leaf a)
  | node a l r => H (e.node a (l.hash H e) (r.hash H e))

/-- The messages that the hash of a tree hashes. -/
def messages (H : β → δ) (e : Encoding α β δ) : LabelTree α → List β
  | leaf a => [e.leaf a]
  | node a l r => e.node a (l.hash H e) (r.hash H e) :: (l.messages H e ++ r.messages H e)

/-- The labels of leaves and those of inner nodes. -/
def Graded (L N : α → Prop) : LabelTree α → Prop
  | leaf a => L a
  | node a l r => N a ∧ l.Graded L N ∧ r.Graded L N

/-- The hash of a tree is the hash of some message. -/
theorem exists_hash_eq (H : β → δ) (e : Encoding α β δ) (t : LabelTree α) : ∃ b, t.hash H e = H b := by
  cases t with
  | leaf a => exact ⟨_, rfl⟩
  | node a l r => exact ⟨_, rfl⟩

/-- The messages of two encodings can be read back: they tell leaves from inner nodes, and give the
label, what the two encodings agree on at it, and the hashes of the subtrees. -/
structure Readable (H : β → δ) (e e' : Encoding α β δ) (L N P : α → Prop) : Prop where
  leaf {a a' : α} : L a → L a' → e.leaf a = e'.leaf a' → a = a' ∧ P a
  leaf_ne_node {a a' : α} {d d' : δ} : L a → N a' → e.leaf a ≠ e'.node a' d d'
  node_ne_leaf {a a' : α} {d d' : δ} : N a → L a' → e.node a d d' ≠ e'.leaf a'
  node {a a' : α} {l r l' r' : β} : N a → N a' →
    e.node a (H l) (H r) = e'.node a' (H l') (H r') → a = a' ∧ P a ∧ H l = H l' ∧ H r = H r'

variable {H : β → δ} {e e' : Encoding α β δ} {L N P : α → Prop}

/-- Equal hashes come from equal trees, which the two encodings agree on. -/
theorem eq_of_hash_eq (hread : Readable H e e' L N P) {t t' : LabelTree α} (ht : t.Graded L N)
    (ht' : t'.Graded L N)
    (hinj : Set.InjOn H {b | b ∈ t.messages H e ∨ b ∈ t'.messages H e'})
    (heq : t.hash H e = t'.hash H e') : t = t' ∧ ∀ a ∈ t.labels, P a := by
  induction t generalizing t' with
  | leaf a =>
    cases t' with
    | leaf a' =>
      have hmessage : e.leaf a = e'.leaf a' :=
        hinj (.inl (mem_singleton_self _)) (.inr (mem_singleton_self _)) heq
      obtain ⟨rfl, hP⟩ := hread.leaf ht ht' hmessage
      exact ⟨rfl, fun b hb => mem_singleton.mp hb ▸ hP⟩
    | node a' l' r' =>
      exact absurd (hinj (.inl (mem_singleton_self _)) (.inr mem_cons_self) heq)
        (hread.leaf_ne_node ht ht'.1)
  | node a l r ihl ihr =>
    cases t' with
    | leaf a' =>
      exact absurd (hinj (.inl mem_cons_self) (.inr (mem_singleton_self _)) heq)
        (hread.node_ne_leaf ht.1 ht')
    | node a' l' r' =>
      have hmessage := hinj (.inl mem_cons_self) (.inr mem_cons_self) heq
      obtain ⟨bl, hbl⟩ := exists_hash_eq H e l
      obtain ⟨br, hbr⟩ := exists_hash_eq H e r
      obtain ⟨bl', hbl'⟩ := exists_hash_eq H e' l'
      obtain ⟨br', hbr'⟩ := exists_hash_eq H e' r'
      rw [hbl, hbr, hbl', hbr'] at hmessage
      obtain ⟨rfl, hP, hl, hr⟩ := hread.node ht.1 ht'.1 hmessage
      obtain ⟨rfl, hPl⟩ := ihl ht.2.1 ht'.2.1
        (hinj.mono fun b hb => hb.imp (fun h => mem_cons_of_mem _ (mem_append_left _ h))
          fun h => mem_cons_of_mem _ (mem_append_left _ h))
        (hbl.trans (hl.trans hbl'.symm))
      obtain ⟨rfl, hPr⟩ := ihr ht.2.2 ht'.2.2
        (hinj.mono fun b hb => hb.imp (fun h => mem_cons_of_mem _ (mem_append_right _ h))
          fun h => mem_cons_of_mem _ (mem_append_right _ h))
        (hbr.trans (hr.trans hbr'.symm))
      refine ⟨rfl, fun b hb => ?_⟩
      rcases mem_labels_node.mp hb with hb | rfl | hb
      · exact hPl b hb
      · exact hP
      · exact hPr b hb

end LabelTree
