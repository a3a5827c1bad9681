import Mathlib.Data.Finset.Basic

/-!
# A bounded window of things seen

A set for lookups next to a queue that remembers the order of arrival; when the
queue outgrows its capacity the oldest elements leave both.  While the two agree
(`Ok`), an element that was remembered stays until as many others have come as
the window holds: `suffix_remember` says so one element at a time.

What such a window guarantees of the things it lets through is `SpacedBy`.
-/

variable {α : Type} [DecidableEq α] {cap : ℕ}

/-- A set with the order in which its elements came. -/
@[ext]
structure SeenWindow (α : Type) where
  seen : Finset α
  order : List α

namespace SeenWindow

variable {w : SeenWindow α} {a : α}

/-- The window of nothing. -/
def empty : SeenWindow α where
  seen := ∅
  order := []

/-- Drops the oldest elements until at most `cap` are left. -/
def evict (cap : ℕ) : List α → Finset α → SeenWindow α
  | [], seen => ⟨seen, []⟩
  | a :: order, seen =>
    if cap < (a :: order).length then evict cap order (seen.erase a) else ⟨seen, a :: order⟩

/-- Adds an element, unless it is there already. -/
def remember (cap : ℕ) (a : α) (w : SeenWindow α) : SeenWindow α :=
  if a ∈ w.seen then w else evict cap (w.order ++ [a]) (insert a w.seen)

/-- Removes an element. -/
def forget (a : α) (w : SeenWindow α) : SeenWindow α :=
  ⟨w.seen.erase a, w.order.filter (· ≠ a)⟩

/-- Set and queue hold the same elements, each once and at most `cap` of them. -/
structure Ok (cap : ℕ) (w : SeenWindow α) : Prop where
  nodup : w.order.Nodup
  mem_seen : ∀ a, a ∈ w.seen ↔ a ∈ w.order
  length_le : w.order.length ≤ cap

omit [DecidableEq α] in
theorem ok_empty : Ok cap (empty : SeenWindow α) where
  nodup := List.nodup_nil
  mem_seen a := by simp [empty]
  length_le := Nat.zero_le _

/-- What eviction leaves is the end of the queue. -/
theorem order_evict (order : List α) (seen : Finset α) :
    (evict cap order seen).order = order.drop (order.length - cap) := by
  induction order generalizing seen with
  | nil => rw [evict, List.drop_nil]
  | cons a order ih =>
    rw [evict]
    split_ifs with hcap
    · have hlen : (a :: order).length - cap = order.length - cap + 1 := by
        rw [List.length_cons] at hcap ⊢
        omega
      rw [ih, hlen, List.drop_succ_cons]
    · rw [Nat.sub_eq_zero_of_le (not_lt.mp hcap), List.drop_zero]

theorem ok_evict {order : List α} {seen : Finset α} (hnodup : order.Nodup)
    (hseen : ∀ a, a ∈ seen ↔ a ∈ order) : Ok cap (evict cap order seen) := by
  induction order generalizing seen with
  | nil => exact ⟨hnodup, hseen, Nat.zero_le _⟩
  | cons a order ih =>
    rw [evict]
    split_ifs with hcap
    · obtain ⟨ha, hnodup⟩ := List.nodup_cons.mp hnodup
      refine ih hnodup fun b => ?_
      rw [Finset.mem_erase, hseen, List.mem_cons]
      constructor
      · rintro ⟨hne, rfl | hb⟩
        · exact absurd rfl hne
        · exact hb
      · intro hb
        exact ⟨fun hba => ha (hba ▸ hb), .inr hb⟩
    · exact ⟨hnodup, hseen, not_lt.mp hcap⟩

theorem remember_of_mem (h : a ∈ w.seen) : remember cap a w = w :=
  if_pos h

theorem order_remember (h : a ∉ w.seen) :
    (remember cap a w).order = (w.order ++ [a]).drop (w.order.length + 1 - cap) := by
  rw [remember, if_neg h, order_evict, List.length_append, List.length_singleton]

theorem seen_evict_subset (order : List α) (seen : Finset α) :
    (evict cap order seen).seen ⊆ seen := by
  induction order generalizing seen with
  | nil => exact Finset.Subset.refl seen
  | cons a order ih =>
    rw [evict]
    split_ifs with hcap
    · exact (ih _).trans (Finset.erase_subset a seen)
    · exact Finset.Subset.refl seen

/-- Only the new element can be new in the window. -/
theorem mem_of_mem_remember {a b : α} (h : b ∈ (remember cap a w).seen) :
    b = a ∨ b ∈ w.seen := by
  rw [remember] at h
  split_ifs at h with ha
  · exact .inr h
  · exact Finset.mem_insert.mp (seen_evict_subset _ _ h)

theorem Ok.remember (h : Ok cap w) (a : α) : Ok cap (remember cap a w) := by
  by_cases ha : a ∈ w.seen
  · rwa [remember_of_mem ha]
  · rw [SeenWindow.remember, if_neg ha]
    refine ok_evict ?_ fun b => ?_
    · rw [List.nodup_append]
      refine ⟨h.nodup, List.nodup_singleton a, fun x hx y hy hxy => ?_⟩
      rw [List.mem_singleton] at hy
      exact ha ((h.mem_seen a).mpr (hy ▸ hxy ▸ hx))
    · rw [Finset.mem_insert, h.mem_seen, List.mem_append, List.mem_singleton, or_comm]

theorem filter_append_self {l : List α} (ha : a ∉ l) :
    (l ++ [a]).filter (· ≠ a) = l := by
  rw [List.filter_append, List.filter_eq_self.mpr fun b hb => by simp [ne_of_mem_of_not_mem hb ha]]
  simp

theorem Ok.forget (h : Ok cap w) (a : α) : Ok cap (forget a w) where
  nodup := h.nodup.filter _
  mem_seen b := by simp [SeenWindow.forget, h.mem_seen, and_comm]
  length_le := (List.length_filter_le _ _).trans h.length_le

/-- Forgetting what was remembered last undoes it while the window is not full. -/
theorem forget_remember_of_lt (h : Ok cap w) (ha : a ∉ w.seen)
    (hlt : w.order.length < cap) : forget a (SeenWindow.remember cap a w) = w := by
  have horder : (SeenWindow.remember cap a w).order = w.order ++ [a] := by
    rw [order_remember ha, Nat.sub_eq_zero_of_le hlt, List.drop_zero]
  have hforget : (forget a (SeenWindow.remember cap a w)).order = w.order := by
    rw [SeenWindow.forget, horder]
    exact filter_append_self fun hmem => ha ((h.mem_seen a).mpr hmem)
  have hseen : (forget a (SeenWindow.remember cap a w)).seen = w.seen := by
    ext b
    rw [((h.remember a).forget a).mem_seen, h.mem_seen, hforget]
  exact SeenWindow.ext hseen hforget

/-- In a full window it costs the oldest element. -/
theorem order_forget_remember_of_full (h : Ok cap w) (ha : a ∉ w.seen)
    (hfull : w.order.length = cap) :
    (forget a (SeenWindow.remember cap a w)).order = w.order.tail := by
  have hnew : a ∉ w.order := fun hmem => ha ((h.mem_seen a).mpr hmem)
  rw [SeenWindow.forget, order_remember ha, hfull, Nat.add_sub_cancel_left, List.drop_one]
  cases horder : w.order with
  | nil => rfl
  | cons b order =>
    rw [horder] at hnew
    exact filter_append_self fun hmem => hnew (List.mem_cons_of_mem b hmem)

/-- A recent part of the window moves along with each new element while it fits. -/
theorem suffix_remember (cap : ℕ) {l : List α} (hl : l <:+ w.order)
    (hcap : l.length < cap) (ha : a ∉ w.seen) : l ++ [a] <:+ (remember cap a w).order := by
  obtain ⟨front, hfront⟩ := hl
  rw [order_remember ha, ← hfront, List.append_assoc, List.drop_append_of_le_length (by
    rw [List.length_append]
    omega)]
  exact ⟨_, rfl⟩

end SeenWindow

/-- An element comes back only after at least `n` others, which are pairwise different: any
`n + 1` neighbours differ. -/
def SpacedBy {β : Type} (n : ℕ) (l : List β) : Prop :=
  ∀ l', l' <:+: l → l'.length ≤ n + 1 → l'.Nodup

theorem spacedBy_nil {β : Type} (n : ℕ) : SpacedBy n ([] : List β) := by
  intro l' hl' _
  rw [List.infix_nil.mp hl']
  exact List.nodup_nil

theorem spacedBy_cons {β : Type} {n : ℕ} {b : β} {l : List β} (hb : b ∉ l.take n)
    (hl : SpacedBy n l) : SpacedBy n (b :: l) := by
  intro l' hl' hlen
  obtain hstart | hinfix := List.infix_cons_iff.mp hl'
  · cases l' with
    | nil => exact List.nodup_nil
    | cons a l' =>
      obtain ⟨rfl, hrest⟩ := List.cons_prefix_cons.mp hstart
      rw [List.length_cons] at hlen
      refine List.nodup_cons.mpr ⟨fun hmem => hb ?_, hl l' hrest.isInfix (by omega)⟩
      rw [List.prefix_iff_eq_take.mp hrest] at hmem
      exact List.take_subset_take_left l (by omega) hmem
  · exact hl l' hinfix hlen
