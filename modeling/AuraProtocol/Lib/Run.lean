import Mathlib.Data.List.Basic

/-!
# Runs of a labelled transition relation

`Run R s l t` says that the relation `R` leads from the state `s` to the state `t`
along the labels `l`, first label first.  Runs compose, follow a map of the
relation, and can be cut at any label.
-/

variable {σ α : Type*} {exec : σ → α → σ} {ok : σ → α → Prop}

/-- The runs of a labelled transition relation. -/
inductive Run (R : σ → α → σ → Prop) : σ → List α → σ → Prop
  | nil (s : σ) : Run R s [] s
  | cons {s t u : σ} {a : α} {l : List α} : R s a t → Run R t l u → Run R s (a :: l) u

namespace Run

variable {R : σ → α → σ → Prop} {s t u : σ} {a : α} {l l' : List α}

theorem single (h : R s a t) : Run R s [a] t := .cons h (.nil t)

theorem append (h : Run R s l t) (h' : Run R t l' u) : Run R s (l ++ l') u := by
  induction h with
  | nil => exact h'
  | cons hstep _ ih => exact .cons hstep (ih h')

theorem snoc (h : Run R s l t) (h' : R t a u) : Run R s (l ++ [a]) u := h.append (single h')

/-- A map of states that takes the steps of a run to steps takes the run to a run. -/
theorem map {τ : Type*} {R' : τ → α → τ → Prop} (f : σ → τ) (h : Run R s l t)
    (hf : ∀ a ∈ l, ∀ s t, R s a t → R' (f s) a (f t)) : Run R' (f s) l (f t) := by
  induction h with
  | nil s => exact .nil (f s)
  | cons hstep _ ih =>
    refine .cons (hf _ List.mem_cons_self _ _ hstep) (ih fun a ha => ?_)
    exact hf a (List.mem_cons_of_mem _ ha)

/-- A run of a relation is a run of every relation that has the steps it takes. -/
theorem mono {R' : σ → α → σ → Prop} (h : Run R s l t)
    (hR : ∀ a ∈ l, ∀ s t, R s a t → R' s a t) : Run R' s l t := h.map id hR

/-- A run along a concatenation passes through a state in between. -/
theorem exists_of_append (h : Run R s (l ++ l') u) : ∃ t, Run R s l t ∧ Run R t l' u := by
  induction l generalizing s with
  | nil => exact ⟨s, .nil s, h⟩
  | cons a l ih =>
    cases h with
    | cons hstep hrest =>
      obtain ⟨t, hl, hl'⟩ := ih hrest
      exact ⟨t, .cons hstep hl, hl'⟩

/-- What every step of a run keeps, the run keeps. -/
theorem invariant {P : σ → Prop} (h : Run R s l t)
    (hP : ∀ a ∈ l, ∀ s t, R s a t → P s → P t) (hs : P s) : P t := by
  induction h with
  | nil => exact hs
  | cons hstep _ ih =>
    refine ih (fun a ha => ?_) (hP _ List.mem_cons_self _ _ hstep hs)
    exact hP a (List.mem_cons_of_mem _ ha)

end Run

/-! ## Guarded sequences of steps -/

/-- Each label is allowed in the state the ones before it lead to. -/
def Admits (exec : σ → α → σ) (ok : σ → α → Prop) : σ → List α → Prop
  | _, [] => True
  | s, a :: l => ok s a ∧ Admits exec ok (exec s a) l

instance Admits.instDecidable (exec : σ → α → σ) (ok : σ → α → Prop) [∀ s a, Decidable (ok s a)] :
    (s : σ) → (l : List α) → Decidable (Admits exec ok s l)
  | _, [] => isTrue trivial
  | s, a :: l =>
    have := Admits.instDecidable exec ok (exec s a) l
    inferInstanceAs (Decidable (ok s a ∧ _))

/-- What every allowed step keeps, an allowed sequence of steps keeps. -/
theorem Admits.foldl {P : σ → Prop}
    (hP : ∀ s a, P s → ok s a → P (exec s a)) {s : σ} {l : List α} (h : Admits exec ok s l)
    (hs : P s) : P (l.foldl exec s) := by
  induction l generalizing s with
  | nil => exact hs
  | cons a l ih => exact ih h.2 (hP s a hs h.1)

/-- If a step keeps a property exactly when it is allowed, then a sequence of steps is allowed
exactly when the property holds all the way. -/
theorem Admits.iff_forall {P : σ → Prop}
    (hP : ∀ s a, P s → (P (exec s a) ↔ ok s a)) {s : σ} {l : List α} (hs : P s) :
    Admits exec ok s l ↔ ∀ done, done <+: l → P (done.foldl exec s) := by
  induction l generalizing s with
  | nil =>
    refine ⟨fun _ done hdone => ?_, fun _ => trivial⟩
    rw [List.prefix_nil.mp hdone]
    exact hs
  | cons a l ih =>
    constructor
    · rintro ⟨hok, hrest⟩ done hdone
      rcases List.prefix_cons_iff.mp hdone with rfl | ⟨done', rfl, hdone'⟩
      · exact hs
      · exact (ih ((hP s a hs).mpr hok)).mp hrest done' hdone'
    · intro h
      have hstep : P (exec s a) := h [a] (List.prefix_append [a] l)
      refine ⟨(hP s a hs).mp hstep, (ih hstep).mpr fun done hdone => ?_⟩
      exact h (a :: done) (List.prefix_cons_inj a |>.mpr hdone)

/-- The last of the first few steps is allowed where it is taken. -/
theorem Admits.of_snoc {s : σ} {l done : List α} {a : α}
    (h : Admits exec ok s l) (hdone : done ++ [a] <+: l) : ok (done.foldl exec s) a := by
  induction done generalizing s l with
  | nil =>
    obtain ⟨rest, rfl⟩ := hdone
    exact h.1
  | cons b done ih =>
    obtain ⟨rest, rfl⟩ := hdone
    exact ih h.2 ⟨rest, rfl⟩
