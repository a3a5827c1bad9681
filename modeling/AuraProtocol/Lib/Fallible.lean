import Mathlib.Data.List.Forall2

/-!
# Stateful computations that can fail

Rules for `EStateM`, where a computation that fails hands back the state it
failed in: nothing is rolled back unless the program says so.  The `eq_ok`
lemmas invert a successful run step by step.  `Keeps R x` says that the state `x`
ends in, whether `x` returns or fails, is `R`-related to the state it started in;
for a reflexive and transitive `R` it is proved along the structure of `x`.
-/

namespace Fallible

variable {ε σ α β : Type} {l : List α} {τ : Type}

/-- The state a run ends in, whether it returned or failed. -/
def endState : EStateM.Result ε σ α → σ
  | .ok _ s => s
  | .error _ s => s

/-- The value a run returned, or the error it failed with. -/
def outcome : EStateM.Result ε σ α → Except ε α
  | .ok a _ => .ok a
  | .error e _ => .error e

@[simp] theorem endState_ok (a : α) (s : σ) :
    endState (.ok a s : EStateM.Result ε σ α) = s := rfl

@[simp] theorem endState_error (e : ε) (s : σ) :
    endState (.error e s : EStateM.Result ε σ α) = s := rfl

@[simp] theorem outcome_ok (a : α) (s : σ) :
    outcome (.ok a s : EStateM.Result ε σ α) = .ok a := rfl

@[simp] theorem outcome_error (e : ε) (s : σ) :
    outcome (.error e s : EStateM.Result ε σ α) = .error e := rfl

/-! ## Computations without a state -/

section Except

variable {x : Except ε α} {f : α → Except ε β} {p : Prop} [Decidable p] {a : α} {b : β} {e : ε}

theorem except_bind_eq_ok :
    (x >>= f) = .ok b ↔ ∃ a, x = .ok a ∧ f a = .ok b := by
  cases x with
  | ok a => exact ⟨fun h => ⟨a, rfl, h⟩, by rintro ⟨_, ⟨⟩, h⟩; exact h⟩
  | error e =>
    constructor
    · intro h
      cases h
    · rintro ⟨_, h, _⟩
      cases h

theorem except_bind_eq_error :
    (x >>= f) = .error e ↔ x = .error e ∨ ∃ a, x = .ok a ∧ f a = .error e := by
  cases x with
  | ok a => exact ⟨fun h => .inr ⟨a, rfl, h⟩, by rintro (h | ⟨_, ⟨⟩, h⟩); exacts [(by cases h), h]⟩
  | error e' =>
    exact ⟨by rintro ⟨⟩; exact .inl rfl, by rintro (⟨⟨⟩⟩ | ⟨_, h, -⟩); exacts [rfl, by cases h]⟩

theorem except_seq_eq_ok {x : Except ε Unit} {f : Unit → Except ε β} {b : β} :
    (x >>= f) = .ok b ↔ x = .ok () ∧ f () = .ok b := by
  rw [except_bind_eq_ok]
  exact ⟨fun h => h.choose_spec, fun h => ⟨(), h⟩⟩

theorem toOption_eq_some : x.toOption = some a ↔ x = .ok a := by
  cases x <;> simp [Except.toOption]

theorem toOption_outcome_eq_some {r : EStateM.Result ε σ α} :
    (outcome r).toOption = some a ↔ ∃ s, r = .ok a s := by
  rw [toOption_eq_some]
  cases r <;> simp

theorem eq_ok_get_toOption (h : x.toOption.isSome = true) :
    x = .ok (x.toOption.get h) := by
  cases x with
  | ok a => rfl
  | error e => cases h

/-- Fails with `e` unless `p` holds. -/
def require (p : Prop) [Decidable p] (e : ε) : Except ε Unit := if p then .ok () else .error e

theorem require_eq_ok {u : Unit} : require p e = .ok u ↔ p := by
  rw [require]
  split_ifs with h <;> simp [h]

theorem require_eq_error {e' : ε} : require p e = .error e' ↔ ¬ p ∧ e' = e := by
  rw [require]
  split_ifs with h <;> simp [h, eq_comm]

/-- The value of an option, or the error `e`. -/
def orError (x : Option α) (e : ε) : Except ε α :=
  match x with
  | some a => .ok a
  | none => .error e

theorem orError_eq_ok {x : Option α} : orError x e = .ok a ↔ x = some a := by
  cases x <;> simp [orError]

/-- A check of every element of a list passes if it passes each time. -/
theorem forM_eq_ok {f : α → Except ε Unit} {u : Unit} :
    l.forM f = .ok u ↔ ∀ a ∈ l, f a = .ok () := by
  induction l with
  | nil => exact ⟨fun _ a ha => (by cases ha), fun _ => rfl⟩
  | cons a l ih =>
    change (f a >>= fun _ => l.forM f) = _ ↔ _
    rw [except_bind_eq_ok, List.forall_mem_cons, ← ih]
    exact ⟨fun h => h.choose_spec, fun h => ⟨(), h⟩⟩

/-- `f` at every element of a list, in order, until it fails. -/
def mapEach (f : α → Except ε β) : (l : List α) → Except ε { r : List β // r.length = l.length }
  | [] => .ok ⟨[], rfl⟩
  | a :: l => do
    let b ← f a
    let r ← mapEach f l
    .ok ⟨b :: r.1, congrArg (· + 1) r.2⟩

/-- A traversal succeeds with `r` if `f` does at every element, with the elements of `r`. -/
theorem mapEach_eq_ok {f : α → Except ε β} {r : { r : List β // r.length = l.length }} :
    mapEach f l = .ok r ↔ List.Forall₂ (fun a b => f a = .ok b) l r.1 := by
  obtain ⟨r, hr⟩ := r
  induction l generalizing r with
  | nil =>
    obtain rfl : r = [] := List.length_eq_zero_iff.mp hr
    exact ⟨fun _ => .nil, fun _ => rfl⟩
  | cons a l ih =>
    simp only [mapEach, except_bind_eq_ok, Except.ok.injEq, Subtype.mk.injEq]
    constructor
    · rintro ⟨b, hb, ⟨r', hr'⟩, hrest, rfl⟩
      exact .cons hb ((ih r' hr').mp hrest)
    · intro h
      cases h with
      | cons hb hrest => exact ⟨_, hb, ⟨_, Nat.succ.inj hr⟩, (ih _ _).mpr hrest, rfl⟩

theorem mapError_eq_ok {ε' : Type} {f : ε → ε'} : x.mapError f = .ok a ↔ x = .ok a := by
  cases x <;> simp [Except.mapError]

end Except

/-! ## Building blocks -/

/-- Runs a check or a pure computation; the state stays. -/
def lift (x : Except ε α) : EStateM ε σ α := fun s =>
  match x with
  | .ok a => .ok a s
  | .error e => .error e s

/-- Runs a check or a pure computation on the current state; the state stays. -/
def reads (f : σ → Except ε α) : EStateM ε σ α := fun s =>
  match f s with
  | .ok a => .ok a s
  | .error e => .error e s

/-- Runs `x`; if it fails, applies `undo` to the state it failed in and fails again. -/
def onError (x : EStateM ε σ α) (undo : σ → σ) : EStateM ε σ α := fun s =>
  match x.run s with
  | .ok a s' => .ok a s'
  | .error e s' => .error e (undo s')

/-- Runs `x` on a part of the state; the part `x` ends in is put back, whether `x` returned or
failed. -/
def zoom {τ : Type} (view : σ → τ) (put : σ → τ → σ) (x : EStateM ε τ α) : EStateM ε σ α := fun s =>
  match x.run (view s) with
  | .ok a t => .ok a (put s t)
  | .error e t => .error e (put s t)

/-- Runs `x` on a copy of a state: a failure leaves no state behind. -/
def onCopy (x : EStateM ε σ α) (s : σ) : Except ε (α × σ) :=
  match x.run s with
  | .ok a s' => .ok (a, s')
  | .error e _ => .error e

theorem onCopy_eq_ok {x : EStateM ε σ α} {s : σ} {r : α × σ} :
    onCopy x s = .ok r ↔ x.run s = .ok r.1 r.2 := by
  obtain ⟨a, s'⟩ := r
  rw [onCopy]
  cases x.run s <;> simp

@[simp] theorem pure_run (a : α) (s : σ) : (pure a : EStateM ε σ α).run s = .ok a s := rfl

@[simp] theorem get_bind_run (f : σ → EStateM ε σ β) (s : σ) :
    ((get : EStateM ε σ σ) >>= f).run s = (f s).run s := rfl

@[simp] theorem modify_run (g : σ → σ) (s : σ) :
    (modify g : EStateM ε σ PUnit).run s = .ok ⟨⟩ (g s) := rfl

@[simp] theorem modify_bind_run (g : σ → σ) (f : PUnit → EStateM ε σ β) (s : σ) :
    ((modify g : EStateM ε σ PUnit) >>= f).run s = (f ⟨⟩).run (g s) := rfl

/-! ## Inversion of runs -/

section Runs

variable {x : EStateM ε σ α} {y : Except ε α} {g : σ → Except ε α} {f : α → EStateM ε σ β}
  {k : α → β} {s s' s'' : σ} {a : α} {b : β} {e : ε}

theorem bind_of_ok (h : x.run s = .ok a s') : (x >>= f).run s = (f a).run s' := by
  change EStateM.bind x f s = _
  change x s = _ at h
  rw [EStateM.bind, h]
  rfl

theorem bind_of_error (h : x.run s = .error e s') : (x >>= f).run s = .error e s' := by
  change EStateM.bind x f s = _
  change x s = _ at h
  rw [EStateM.bind, h]

theorem bind_eq_ok :
    (x >>= f).run s = .ok b s'' ↔ ∃ a s', x.run s = .ok a s' ∧ (f a).run s' = .ok b s'' := by
  cases hx : x.run s with
  | ok a s' =>
    rw [bind_of_ok hx]
    constructor
    · exact fun h => ⟨a, s', rfl, h⟩
    · rintro ⟨_, _, ⟨⟩, h⟩
      exact h
  | error e s' =>
    rw [bind_of_error hx]
    constructor
    · intro h
      cases h
    · rintro ⟨_, _, h, _⟩
      cases h

theorem bind_eq_error :
    (x >>= f).run s = .error e s'' ↔
      x.run s = .error e s'' ∨ ∃ a s', x.run s = .ok a s' ∧ (f a).run s' = .error e s'' := by
  cases hx : x.run s with
  | ok a s' =>
    rw [bind_of_ok hx]
    constructor
    · exact fun h => .inr ⟨a, s', rfl, h⟩
    · rintro (h | ⟨_, _, ⟨⟩, h⟩)
      · cases h
      · exact h
  | error e' s' =>
    rw [bind_of_error hx]
    constructor
    · rintro ⟨⟩
      exact .inl rfl
    · rintro (h | ⟨_, _, h, _⟩)
      · cases h
        rfl
      · cases h

theorem map_eq_ok : (k <$> x).run s = .ok b s' ↔ ∃ a, x.run s = .ok a s' ∧ k a = b := by
  change EStateM.map k x s = _ ↔ ∃ a, x s = _ ∧ _
  rw [EStateM.map]
  cases x s <;> simp [and_comm]

theorem map_eq_error : (k <$> x).run s = .error e s' ↔ x.run s = .error e s' := by
  change EStateM.map k x s = _ ↔ x s = _
  rw [EStateM.map]
  cases x s <;> simp

theorem endState_map (f : α → β) (x : EStateM ε σ α) (s : σ) :
    endState ((f <$> x).run s) = endState (x.run s) := by
  change endState (EStateM.map f x s) = endState (x s)
  rw [EStateM.map]
  cases x s <;> rfl

theorem lift_eq_ok : (lift y).run s = .ok a s' ↔ y = .ok a ∧ s' = s := by
  cases y with
  | ok b => exact ⟨by rintro ⟨⟩; exact ⟨rfl, rfl⟩, by rintro ⟨⟨⟩, rfl⟩; rfl⟩
  | error e => exact ⟨fun h => (by cases h), fun h => (by cases h.1)⟩

theorem lift_eq_error : (lift y).run s = .error e s' ↔ y = .error e ∧ s' = s := by
  cases y with
  | ok b => exact ⟨fun h => (by cases h), fun h => (by cases h.1)⟩
  | error e' => exact ⟨by rintro ⟨⟩; exact ⟨rfl, rfl⟩, by rintro ⟨⟨⟩, rfl⟩; rfl⟩

theorem reads_eq_ok : (reads g).run s = .ok a s' ↔ g s = .ok a ∧ s' = s := lift_eq_ok (y := g s)

theorem reads_eq_error : (reads g).run s = .error e s' ↔ g s = .error e ∧ s' = s :=
  lift_eq_error (y := g s)

theorem lift_bind_of_ok (h : y = .ok a) (s : σ) : (lift y >>= f).run s = (f a).run s :=
  bind_of_ok (lift_eq_ok.mpr ⟨h, rfl⟩)

theorem lift_bind_of_error (h : y = .error e) (s : σ) : (lift y >>= f).run s = .error e s :=
  bind_of_error (lift_eq_error.mpr ⟨h, rfl⟩)

theorem reads_bind_of_ok (h : g s = .ok a) : (reads g >>= f).run s = (f a).run s :=
  bind_of_ok (reads_eq_ok.mpr ⟨h, rfl⟩)

theorem reads_bind_of_error (h : g s = .error e) : (reads g >>= f).run s = .error e s :=
  bind_of_error (reads_eq_error.mpr ⟨h, rfl⟩)

theorem lift_bind_eq_ok :
    (lift y >>= f).run s = .ok b s' ↔ ∃ a, y = .ok a ∧ (f a).run s = .ok b s' := by
  rw [bind_eq_ok]
  constructor
  · rintro ⟨a, _, hrun, h⟩
    obtain ⟨hx, rfl⟩ := lift_eq_ok.mp hrun
    exact ⟨a, hx, h⟩
  · rintro ⟨a, hx, h⟩
    exact ⟨a, s, lift_eq_ok.mpr ⟨hx, rfl⟩, h⟩

theorem lift_bind_eq_error :
    (lift y >>= f).run s = .error e s' ↔
      (y = .error e ∧ s' = s) ∨ ∃ a, y = .ok a ∧ (f a).run s = .error e s' := by
  cases y with
  | ok a =>
    rw [lift_bind_of_ok rfl]
    exact ⟨fun h => .inr ⟨a, rfl, h⟩, by rintro (⟨h, -⟩ | ⟨_, ⟨⟩, h⟩); exacts [(by cases h), h]⟩
  | error e' =>
    rw [lift_bind_of_error rfl]
    exact ⟨by rintro ⟨⟩; exact .inl ⟨rfl, rfl⟩,
      by rintro (⟨⟨⟩, rfl⟩ | ⟨_, h, -⟩); exacts [rfl, by cases h]⟩

theorem reads_bind_eq_ok :
    (reads g >>= f).run s = .ok b s' ↔ ∃ a, g s = .ok a ∧ (f a).run s = .ok b s' :=
  lift_bind_eq_ok (y := g s)

theorem reads_bind_eq_error :
    (reads g >>= f).run s = .error e s' ↔
      (g s = .error e ∧ s' = s) ∨ ∃ a, g s = .ok a ∧ (f a).run s = .error e s' :=
  lift_bind_eq_error (y := g s)

/-- A computation that can only fail in a check at its start leaves the state when it fails. -/
theorem state_of_reads_bind_error (hf : ∀ a s, ∃ b s', (f a).run s = .ok b s')
    (h : (reads g >>= f).run s = .error e s') : s' = s := by
  obtain h | ⟨a, -, h⟩ := reads_bind_eq_error.mp h
  · exact h.2
  · obtain ⟨b, s₁, hok⟩ := hf a s
    cases hok.symm.trans h

theorem require_bind_eq_ok {p : Prop} [Decidable p] {f : Unit → EStateM ε σ β} :
    (lift (require p e) >>= f).run s = .ok b s' ↔ p ∧ (f ()).run s = .ok b s' := by
  rw [lift_bind_eq_ok]
  exact ⟨fun h => ⟨require_eq_ok.mp h.choose_spec.1, h.choose_spec.2⟩,
    fun h => ⟨(), require_eq_ok.mpr h.1, h.2⟩⟩

theorem onError_eq_ok {undo : σ → σ} :
    (onError x undo).run s = .ok a s' ↔ x.run s = .ok a s' := by
  change onError x undo s = _ ↔ _
  rw [onError]
  cases x.run s <;> simp

theorem onError_eq_error {undo : σ → σ} :
    (onError x undo).run s = .error e s' ↔ ∃ s₁, x.run s = .error e s₁ ∧ s' = undo s₁ := by
  change onError x undo s = _ ↔ _
  rw [onError]
  cases x.run s <;> simp [eq_comm, and_assoc]

theorem zoom_eq_ok {view : σ → τ} {put : σ → τ → σ} {x : EStateM ε τ α} :
    (zoom view put x).run s = .ok a s' ↔ ∃ t, x.run (view s) = .ok a t ∧ s' = put s t := by
  change zoom view put x s = _ ↔ _
  rw [zoom]
  cases x.run (view s) <;> simp [eq_comm, and_assoc]

theorem zoom_eq_error {view : σ → τ} {put : σ → τ → σ} {x : EStateM ε τ α} :
    (zoom view put x).run s = .error e s' ↔ ∃ t, x.run (view s) = .error e t ∧ s' = put s t := by
  change zoom view put x s = _ ↔ _
  rw [zoom]
  cases x.run (view s) <;> simp [eq_comm, and_assoc]

theorem endState_zoom (view : σ → τ) (put : σ → τ → σ) (x : EStateM ε τ α) (s : σ) :
    endState ((zoom view put x).run s) = put s (endState (x.run (view s))) := by
  change endState (zoom view put x s) = _
  rw [zoom]
  cases x.run (view s) <;> rfl

end Runs

/-! ## Relations kept by every run -/

/-- Every run of `x` ends in a state `R`-related to the one it started in. -/
def Keeps (R : σ → σ → Prop) (x : EStateM ε σ α) : Prop := ∀ s, R s (endState (x.run s))

section Keeps

variable {R : σ → σ → Prop} {x : EStateM ε σ α}

/-- To leave a part of the state alone is reflexive and transitive. -/
instance isPreorder_view (view : σ → τ) : IsPreorder σ fun s s' => view s' = view s where
  refl _ := rfl
  trans _ _ _ h h' := h'.trans h

theorem Keeps.of_ok (h : Keeps R x) {s s' : σ} {a : α}
    (hx : x.run s = .ok a s') : R s s' := by
  have := h s
  rwa [hx] at this

theorem Keeps.of_error (h : Keeps R x) {s s' : σ} {e : ε}
    (hx : x.run s = .error e s') : R s s' := by
  have := h s
  rwa [hx] at this

/-- What follows may use what the first part returned. -/
theorem Keeps.bind_ok {f : α → EStateM ε σ β} (hx : Keeps R x)
    (hf : ∀ s a s', x.run s = .ok a s' → R s (endState ((f a).run s'))) : Keeps R (x >>= f) := by
  intro s
  cases h : x.run s with
  | ok a s' =>
    rw [bind_of_ok h]
    exact hf s a s' h
  | error e s' =>
    rw [bind_of_error h]
    exact hx.of_error h

theorem Keeps.map (hx : Keeps R x) (f : α → β) : Keeps R (f <$> x) := by
  intro s
  rw [endState_map]
  exact hx s

theorem Keeps.modify {f : σ → σ} (h : ∀ s, R s (f s)) :
    Keeps R (modify f : EStateM ε σ PUnit) := h

variable [IsPreorder σ R]

theorem Keeps.pure (a : α) : Keeps R (Pure.pure a : EStateM ε σ α) := refl

theorem Keeps.get : Keeps R (MonadState.get : EStateM ε σ σ) := refl

theorem Keeps.lift (x : Except ε α) : Keeps R (Fallible.lift x : EStateM ε σ α) := by
  intro s
  cases x <;> exact refl s

theorem Keeps.reads (f : σ → Except ε α) : Keeps R (Fallible.reads f) :=
  fun s => Keeps.lift (f s) s

theorem Keeps.bind {f : α → EStateM ε σ β} (hx : Keeps R x)
    (hf : ∀ a, Keeps R (f a)) : Keeps R (x >>= f) :=
  hx.bind_ok fun _ a s' h => IsTrans.trans _ _ _ (hx.of_ok h) (hf a s')

theorem Keeps.forM_mem {f : α → EStateM ε σ PUnit} (hf : ∀ a ∈ l, Keeps R (f a)) :
    Keeps R (l.forM f) := by
  induction l with
  | nil => exact .pure _
  | cons a l ih =>
    exact .bind (hf a List.mem_cons_self) fun _ => ih fun b hb => hf b (List.mem_cons_of_mem _ hb)

theorem Keeps.forM {f : α → EStateM ε σ PUnit} (hf : ∀ a, Keeps R (f a)) (l : List α) :
    Keeps R (l.forM f) :=
  .forM_mem fun a _ => hf a

end Keeps

end Fallible
