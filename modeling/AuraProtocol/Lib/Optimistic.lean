import Mathlib.Data.List.Basic

/-!
# Optimistic concurrency

Programs that share a store of records and change it by compare-and-exchange only.
A `Program` is the tree of the store calls it makes: it looks a record up, decides,
tries to exchange what it saw for something else, and tries again if another program
was faster.  Any number of programs run at once, one store call at a time, in any
order; `Schedule` is that order.

A `Store` promises what a compare-and-exchange promises and little else.  A look-up
may return an old record, or fail; an exchange may fail without a reason.

`Program.Commits T E` is the proof obligation for one program, taken alone: the first
exchange that goes through is a transition of `T` and ends the program, and a program
that ends without one ends in `E`.  `Schedule.invariant` turns it into a rule for
everything that runs: the records only ever change by transitions of `T`, each of them
taken in one step by the program that returns its result.
-/

namespace Optimistic

open List

variable {ε κ ρ ι α β : Type}

/-! ## Programs -/

/-- The store calls of a program, and what it returns in the end. -/
inductive Program (ε κ ρ α : Type) where
  | done (result : α)
  | find (key : κ) (next : Except ε (Option ρ) → Program ε κ ρ α)
  | exchange (current replacement : Option ρ) (next : Except ε Bool → Program ε κ ρ α)

namespace Program

/-- One program after another. -/
def bind : Program ε κ ρ α → (α → Program ε κ ρ β) → Program ε κ ρ β
  | .done a, f => f a
  | .find key next, f => .find key fun r => (next r).bind f
  | .exchange current replacement next, f => .exchange current replacement fun r => (next r).bind f

instance : Monad (Program ε κ ρ) where
  pure := .done
  bind := bind

theorem bind_done (x : Program ε κ ρ α) : x.bind .done = x := by
  induction x with
  | done a => rfl
  | find key next ih => exact congrArg (Program.find key) (funext ih)
  | exchange current replacement next ih =>
    exact congrArg (Program.exchange current replacement) (funext ih)

theorem bind_bind {γ : Type} (x : Program ε κ ρ α) (f : α → Program ε κ ρ β)
    (g : β → Program ε κ ρ γ) : (x.bind f).bind g = x.bind fun a => (f a).bind g := by
  induction x with
  | done a => rfl
  | find key next ih => exact congrArg (Program.find key) (funext ih)
  | exchange current replacement next ih =>
    exact congrArg (Program.exchange current replacement) (funext ih)

instance : LawfulMonad (Program ε κ ρ) :=
  LawfulMonad.mk' _ bind_done (fun _ _ => rfl) bind_bind

/-- What the program returns, if it has no store call left. -/
def result : Program ε κ ρ α → Option α
  | .done a => some a
  | _ => none

/-- What is left of a program: nothing if it has returned. -/
def rest (p : Program ε κ ρ α) : Option (Program ε κ ρ α) :=
  match p.result with
  | some _ => none
  | none => some p

theorem eq_of_rest_eq_some {p q : Program ε κ ρ α} (h : p.rest = some q) :
    q = p ∧ p.result = none := by
  rw [rest] at h
  split at h
  · cases h
  · exact ⟨(Option.some.inj h).symm, ‹_›⟩

end Program

/-- A program whose store calls can fail, and which can fail itself. -/
abbrev Attempt (ε κ ρ : Type) := ExceptT ε (Program ε κ ρ)

namespace Attempt

/-- A check that needs no store call. -/
def check (x : Except ε α) : Attempt ε κ ρ α := ExceptT.mk (.done x)

/-- Looks a record up. -/
def find (key : κ) : Attempt ε κ ρ (Option ρ) := ExceptT.mk (.find key .done)

/-- Exchanges a record for another one, and says whether it did. -/
def exchange (current replacement : Option ρ) : Attempt ε κ ρ Bool :=
  ExceptT.mk (.exchange current replacement .done)

end Attempt

/-! ## What a program does to the records -/

/-- The key an exchange is about. -/
def keyOfExchange (keyOf : ρ → κ) (current replacement : Option ρ) : Option κ :=
  (current.or replacement).map keyOf

/-- The first exchange of the program that goes through is a transition of `T` to the result it
then returns at once; without such an exchange the result is in `E`.  Whatever was looked up has
the key it was looked up by. -/
def Program.Commits (keyOf : ρ → κ) (T : Option ρ → Option ρ → α → Prop) (E : α → Prop) :
    Program ε κ ρ α → Prop
  | .done a => E a
  | .find key next =>
    ∀ r : Except ε (Option ρ), (∀ x, r = .ok (some x) → keyOf x = key) →
      (next r).Commits keyOf T E
  | .exchange current replacement next =>
    (∃ a, next (.ok true) = .done a ∧ T current replacement a) ∧
      ∀ r, r ≠ .ok true → (next r).Commits keyOf T E

/-- A program with no store call left ends in `E`. -/
theorem Program.Commits.result {keyOf : ρ → κ} {T : Option ρ → Option ρ → α → Prop} {E : α → Prop}
    {p : Program ε κ ρ α} {a : α} (h : p.Commits keyOf T E) (hresult : p.result = some a) :
    E a := by
  cases p with
  | done b =>
    cases hresult
    exact h
  | find key next => cases hresult
  | exchange current replacement next => cases hresult

namespace Attempt

variable {keyOf : ρ → κ} {T : Option ρ → Option ρ → Except ε α → Prop} {E : Except ε α → Prop}

/-- The obligation of a program that can fail. -/
def Commits (keyOf : ρ → κ) (T : Option ρ → Option ρ → Except ε α → Prop) (E : Except ε α → Prop)
    (x : Attempt ε κ ρ α) : Prop :=
  Program.Commits keyOf T E x.run

theorem commits_throw {e : ε} (h : E (.error e)) :
    Commits keyOf T E (throw e : Attempt ε κ ρ α) := h

/-- A look-up: the rest has to be right for every record with that key, and for none. -/
theorem commits_find_bind {key : κ} {f : Option ρ → Attempt ε κ ρ α} (hE : ∀ e, E (.error e))
    (h : ∀ r, (∀ x, r = some x → keyOf x = key) → Commits keyOf T E (f r)) :
    Commits keyOf T E (find key >>= f) := by
  intro r hr
  cases r with
  | ok r => exact h r fun x hx => hr x (by rw [hx])
  | error e => exact hE e

/-- An exchange: if it goes through the program returns, otherwise it goes on. -/
theorem commits_exchange_ite {current replacement : Option ρ} {a : Except ε α}
    {retry : Attempt ε κ ρ α} (hE : ∀ e, E (.error e)) (hT : T current replacement a)
    (hretry : Commits keyOf T E retry) :
    Commits keyOf T E (do if ← exchange current replacement then ExceptT.mk (.done a) else retry)
    := by
  refine ⟨⟨a, rfl, hT⟩, fun r hr => ?_⟩
  cases r with
  | ok went =>
    cases went with
    | true => exact absurd rfl hr
    | false => exact hretry
  | error e => exact hE e

theorem commits_check_bind {x : Except ε β} {f : β → Attempt ε κ ρ α} (hE : ∀ e, E (.error e))
    (h : ∀ b, x = .ok b → Commits keyOf T E (f b)) :
    Commits keyOf T E (check x >>= f) := by
  cases x with
  | ok b => exact h b rfl
  | error e => exact hE e

end Attempt

/-! ## Stores -/

/-- A store with a compare-and-exchange.  Its look-ups may be stale and its calls may fail; an
exchange that reports success has found the record it expected and put the other one in its place,
and nothing else changes a record. -/
structure Store (ε κ ρ : Type) [DecidableEq κ] (keyOf : ρ → κ) where
  State : Type
  records : State → κ → Option ρ
  find : κ → State → Except ε (Option ρ) × State
  exchange : Option ρ → Option ρ → State → Except ε Bool × State
  keyOf_find : ∀ {key s x}, (find key s).1 = .ok (some x) → keyOf x = key
  records_find : ∀ key s, records (find key s).2 = records s
  exchange_true : ∀ {current replacement s key}, (exchange current replacement s).1 = .ok true →
    keyOfExchange keyOf current replacement = some key →
      records s key = current ∧
        records (exchange current replacement s).2 = Function.update (records s) key replacement
  exchange_unchanged : ∀ {current replacement s}, (exchange current replacement s).1 ≠ .ok true →
    records (exchange current replacement s).2 = records s

namespace Store

variable [DecidableEq κ] {keyOf : ρ → κ}

/-- Makes the next store call of a program. -/
def call (S : Store ε κ ρ keyOf) : Program ε κ ρ α → S.State → Program ε κ ρ α × S.State
  | .done a, s => (.done a, s)
  | .find key next, s => (next (S.find key s).1, (S.find key s).2)
  | .exchange current replacement next, s =>
    (next (S.exchange current replacement s).1, (S.exchange current replacement s).2)

/-- The records themselves, as a store: every look-up is fresh and no call fails. -/
def memory (ε : Type) [DecidableEq ρ] (keyOf : ρ → κ) : Store ε κ ρ keyOf where
  State := κ → Option ρ
  records s := s
  find key s := (.ok ((s key).filter fun x => keyOf x = key), s)
  exchange current replacement s :=
    match keyOfExchange keyOf current replacement with
    | some key => if s key = current then (.ok true, Function.update s key replacement)
      else (.ok false, s)
    | none => (.ok false, s)
  keyOf_find h := by
    obtain ⟨-, h⟩ := Option.filter_eq_some_iff.mp (Except.ok.inj h)
    exact of_decide_eq_true h
  records_find _ _ := rfl
  exchange_true h hkey := by
    simp only [hkey] at h ⊢
    split_ifs at h ⊢ with hcurrent
    · exact ⟨hcurrent, rfl⟩
    · cases h
  exchange_unchanged h := by
    split at h
    · split_ifs at h ⊢ with hcurrent
      · exact absurd rfl h
      · rfl
    · rfl

end Store

/-! ## Everything that runs -/

/-- One store call of one of the programs: the number and the input of the program, the records
before and after the call, and the result if the program ended with it. -/
structure Event (ι κ ρ α : Type) where
  number : ℕ
  input : ι
  before : κ → Option ρ
  after : κ → Option ρ
  result : Option α

/-- What a scheduler can do: start a program, or let one make its next store call. -/
inductive Action (ι : Type) where
  | start (input : ι)
  | resume (number : ℕ)

variable [DecidableEq κ] {keyOf : ρ → κ}

/-- The store, the programs started so far with what is left of them, and the store calls made so
far, last call first. -/
structure Schedule (S : Store ε κ ρ keyOf) (ι α : Type) where
  store : S.State
  programs : List (ι × Option (Program ε κ ρ α)) := []
  log : List (Event ι κ ρ α) := []

namespace Schedule

variable {S : Store ε κ ρ keyOf} (prog : ι → Program ε κ ρ α)

/-- The program with the given number makes its next store call. -/
def resume (r : Schedule S ι α) (number : ℕ) (input : ι) (p : Program ε κ ρ α) :
    Schedule S ι α where
  store := (S.call p r.store).2
  programs := r.programs.set number (input, (S.call p r.store).1.rest)
  log := ⟨number, input, S.records r.store, S.records (S.call p r.store).2,
    (S.call p r.store).1.result⟩ :: r.log

/-- One action of the scheduler. -/
def step (r : Schedule S ι α) : Action ι → Schedule S ι α
  | .start input => { r with programs := r.programs ++ [(input, some (prog input))] }
  | .resume number =>
    match r.programs[number]? with
    | some (input, some p) => r.resume number input p
    | _ => r

/-- The actions of a scheduler, one after the other. -/
def exec (s₀ : S.State) (actions : List (Action ι)) : Schedule S ι α :=
  actions.foldl (step prog) { store := s₀ }

variable {T : ι → Option ρ → Option ρ → α → Prop} {E : ι → α → Prop} {prog}

/-- What holds at the start and is kept by every start and every store call of a program that has
not returned holds always. -/
theorem exec_induction {P : Schedule S ι α → Prop} {s₀ : S.State} (hempty : P { store := s₀ })
    (hstart : ∀ r input, P r →
      P { r with programs := r.programs ++ [(input, some (prog input))] })
    (hresume : ∀ r number input p, r.programs[number]? = some (input, some p) → P r →
      P (r.resume number input p)) (actions : List (Action ι)) : P (exec prog s₀ actions) := by
  refine foldlRecOn actions (step prog) hempty fun r hr action _ => ?_
  cases action with
  | start input => exact hstart r input hr
  | resume number =>
    rw [step]
    split
    · exact hresume r number _ _ ‹_› hr
    · exact hr

/-- A program that has not ended is as good as it was when it started. -/
def Pending (T : ι → Option ρ → Option ρ → α → Prop) (E : ι → α → Prop) (r : Schedule S ι α) :
    Prop :=
  ∀ t ∈ r.programs, ∀ p, t.2 = some p → p.Commits keyOf (T t.1) (E t.1)

/-- One store call of a program that is still right: either the record it expected is exchanged and
the program returns, or no record changes and what is left is still right. -/
theorem call_cases {p : Program ε κ ρ α} {input : ι} (s : S.State)
    (h : p.Commits keyOf (T input) (E input))
    (hkey : ∀ {current replacement a}, T input current replacement a →
      ∃ key, keyOfExchange keyOf current replacement = some key) :
    (∃ key replacement a, (S.call p s).1 = .done a ∧
        T input (S.records s key) replacement a ∧
        keyOfExchange keyOf (S.records s key) replacement = some key ∧
        S.records (S.call p s).2 = Function.update (S.records s) key replacement) ∨
      ((S.call p s).1.Commits keyOf (T input) (E input) ∧
        S.records (S.call p s).2 = S.records s) := by
  cases p with
  | done a => exact .inr ⟨h, rfl⟩
  | find key next =>
    exact .inr ⟨h _ fun x hx => S.keyOf_find hx, S.records_find key s⟩
  | exchange current replacement next =>
    obtain ⟨⟨a, hdone, hT⟩, hretry⟩ := h
    by_cases hwent : (S.exchange current replacement s).1 = .ok true
    · obtain ⟨key, hkey⟩ := hkey hT
      obtain ⟨hcurrent, hafter⟩ := S.exchange_true hwent hkey
      refine .inl ⟨key, replacement, a, ?_, ?_, ?_, hafter⟩
      · rw [Store.call, hwent, hdone]
      · rwa [hcurrent]
      · rwa [hcurrent]
    · exact .inr ⟨hretry _ hwent, S.exchange_unchanged hwent⟩

section Obligations

variable (hkey : ∀ {input current replacement a}, T input current replacement a →
  ∃ key, keyOfExchange keyOf current replacement = some key)
include hkey

theorem Pending.resume {r : Schedule S ι α} {number : ℕ} {input : ι} {p : Program ε κ ρ α}
    (h : r.Pending T E) (hp : p.Commits keyOf (T input) (E input)) :
    (r.resume number input p).Pending T E := by
  intro t ht q hq
  rcases mem_or_eq_of_mem_set ht with ht | rfl
  · exact h t ht q hq
  · obtain ⟨rfl, hresult⟩ := Program.eq_of_rest_eq_some hq
    rcases call_cases r.store hp hkey with ⟨_, _, a, hdone, -⟩ | ⟨hcommits, -⟩
    · rw [hdone] at hresult
      cases hresult
    · exact hcommits

/-- The records change by transitions of `T` only, and each is the last call of a program: what
holds of the records and the calls at the start, and is kept by these two kinds of call, holds
always. -/
theorem invariant {P : (κ → Option ρ) → List (Event ι κ ρ α) → Prop} {s₀ : S.State}
    (hprog : ∀ input, (prog input).Commits keyOf (T input) (E input))
    (hstart : P (S.records s₀) [])
    (htransition : ∀ {R log number input key replacement a}, P R log →
      T input (R key) replacement a → keyOfExchange keyOf (R key) replacement = some key →
        P (Function.update R key replacement)
          (⟨number, input, R, Function.update R key replacement, some a⟩ :: log))
    (hquiet : ∀ {R log number input result}, P R log → (∀ a, result = some a → E input a) →
      P R (⟨number, input, R, R, result⟩ :: log)) (actions : List (Action ι)) :
    P (S.records (exec prog s₀ actions).store) (exec prog s₀ actions).log := by
  refine (exec_induction (P := fun r => r.Pending T E ∧ P (S.records r.store) r.log)
    ⟨fun t ht => (by cases ht), hstart⟩ ?_ ?_ actions).2
  · rintro r input ⟨hpending, hP⟩
    refine ⟨fun t ht p hp => ?_, hP⟩
    rcases mem_append.mp ht with ht | ht
    · exact hpending t ht p hp
    · obtain rfl := mem_singleton.mp ht
      cases hp
      exact hprog input
  · rintro r number input p hget ⟨hpending, hP⟩
    have hp := hpending _ (mem_of_getElem? hget) p rfl
    refine ⟨hpending.resume hkey hp, ?_⟩
    rcases call_cases r.store hp hkey with
      ⟨key, replacement, a, hdone, hT, hkey', hafter⟩ | ⟨hcommits, hsame⟩
    · simp only [Schedule.resume, hdone, hafter]
      exact htransition hP hT hkey'
    · simp only [Schedule.resume, hsame]
      exact hquiet hP fun a ha => hcommits.result ha

end Obligations

/-- The calls in the log follow one another: each starts from the records the one before left. -/
def Follows (R₀ : κ → Option ρ) : List (Event ι κ ρ α) → (κ → Option ρ) → Prop
  | [], R => R = R₀
  | e :: log, R => e.after = R ∧ Follows R₀ log e.before

/-- A program that has returned makes no further call. -/
theorem silent_after_result (s₀ : S.State) (actions : List (Action ι)) :
    (exec prog s₀ actions).log.Pairwise
      fun later earlier => earlier.result.isSome → earlier.number ≠ later.number := by
  refine (exec_induction (P := fun r : Schedule S ι α =>
    (∀ e ∈ r.log, e.result.isSome → ∃ input, r.programs[e.number]? = some (input, none)) ∧
      r.log.Pairwise fun later earlier => earlier.result.isSome → earlier.number ≠ later.number)
    ⟨fun e he => (by cases he), .nil⟩ ?_ ?_ actions).2
  · rintro r input ⟨hreturned, hsilent⟩
    refine ⟨fun e he hresult => ?_, hsilent⟩
    obtain ⟨input', hget⟩ := hreturned e he hresult
    exact ⟨input', List.getElem?_append_left (List.getElem?_eq_some_iff.mp hget).1 ▸ hget⟩
  · rintro r number input p hget ⟨hreturned, hsilent⟩
    refine ⟨fun e he hresult => ?_, pairwise_cons.mpr ⟨fun e he hresult => ?_, hsilent⟩⟩
    · have hlt := (List.getElem?_eq_some_iff.mp hget).1
      rcases mem_cons.mp he with rfl | he
      · refine ⟨input, ?_⟩
        obtain ⟨a, ha⟩ := Option.isSome_iff_exists.mp hresult
        dsimp only at ha
        rw [resume, List.getElem?_set_self hlt, Program.rest, ha]
      · obtain ⟨input', hget'⟩ := hreturned e he hresult
        refine ⟨input', ?_⟩
        rw [resume, List.getElem?_set_ne]
        · exact hget'
        · rintro rfl
          cases hget.symm.trans hget'
    · -- the program was still running, so none of the earlier results is its own
      obtain ⟨input', hget'⟩ := hreturned e he hresult
      intro heq
      rw [heq] at hget'
      cases hget.symm.trans hget'

end Schedule

end Optimistic
