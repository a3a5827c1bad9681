import Mathlib.Data.List.DropRight
import Mathlib.Data.Nat.Log
import Mathlib.Tactic.NormNum

/-!
# Fixed-width numbers and self-delimiting codes

Fixed-width little-endian and big-endian numbers, and `Serial α`: a code whose decoder finds the
end of the encoding by itself.  Self-delimiting codes compose, so a code for a
record is the product of the codes of its fields, moved along the record's
constructor (`Serial.iso`).
-/

namespace LittleEndian

/-- The `width` low bytes of a number, least significant first. -/
def leBytes : ℕ → ℕ → List UInt8
  | 0, _ => []
  | width + 1, n => UInt8.ofNat (n % 256) :: leBytes width (n / 256)

@[simp] theorem length_leBytes (width n : ℕ) : (leBytes width n).length = width := by
  induction width generalizing n with
  | zero => rfl
  | succ width ih => rw [leBytes, List.length_cons, ih]

/-- The number a little-endian byte string stands for. -/
def leNat : List UInt8 → ℕ
  | [] => 0
  | b :: bs => b.toNat + 256 * leNat bs

theorem leNat_leBytes (width n : ℕ) (h : n < 256 ^ width) : leNat (leBytes width n) = n := by
  induction width generalizing n with
  | zero => rw [pow_zero] at h; rw [leBytes, leNat]; omega
  | succ width ih =>
    have hdiv : n / 256 < 256 ^ width :=
      Nat.div_lt_of_lt_mul (by rw [pow_succ] at h; omega)
    have hmod : (UInt8.ofNat (n % 256)).toNat = n % 256 := by
      rw [UInt8.toNat_ofNat', Nat.mod_mod]
    rw [leBytes, leNat, ih _ hdiv, hmod]
    omega

/-- A fixed-width little-endian encoding determines the number it encodes. -/
theorem leBytes_injective {width m n : ℕ} (hm : m < 256 ^ width) (hn : n < 256 ^ width)
    (h : leBytes width m = leBytes width n) : m = n := by
  rw [← leNat_leBytes width m hm, ← leNat_leBytes width n hn, h]

theorem leNat_lt (bs : List UInt8) : leNat bs < 256 ^ bs.length := by
  induction bs with
  | nil => exact Nat.one_pos
  | cons b bs ih =>
    have hb : b.toNat < 256 := b.toNat_lt
    rw [leNat, List.length_cons, Nat.pow_succ]
    omega

end LittleEndian

namespace BigEndian

open LittleEndian

/-- The `width` low bytes of a number, most significant first. -/
def beBytes (width n : ℕ) : List UInt8 := (leBytes width n).reverse

@[simp] theorem length_beBytes (width n : ℕ) : (beBytes width n).length = width := by
  rw [beBytes, List.length_reverse, length_leBytes]

/-- The number a big-endian byte string stands for. -/
def beNat (bs : List UInt8) : ℕ := leNat bs.reverse

theorem beNat_beBytes (width n : ℕ) (h : n < 256 ^ width) : beNat (beBytes width n) = n := by
  rw [beNat, beBytes, List.reverse_reverse, leNat_leBytes width n h]

/-- A fixed-width big-endian encoding determines the number it encodes. -/
theorem beBytes_injective {width m n : ℕ} (hm : m < 256 ^ width) (hn : n < 256 ^ width)
    (h : beBytes width m = beBytes width n) : m = n := by
  rw [← beNat_beBytes width m hm, ← beNat_beBytes width n hn, h]

end BigEndian

open LittleEndian

/-- A code for `α` whose decoder returns what follows the encoding. -/
structure Serial (α : Type) where
  put : α → List UInt8
  get : List UInt8 → Option (α × List UInt8)
  get_put : ∀ a rest, get (put a ++ rest) = some (a, rest)

namespace Serial

variable {α β : Type}

/-- A code moved along a map with a section. -/
def iso (s : Serial α) (f : α → β) (g : β → α) (h : ∀ b, f (g b) = b) : Serial β where
  put b := s.put (g b)
  get bs := (s.get bs).map fun r => (f r.1, r.2)
  get_put b rest := by rw [s.get_put, Option.map_some, h]

/-- One value after the other. -/
def prod (s : Serial α) (t : Serial β) : Serial (α × β) where
  put p := s.put p.1 ++ t.put p.2
  get bs := (s.get bs).bind fun r => (t.get r.2).map fun r' => ((r.1, r'.1), r'.2)
  get_put p rest := by
    rw [List.append_assoc, s.get_put, Option.bind_some, t.get_put, Option.map_some]

/-- A tag byte and the value of the tagged side. -/
def sum (s : Serial α) (t : Serial β) : Serial (α ⊕ β) where
  put
    | .inl a => 0 :: s.put a
    | .inr b => 1 :: t.put b
  get
    | [] => none
    | tag :: bs =>
      if tag = 0 then (s.get bs).map fun r => (.inl r.1, r.2)
      else (t.get bs).map fun r => (.inr r.1, r.2)
  get_put x rest := by
    cases x with
    | inl a =>
      simp only [List.cons_append, if_true]
      rw [s.get_put, Option.map_some]
    | inr b =>
      have htag : ¬ (1 : UInt8) = 0 := by decide
      simp only [List.cons_append, if_neg htag]
      rw [t.get_put, Option.map_some]

/-- The empty code of a type with one value. -/
def unit : Serial Unit where
  put _ := []
  get bs := some ((), bs)
  get_put _ _ := rfl

/-- An optional value. -/
def option (s : Serial α) : Serial (Option α) :=
  (sum unit s).iso (Sum.elim (fun _ => none) some) (fun o => o.elim (.inl ()) .inr)
    (fun o => by cases o <;> rfl)

/-- A truth value. -/
def bool : Serial Bool :=
  (sum unit unit).iso (Sum.elim (fun _ => false) fun _ => true)
    (fun b => if b then .inr () else .inl ()) (fun b => by cases b <;> rfl)

/-- Reads a number of non-zero bytes ended by a zero. -/
def getUnary : List UInt8 → Option (ℕ × List UInt8)
  | [] => none
  | b :: bs => if b = 0 then some (0, bs) else (getUnary bs).map fun r => (r.1 + 1, r.2)

theorem getUnary_replicate (k : ℕ) (rest : List UInt8) :
    getUnary (List.replicate k 1 ++ 0 :: rest) = some (k, rest) := by
  induction k with
  | zero => rfl
  | succ k ih =>
    rw [List.replicate_succ, List.cons_append, getUnary, if_neg (by decide), ih, Option.map_some]

/-- The number of bytes `nat` spends on a number. -/
def width (n : ℕ) : ℕ := n.log2 / 8 + 1

theorem lt_pow_width (n : ℕ) : n < 256 ^ width n := by
  have hlog : n < 2 ^ (n.log2 + 1) := Nat.lt_log2_self
  have hpow : (256 : ℕ) ^ width n = 2 ^ (8 * width n) := by
    rw [show (256 : ℕ) = 2 ^ 8 from rfl, ← Nat.pow_mul]
  rw [hpow]
  refine hlog.trans_le (Nat.pow_le_pow_right (by decide) ?_)
  rw [width]
  omega

/-- A natural number: its width in unary, then its bytes. -/
def nat : Serial ℕ where
  put n := List.replicate (width n) 1 ++ 0 :: leBytes (width n) n
  get bs := (getUnary bs).map fun r => (leNat (r.2.take r.1), r.2.drop r.1)
  get_put n rest := by
    have hlen : (leBytes (width n) n).length = width n := length_leBytes _ _
    rw [List.append_assoc, List.cons_append, getUnary_replicate, Option.map_some,
      List.take_left' hlen, List.drop_left' hlen, leNat_leBytes _ _ (lt_pow_width n)]

/-- Repeats a decoder. -/
def getMany (s : Serial α) : ℕ → List UInt8 → Option (List α × List UInt8)
  | 0, bs => some ([], bs)
  | n + 1, bs => (s.get bs).bind fun r => (getMany s n r.2).map fun r' => (r.1 :: r'.1, r'.2)

theorem getMany_flatMap (s : Serial α) (l : List α) (rest : List UInt8) :
    getMany s l.length (l.flatMap s.put ++ rest) = some (l, rest) := by
  induction l with
  | nil => rfl
  | cons a l ih =>
    rw [List.flatMap_cons, List.append_assoc, List.length_cons, getMany, s.get_put,
      Option.bind_some, ih, Option.map_some]

/-- A list: its length, then its elements. -/
def list (s : Serial α) : Serial (List α) where
  put l := nat.put l.length ++ l.flatMap s.put
  get bs := (nat.get bs).bind fun r => getMany s r.1 r.2
  get_put l rest := by
    rw [List.append_assoc, nat.get_put, Option.bind_some, getMany_flatMap]

/-- A byte string: its length, then its bytes. -/
def bytes : Serial (List UInt8) where
  put b := nat.put b.length ++ b
  get bs := (nat.get bs).map fun r => (r.2.take r.1, r.2.drop r.1)
  get_put b rest := by
    rw [List.append_assoc, nat.get_put, Option.map_some, List.take_left, List.drop_left]

/-- A byte string without its last zeros: both lengths, then the bytes. -/
def padded : Serial (List UInt8) where
  put b := nat.put b.length ++ bytes.put (b.rdropWhile (· = 0))
  get bs := (nat.get bs).bind fun r => (bytes.get r.2).map fun r' =>
    (r'.1 ++ List.replicate (r.1 - r'.1.length) 0, r'.2)
  get_put b rest := by
    rw [List.append_assoc, nat.get_put, Option.bind_some, bytes.get_put, Option.map_some]
    have hzeros : b.rtakeWhile (· = 0) =
        List.replicate (b.length - (b.rdropWhile (· = 0)).length) 0 := by
      refine List.eq_replicate_iff.mpr ⟨?_, fun x hx => ?_⟩
      · have hsplit : b.rdropWhile (· = 0) ++ b.rtakeWhile (· = 0) = b :=
          List.rdropWhile_append_rtakeWhile
        have hlen := congrArg List.length hsplit
        rw [List.length_append] at hlen
        omega
      · have hzero := List.mem_rtakeWhile_imp hx
        exact of_decide_eq_true hzero
    rw [← hzeros, List.rdropWhile_append_rtakeWhile]

/-- An integer: its sign, then its absolute value. -/
def int : Serial ℤ :=
  (sum nat nat).iso (Sum.elim Int.ofNat Int.negSucc)
    (fun z => match z with
      | .ofNat n => .inl n
      | .negSucc n => .inr n)
    (fun z => by cases z <;> rfl)

/-- A text, by the code points of its characters. -/
def text : Serial String :=
  (list (nat.iso Char.ofNat Char.toNat Char.ofNat_toNat)).iso String.ofList String.toList
    (fun _ => String.ofList_toList)

end Serial
