import Mathlib.Data.Nat.Log
import Mathlib.Data.List.Basic
import Mathlib.Tactic.NormNum

/-!
# The protobuf wire format

A message on the wire is a sequence of fields, each a number and a value: a
base-128 varint or a length-delimited byte string.  `encode` writes such a
sequence and `parse` reads it back.  The `…Field` functions are what a proto3
message contributes for a field of each kind (a default value contributes
nothing), and `values` collects what a sequence holds for one field number; the
round trip of a message type is then a computation with `values`.

The sizes are exact: `length_varint`, `length_encode_uintField`,
`length_encode_bytesField`.
-/

namespace Protobuf

open List

/-! ## Varints -/

/-- The number of bytes of a varint. -/
def varintLen (n : ℕ) : ℕ := n.log2 / 7 + 1

/-- A number in `k` groups of seven bits, lowest first, all but the last marked. -/
def varintGroups : ℕ → ℕ → List UInt8
  | 0, _ => []
  | 1, n => [UInt8.ofNat n]
  | k + 2, n => UInt8.ofNat (n % 128 + 128) :: varintGroups (k + 1) (n / 128)

/-- The base-128 varint of a number. -/
def varint (n : ℕ) : List UInt8 := varintGroups (varintLen n) n

/-- The number at the start of some bytes, and the bytes after it. -/
def getVarint : List UInt8 → Option (ℕ × List UInt8)
  | [] => none
  | b :: bs =>
    if b.toNat < 128 then some (b.toNat, bs)
    else (getVarint bs).map fun r => (b.toNat % 128 + 128 * r.1, r.2)

theorem lt_pow_varintLen (n : ℕ) : n < 128 ^ varintLen n := by
  have hlog : n < 2 ^ (n.log2 + 1) := Nat.lt_log2_self
  have hpow : (128 : ℕ) ^ varintLen n = 2 ^ (7 * varintLen n) := by
    rw [show (128 : ℕ) = 2 ^ 7 from rfl, ← Nat.pow_mul]
  rw [hpow]
  refine hlog.trans_le (Nat.pow_le_pow_right (by decide) ?_)
  rw [varintLen]
  omega

theorem length_varintGroups (k n : ℕ) : (varintGroups k n).length = k := by
  induction k generalizing n with
  | zero => rfl
  | succ k ih =>
    cases k with
    | zero => rfl
    | succ k => rw [varintGroups, length_cons, ih]

@[simp] theorem length_varint (n : ℕ) : (varint n).length = varintLen n :=
  length_varintGroups _ _

theorem getVarint_varintGroups {k n : ℕ} (h : n < 128 ^ (k + 1)) (rest : List UInt8) :
    getVarint (varintGroups (k + 1) n ++ rest) = some (n, rest) := by
  induction k generalizing n with
  | zero =>
    have hn : n < 128 := by simpa using h
    have hbyte : (UInt8.ofNat n).toNat = n := by
      rw [UInt8.toNat_ofNat', Nat.mod_eq_of_lt (by omega)]
    rw [varintGroups, singleton_append, getVarint, hbyte, if_pos hn]
  | succ k ih =>
    have hdiv : n / 128 < 128 ^ (k + 1) :=
      Nat.div_lt_of_lt_mul (by rw [pow_succ] at h; omega)
    have hbyte : (UInt8.ofNat (n % 128 + 128)).toNat = n % 128 + 128 := by
      rw [UInt8.toNat_ofNat', Nat.mod_eq_of_lt (by omega)]
    rw [varintGroups, cons_append, getVarint, hbyte, if_neg (by omega), ih hdiv,
      Option.map_some]
    have hmod : (n % 128 + 128) % 128 + 128 * (n / 128) = n := by omega
    rw [hmod]

theorem getVarint_varint (n : ℕ) (rest : List UInt8) :
    getVarint (varint n ++ rest) = some (n, rest) :=
  getVarint_varintGroups (lt_pow_varintLen n) rest

theorem varintLen_pos (n : ℕ) : 1 ≤ varintLen n := Nat.le_add_left _ _

/-- A number below `128 ^ k` takes at most `k` bytes. -/
theorem varintLen_le {k n : ℕ} (hk : 1 ≤ k) (h : n < 128 ^ k) : varintLen n ≤ k := by
  rw [varintLen]
  obtain rfl | hn := Nat.eq_zero_or_pos n
  · rw [Nat.log2_zero]
    omega
  · have hlog : 2 ^ n.log2 < 2 ^ (7 * k) := by
      refine (Nat.log2_self_le hn.ne').trans_lt ?_
      rwa [Nat.pow_mul]
    have := (Nat.pow_lt_pow_iff_right (by decide)).mp hlog
    omega

/-! ## Fields -/

/-- The value of a field. -/
inductive Value where
  | varint (n : ℕ)
  | bytes (b : List UInt8)
  deriving DecidableEq, Repr

/-- A field number and a value. -/
abbrev Field := ℕ × Value

/-- The wire type of a value. -/
def Value.wireType : Value → ℕ
  | .varint _ => 0
  | .bytes _ => 2

theorem Value.wireType_lt (v : Value) : v.wireType < 8 := by
  cases v <;> simp [Value.wireType]

/-- What follows the tag of a field. -/
def Value.payload : Value → List UInt8
  | .varint n => Protobuf.varint n
  | .bytes b => Protobuf.varint b.length ++ b

/-- The key of a field and its value. -/
def encodeField (f : Field) : List UInt8 := varint (f.1 * 8 + f.2.wireType) ++ f.2.payload

/-- The bytes of a message with the given fields. -/
def encode (fs : List Field) : List UInt8 := fs.flatMap encodeField

/-- Reads a value of a wire type. -/
def getValue (wireType : ℕ) (bs : List UInt8) : Option (Value × List UInt8) :=
  match wireType with
  | 0 => (getVarint bs).map fun r => (.varint r.1, r.2)
  | 2 => (getVarint bs).bind fun r =>
    if r.1 ≤ r.2.length then some (.bytes (r.2.take r.1), r.2.drop r.1) else none
  | _ => none

/-- Reads one field. -/
def getField (bs : List UInt8) : Option (Field × List UInt8) :=
  (getVarint bs).bind fun tag =>
    (getValue (tag.1 % 8) tag.2).map fun r => ((tag.1 / 8, r.1), r.2)

/-- Reads fields until the bytes end; every field takes a byte at least. -/
def parseFields : ℕ → List UInt8 → Option (List Field)
  | _, [] => some []
  | 0, _ :: _ => none
  | fuel + 1, b :: bs =>
    (getField (b :: bs)).bind fun r => (parseFields fuel r.2).map (r.1 :: ·)

/-- The fields of a message. -/
def parse (bs : List UInt8) : Option (List Field) := parseFields bs.length bs

theorem getValue_payload (v : Value) (rest : List UInt8) :
    getValue v.wireType (v.payload ++ rest) = some (v, rest) := by
  cases v with
  | varint n =>
    simp only [Value.wireType, Value.payload, getValue, getVarint_varint, Option.map_some]
  | bytes b =>
    have hle : b.length ≤ (b ++ rest).length := by
      rw [length_append]
      omega
    simp only [Value.wireType, Value.payload, getValue, append_assoc, getVarint_varint,
      Option.bind_some, if_pos hle, take_left, drop_left]

theorem getField_encodeField (f : Field) (rest : List UInt8) :
    getField (encodeField f ++ rest) = some (f, rest) := by
  have hwire := f.2.wireType_lt
  rw [encodeField, append_assoc, getField, getVarint_varint, Option.bind_some]
  simp only [show (f.1 * 8 + f.2.wireType) % 8 = f.2.wireType by omega,
    show (f.1 * 8 + f.2.wireType) / 8 = f.1 by omega, getValue_payload, Option.map_some]

theorem encodeField_ne_nil (f : Field) : encodeField f ≠ [] := by
  have hpos := varintLen_pos (f.1 * 8 + f.2.wireType)
  intro h
  have hlen := congrArg List.length h
  rw [encodeField, length_append, length_varint, length_nil] at hlen
  omega

theorem parseFields_encode (fs : List Field) {fuel : ℕ} (h : (encode fs).length ≤ fuel) :
    parseFields fuel (encode fs) = some fs := by
  induction fs generalizing fuel with
  | nil => cases fuel <;> rfl
  | cons f fs ih =>
    obtain ⟨b, bs, hbs⟩ := exists_cons_of_ne_nil (encodeField_ne_nil f)
    have henc : encode (f :: fs) = b :: (bs ++ encode fs) := by
      rw [encode, flatMap_cons, hbs]
      rfl
    rw [henc, length_cons, length_append] at h
    obtain ⟨fuel, rfl⟩ := Nat.exists_eq_add_of_le' (show 1 ≤ fuel by omega)
    have hfield : getField (b :: (bs ++ encode fs)) = some (f, encode fs) := by
      rw [← cons_append, ← hbs, getField_encodeField]
    rw [henc, parseFields, hfield, Option.bind_some, ih (by omega), Option.map_some]

/-- A message that was written reads back as its fields. -/
theorem parse_encode (fs : List Field) : parse (encode fs) = some fs :=
  parseFields_encode fs le_rfl

@[simp] theorem encode_append (fs gs : List Field) : encode (fs ++ gs) = encode fs ++ encode gs :=
  flatMap_append

/-! ## The fields of a message -/

/-- An unsigned field without presence. -/
def uintField (num n : ℕ) : List Field := if n = 0 then [] else [(num, .varint n)]

/-- A bytes field without presence. -/
def bytesField (num : ℕ) (b : List UInt8) : List Field := if b = [] then [] else [(num, .bytes b)]

/-- An optional unsigned field. -/
def optionalField (num : ℕ) (o : Option ℕ) : List Field := o.toList.map fun n => (num, .varint n)

/-- A repeated field of messages or byte strings. -/
def repeatedField (num : ℕ) (l : List (List UInt8)) : List Field := l.map fun b => (num, .bytes b)

/-- What a sequence of fields holds for a field number. -/
def values (num : ℕ) (fs : List Field) : List Value :=
  fs.filterMap fun f => if f.1 = num then some f.2 else none

/-- The value of an unsigned field: the last one counts. -/
def uintOf (vs : List Value) : ℕ :=
  match vs.getLast? with
  | some (.varint n) => n
  | _ => 0

/-- The value of a bytes field: the last one counts. -/
def bytesOf (vs : List Value) : List UInt8 :=
  match vs.getLast? with
  | some (.bytes b) => b
  | _ => []

/-- The value of an optional unsigned field. -/
def optionalOf (vs : List Value) : Option ℕ :=
  match vs.getLast? with
  | some (.varint n) => some n
  | _ => none

/-- The values of a repeated field. -/
def repeatedOf (vs : List Value) : List (List UInt8) :=
  vs.filterMap fun v => match v with
    | .bytes b => some b
    | .varint _ => none

@[simp] theorem values_append (num : ℕ) (fs gs : List Field) :
    values num (fs ++ gs) = values num fs ++ values num gs := filterMap_append

section values

variable {num m : ℕ}

theorem values_of_forall_ne {fs : List Field} (h : ∀ f ∈ fs, f.1 ≠ num) : values num fs = [] := by
  rw [values, filterMap_eq_nil_iff]
  exact fun f hf => if_neg (h f hf)

theorem values_uintField_of_ne (h : m ≠ num) (n : ℕ) : values num (uintField m n) = [] := by
  refine values_of_forall_ne fun f hf => ?_
  rw [uintField] at hf
  split_ifs at hf with hn
  · cases hf
  · rw [mem_singleton] at hf
    rwa [hf]

theorem values_bytesField_of_ne (h : m ≠ num) (b : List UInt8) :
    values num (bytesField m b) = [] := by
  refine values_of_forall_ne fun f hf => ?_
  rw [bytesField] at hf
  split_ifs at hf with hb
  · cases hf
  · rw [mem_singleton] at hf
    rwa [hf]

theorem values_optionalField_of_ne (h : m ≠ num) (o : Option ℕ) :
    values num (optionalField m o) = [] := by
  refine values_of_forall_ne fun f hf => ?_
  obtain ⟨n, -, rfl⟩ := mem_map.mp hf
  exact h

theorem values_repeatedField_of_ne (h : m ≠ num) (l : List (List UInt8)) :
    values num (repeatedField m l) = [] := by
  refine values_of_forall_ne fun f hf => ?_
  obtain ⟨b, -, rfl⟩ := mem_map.mp hf
  exact h

@[simp] theorem uintOf_values_uintField (n : ℕ) : uintOf (values num (uintField num n)) = n := by
  rw [uintField]
  split_ifs with hn
  · exact hn.symm
  · simp [values, uintOf]

@[simp] theorem bytesOf_values_bytesField (b : List UInt8) :
    bytesOf (values num (bytesField num b)) = b := by
  rw [bytesField]
  split_ifs with hb
  · exact hb.symm
  · simp [values, bytesOf]

@[simp] theorem optionalOf_values_optionalField (o : Option ℕ) :
    optionalOf (values num (optionalField num o)) = o := by
  cases o <;> simp [values, optionalOf, optionalField]

@[simp] theorem repeatedOf_values_repeatedField (l : List (List UInt8)) :
    repeatedOf (values num (repeatedField num l)) = l := by
  rw [values, repeatedOf, repeatedField, filterMap_map, filterMap_filterMap]
  simp

end values

/-! ## Sizes -/

theorem length_encode_uintField (num n : ℕ) :
    (encode (uintField num n)).length =
      if n = 0 then 0 else varintLen (num * 8) + varintLen n := by
  rw [uintField]
  split_ifs with hn
  · rfl
  · rw [encode, flatMap_singleton, encodeField, length_append, length_varint]
    exact congrArg _ (length_varint n)

theorem length_encodeField_bytes (num : ℕ) (b : List UInt8) :
    (encodeField (num, .bytes b)).length =
      varintLen (num * 8 + 2) + (varintLen b.length + b.length) := by
  rw [encodeField, length_append, length_varint]
  change _ + (varint b.length ++ b).length = _
  rw [length_append, length_varint]
  rfl

theorem length_encode_bytesField (num : ℕ) (b : List UInt8) :
    (encode (bytesField num b)).length =
      if b = [] then 0 else varintLen (num * 8 + 2) + (varintLen b.length + b.length) := by
  rw [bytesField]
  split_ifs with hb
  · rfl
  · rw [encode, flatMap_singleton, length_encodeField_bytes]

theorem length_encode_optionalField (num : ℕ) (o : Option ℕ) :
    (encode (optionalField num o)).length =
      o.elim 0 fun n => varintLen (num * 8) + varintLen n := by
  cases o with
  | none => rfl
  | some n =>
    change (encode [(num, .varint n)]).length = _
    rw [encode, flatMap_singleton, encodeField, length_append, length_varint]
    exact congrArg _ (length_varint n)

theorem length_encode_repeatedField (num : ℕ) (l : List (List UInt8)) :
    (encode (repeatedField num l)).length =
      (l.map fun b => varintLen (num * 8 + 2) + (varintLen b.length + b.length)).sum := by
  rw [encode, repeatedField, flatMap_map, length_flatMap]
  simp only [length_encodeField_bytes]

end Protobuf
