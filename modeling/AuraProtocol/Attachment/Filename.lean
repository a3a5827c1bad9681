import AuraProtocol.Core
import AuraProtocol.Lib.Fallible
import Mathlib.Data.List.Infix

/-!
# File names of attachments

`sanitize_filename` and `validate_filename`.  A name is the list of its
characters; sizes are those of its UTF-8 encoding.  Sanitising is a pipeline, and
each stage keeps what the stages before it achieved: the characters stay clean,
no two dots are adjacent, and a trimmed name does not end in a dot or a space.

The last stage puts an underscore before a reserved name.  The name may have
filled the size limit already, so this is where the pipeline can leave its own
bounds (`validate_sanitizeFilename_iff`).
-/

namespace AuraProtocol.Attachment

open Fallible List

variable {name : List Char} {ch : Char}

def maxAttachmentFilenameBytes : ℕ := 255

/-- `char::to_uppercase`, of which only the ASCII part is used. -/
structure CaseMap where
  upper : Char → List Char
  upper_of_ascii : ∀ ch, ch.val < 128 → upper ch = [ch.toUpper]

/-- The NUL character. -/
def nul : Char := Char.ofNat 0

/-- The backslash. -/
def backslash : Char := Char.ofNat 0x5C

/-- The UTF-8 encoding of a name. -/
def utf8 (name : List Char) : Bytes := name.flatMap String.utf8EncodeChar

/-- `str::len`. -/
def byteLen (name : List Char) : ℕ := (utf8 name).length

/-- `char::is_control`: the characters of the general category `Cc`. -/
def isControl (ch : Char) : Bool :=
  decide (ch.val < 0x20) || decide (0x7F ≤ ch.val) && decide (ch.val < 0xA0)

/-- The characters a name must not end with. -/
def isTrailing (ch : Char) : Bool := ch == ' ' || ch == '.'

def windowsReservedNames : List (List Char) :=
  ["CON", "PRN", "AUX", "NUL", "COM1", "COM2", "COM3", "COM4", "COM5", "COM6", "COM7", "COM8",
    "COM9", "LPT1", "LPT2", "LPT3", "LPT4", "LPT5", "LPT6", "LPT7", "LPT8", "LPT9"].map
      String.toList

def isWindowsReserved (u : CaseMap) (name : List Char) : Bool :=
  let normalized := name.rdropWhile isTrailing
  let stem := normalized.takeWhile (· ≠ '.')
  decide (stem.flatMap u.upper ∈ windowsReservedNames)

def validateFilename (u : CaseMap) (name : List Char) : Except ProtocolError Unit := do
  require (name ≠ []) (.invalidInput "Filename must not be empty")
  require (byteLen name ≤ maxAttachmentFilenameBytes) (.invalidInput "Filename exceeds max length")
  require (0 ∉ utf8 name) (.invalidInput "Filename must not contain NUL bytes")
  require (name.any isControl = false)
    (.invalidInput "Filename must not contain control characters")
  require ('/' ∉ name ∧ backslash ∉ name)
    (.invalidInput "Filename must not contain path separators")
  require (name ≠ ['.'] ∧ name ≠ ['.', '.']) (.invalidInput "Filename must not be '.' or '..'")
  require (¬ ['.', '.'] <:+: name) (.invalidInput "Filename must not contain '..' sequences")
  require (name.getLast? ≠ some ' ' ∧ name.getLast? ≠ some '.')
    (.invalidInput "Filename must not end with '.' or space")
  require (isWindowsReserved u name = false)
    (.invalidInput "Filename must not be a Windows reserved name")

/-! ## Sanitising -/

/-- Drops control characters and replaces path separators. -/
def cleanChars (name : List Char) : List Char :=
  (name.filter fun ch => !(isControl ch || ch == nul)).map fun ch =>
    if ch = '/' ∨ ch = backslash then '_' else ch

/-- `replace("..", "_")`. -/
def replaceDots : List Char → List Char
  | [] => []
  | [ch] => [ch]
  | ch :: ch' :: rest =>
    if ch = '.' ∧ ch' = '.' then '_' :: replaceDots rest else ch :: replaceDots (ch' :: rest)

/-- `str::is_char_boundary`. -/
def isCharBoundary : List Char → ℕ → Bool
  | _, 0 => true
  | [], _ + 1 => false
  | ch :: rest, n + 1 =>
    if n + 1 < ch.utf8Size then false else isCharBoundary rest (n + 1 - ch.utf8Size)

/-- The loop that looks for the last boundary at or before a position. -/
def boundaryBelow (name : List Char) : ℕ → ℕ
  | 0 => 0
  | n + 1 => if isCharBoundary name (n + 1) then n + 1 else boundaryBelow name n

/-- `String::truncate`, at a boundary. -/
def truncate : List Char → ℕ → List Char
  | [], _ => []
  | ch :: rest, n => if ch.utf8Size ≤ n then ch :: truncate rest (n - ch.utf8Size) else []

/-- Cuts a name that is too long. -/
def limitLength (name : List Char) : List Char :=
  if maxAttachmentFilenameBytes < byteLen name then
    truncate name (boundaryBelow name maxAttachmentFilenameBytes)
  else name

/-- A name after all stages but the last. -/
def trimmed (name : List Char) : List Char :=
  let result := (limitLength (replaceDots (cleanChars name))).rdropWhile isTrailing
  if result = ['.'] ∨ result = ['.', '.'] then [] else result

def sanitizeFilename (u : CaseMap) (name : List Char) : List Char :=
  let result := trimmed name
  if result = [] then ['_']
  else if isWindowsReserved u result then '_' :: result else result

/-! ## What the stages achieve -/

/-- A character that may stand anywhere in a name. -/
def Clean (ch : Char) : Prop := isControl ch = false ∧ ch ≠ '/' ∧ ch ≠ backslash

theorem clean_underscore : Clean '_' := by
  refine ⟨by decide, by decide, by decide⟩

theorem clean_of_mem_cleanChars (h : ch ∈ cleanChars name) : Clean ch := by
  obtain ⟨ch', hmem, rfl⟩ := mem_map.mp h
  have hkept := (mem_filter.mp hmem).2
  split_ifs with hsep
  · exact clean_underscore
  · rw [Bool.not_eq_true', Bool.or_eq_false_iff] at hkept
    exact ⟨hkept.1, not_or.mp hsep⟩

/-- Replacing dots only puts in underscores. -/
theorem mem_of_mem_replaceDots (h : ch ∈ replaceDots name) : ch = '_' ∨ ch ∈ name := by
  fun_induction replaceDots name with
  | case1 => exact .inr h
  | case2 => exact .inr h
  | case3 ch₁ ch₂ rest _ ih =>
    rcases mem_cons.mp h with rfl | h
    · exact .inl rfl
    · exact (ih h).imp_right fun h => mem_cons_of_mem _ (mem_cons_of_mem _ h)
  | case4 ch₁ ch₂ rest _ ih =>
    rcases mem_cons.mp h with rfl | h
    · exact .inr mem_cons_self
    · exact (ih h).imp_right (mem_cons_of_mem _)

/-- Replacing dots never lets a dot come first that was not first. -/
theorem head?_replaceDots (h : (replaceDots name).head? = some '.') : name.head? = some '.' := by
  fun_cases replaceDots name with
  | case1 => exact h
  | case2 => exact h
  | case3 ch₁ ch₂ rest hdots => exact congrArg some hdots.1
  | case4 ch₁ ch₂ rest hne =>
    rw [replaceDots, if_neg hne] at h
    exact h

theorem dots_prefix_cons {rest : List Char} :
    ['.', '.'] <+: ch :: rest ↔ ch = '.' ∧ rest.head? = some '.' := by
  cases rest <;> simp [cons_prefix_cons, eq_comm]

/-- After the replacement no two dots are adjacent. -/
theorem not_dots_infix_replaceDots (name : List Char) : ¬ ['.', '.'] <:+: replaceDots name := by
  fun_induction replaceDots name with
  | case1 => decide
  | case2 ch =>
    rw [infix_cons_iff, dots_prefix_cons]
    rintro (⟨-, h⟩ | h)
    · cases h
    · exact absurd h (by decide)
  | case3 ch₁ ch₂ rest _ ih =>
    rw [infix_cons_iff, dots_prefix_cons]
    rintro (⟨h, -⟩ | h)
    · exact absurd h (by decide)
    · exact ih h
  | case4 ch₁ ch₂ rest hne ih =>
    rw [infix_cons_iff, dots_prefix_cons]
    rintro (⟨h, h'⟩ | h)
    · exact hne ⟨h, Option.some.inj (head?_replaceDots h')⟩
    · exact ih h

@[simp] theorem byteLen_cons (ch : Char) (rest : List Char) :
    byteLen (ch :: rest) = ch.utf8Size + byteLen rest := by
  rw [byteLen, utf8, flatMap_cons, length_append, String.length_utf8EncodeChar]
  rfl

theorem byteLen_le_of_isPrefix {a b : List Char} (h : a <+: b) : byteLen a ≤ byteLen b := by
  obtain ⟨rest, rfl⟩ := h
  rw [byteLen, byteLen, utf8, utf8, flatMap_append, length_append]
  exact Nat.le_add_right _ _

theorem truncate_isPrefix (name : List Char) (n : ℕ) : truncate name n <+: name := by
  induction name generalizing n with
  | nil => exact prefix_rfl
  | cons ch rest ih =>
    rw [truncate]
    split_ifs
    · exact (prefix_cons_inj ch).mpr (ih _)
    · exact nil_prefix

theorem byteLen_truncate_le (name : List Char) (n : ℕ) : byteLen (truncate name n) ≤ n := by
  induction name generalizing n with
  | nil => exact Nat.zero_le n
  | cons ch rest ih =>
    rw [truncate]
    split_ifs with hle
    · have := ih (n - ch.utf8Size)
      rw [byteLen_cons]
      omega
    · exact Nat.zero_le n

theorem boundaryBelow_le (name : List Char) (n : ℕ) : boundaryBelow name n ≤ n := by
  induction n with
  | zero => exact le_rfl
  | succ n ih =>
    rw [boundaryBelow]
    split_ifs
    · exact le_rfl
    · exact ih.trans (Nat.le_succ n)

theorem limitLength_isPrefix (name : List Char) : limitLength name <+: name := by
  rw [limitLength]
  split_ifs
  · exact truncate_isPrefix _ _
  · exact prefix_rfl

theorem byteLen_limitLength_le (name : List Char) :
    byteLen (limitLength name) ≤ maxAttachmentFilenameBytes := by
  rw [limitLength]
  split_ifs with hlong
  · exact (byteLen_truncate_le _ _).trans (boundaryBelow_le _ _)
  · exact not_lt.mp hlong

/-- What the stages before the last one achieve. -/
structure Tidy (name : List Char) : Prop where
  clean : ∀ ch ∈ name, Clean ch
  dots : ¬ ['.', '.'] <:+: name
  trailing : ∀ ch ∈ name.getLast?, isTrailing ch = false
  length : byteLen name ≤ maxAttachmentFilenameBytes

theorem tidy_underscore : Tidy ['_'] where
  clean ch h := mem_singleton.mp h ▸ clean_underscore
  dots := by decide
  trailing ch h := by
    rw [List.getLast?_singleton, Option.mem_some] at h
    exact h ▸ by decide
  length := by decide

theorem trimmed_isPrefix (name : List Char) : trimmed name <+: replaceDots (cleanChars name) := by
  rw [trimmed]
  split_ifs
  · exact nil_prefix
  · exact (List.rdropWhile_prefix _ _).trans (limitLength_isPrefix _)

theorem tidy_trimmed (name : List Char) : Tidy (trimmed name) := by
  have hpre := trimmed_isPrefix name
  refine ⟨fun ch hmem => ?_, fun hdots => ?_, fun ch hlast => ?_, ?_⟩
  · rcases mem_of_mem_replaceDots (hpre.subset hmem) with rfl | hmem
    · exact clean_underscore
    · exact clean_of_mem_cleanChars hmem
  · exact not_dots_infix_replaceDots _ (hdots.trans hpre.isInfix)
  · rw [trimmed] at hlast
    split_ifs at hlast
    · cases hlast
    · obtain ⟨hne, rfl⟩ := mem_getLast?_eq_getLast hlast
      exact Bool.eq_false_iff.mpr (rdropWhile_last_not _ _ hne)
  · rw [trimmed]
    split_ifs
    · exact Nat.zero_le _
    · exact (byteLen_le_of_isPrefix (List.rdropWhile_prefix _ _)).trans (byteLen_limitLength_le _)

/-- An underscore in front keeps a name tidy, but takes a byte. -/
theorem Tidy.cons_underscore (h : Tidy name) (hne : name ≠ [])
    (hlen : byteLen ('_' :: name) ≤ maxAttachmentFilenameBytes) : Tidy ('_' :: name) where
  clean ch hmem := by
    rcases mem_cons.mp hmem with rfl | hmem
    · exact clean_underscore
    · exact h.clean ch hmem
  dots := by
    rw [infix_cons_iff, dots_prefix_cons]
    rintro (⟨hch, -⟩ | hdots)
    · exact absurd hch (by decide)
    · exact h.dots hdots
  trailing ch hlast := by
    rw [List.getLast?_cons_of_ne_nil hne] at hlast
    exact h.trailing ch hlast
  length := hlen

/-- UTF-8 has no zero byte but that of NUL, which is a control character. -/
theorem zero_notMem_utf8EncodeChar (h : isControl ch = false) :
    (0 : UInt8) ∉ String.utf8EncodeChar ch := by
  have hval : 0x20 ≤ ch.val.toNat := by
    rw [isControl, Bool.or_eq_false_iff] at h
    exact not_lt.mp fun hlt => of_decide_eq_false h.1 hlt
  have hbyte : ∀ n, n < 256 → n ≠ 0 → (0 : UInt8) ≠ UInt8.ofNat n := by
    intro n hlt hn hzero
    have := congrArg UInt8.toNat hzero
    rw [UInt8.toNat_ofNat', Nat.mod_eq_of_lt (by omega)] at this
    exact hn this.symm
  rw [String.utf8EncodeChar]
  split_ifs
  all_goals
    simp only [mem_cons, not_mem_nil, or_false, not_or]
  · exact hbyte _ (by omega) (by omega)
  · exact ⟨hbyte _ (by omega) (by omega), hbyte _ (by omega) (by omega)⟩
  · exact ⟨hbyte _ (by omega) (by omega), hbyte _ (by omega) (by omega),
      hbyte _ (by omega) (by omega)⟩
  · exact ⟨hbyte _ (by omega) (by omega), hbyte _ (by omega) (by omega),
      hbyte _ (by omega) (by omega), hbyte _ (by omega) (by omega)⟩

/-- The valid names are the tidy ones that are not empty and not reserved. -/
theorem validateFilename_eq_ok {u : CaseMap} :
    validateFilename u name = .ok () ↔
      Tidy name ∧ name ≠ [] ∧ isWindowsReserved u name = false := by
  simp only [validateFilename, except_seq_eq_ok, require_eq_ok]
  constructor
  · rintro ⟨hne, hlen, -, hcontrol, hseparators, -, hdots, hlast, hres⟩
    refine ⟨⟨fun ch hch => ⟨?_, ?_, ?_⟩, hdots, fun ch hch => ?_, hlen⟩, hne, hres⟩
    · exact Bool.eq_false_iff.mpr (any_eq_false.mp hcontrol ch hch)
    · exact fun h => hseparators.1 (h ▸ hch)
    · exact fun h => hseparators.2 (h ▸ hch)
    · rw [isTrailing, Bool.or_eq_false_iff, beq_eq_false_iff_ne, beq_eq_false_iff_ne]
      exact ⟨fun h => hlast.1 (h ▸ hch), fun h => hlast.2 (h ▸ hch)⟩
  · rintro ⟨h, hne, hres⟩
    have hdots : name ≠ ['.'] ∧ name ≠ ['.', '.'] := by
      constructor
      · rintro rfl
        exact absurd (h.trailing '.' rfl) (by decide)
      · rintro rfl
        exact h.dots infix_rfl
    have hnul : (0 : UInt8) ∉ utf8 name := by
      intro hmem
      obtain ⟨ch, hch, hzero⟩ := mem_flatMap.mp hmem
      exact zero_notMem_utf8EncodeChar (h.clean ch hch).1 hzero
    refine ⟨hne, h.length, hnul,
      any_eq_false.mpr fun ch hch => Bool.eq_false_iff.mp (h.clean ch hch).1,
      ⟨fun hmem => ?_, fun hmem => ?_⟩, hdots, h.dots, ⟨fun hlast => ?_, fun hlast => ?_⟩, hres⟩
    · exact (h.clean _ hmem).2.1 rfl
    · exact (h.clean _ hmem).2.2 rfl
    · exact absurd (h.trailing ' ' hlast) (by decide)
    · exact absurd (h.trailing '.' hlast) (by decide)

/-- No reserved name starts with an underscore. -/
theorem isWindowsReserved_underscore (u : CaseMap) (name : List Char) :
    isWindowsReserved u ('_' :: name) = false := by
  have hupper : u.upper '_' = ['_'] := u.upper_of_ascii '_' (by decide)
  obtain ⟨rest, hrest⟩ : ∃ rest, ('_' :: name).rdropWhile isTrailing = '_' :: rest := by
    rw [List.rdropWhile, reverse_cons, dropWhile_append]
    split_ifs
    · exact ⟨[], by decide⟩
    · exact ⟨((name.reverse).dropWhile isTrailing).reverse, by simp⟩
  have hhead : ∀ r ∈ windowsReservedNames, r.head? ≠ some '_' := by decide
  rw [isWindowsReserved, decide_eq_false_iff_not, hrest,
    takeWhile_cons_of_pos (by decide), flatMap_cons, hupper]
  exact fun hmem => hhead _ hmem rfl

/-- A sanitised name is valid exactly if the stages before the last one did not leave a reserved
name that fills the size limit. -/
theorem validate_sanitizeFilename_iff (u : CaseMap) (name : List Char) :
    validateFilename u (sanitizeFilename u name) = .ok () ↔
      ¬ (isWindowsReserved u (trimmed name) = true ∧
        byteLen (trimmed name) = maxAttachmentFilenameBytes) := by
  have htidy := tidy_trimmed name
  rw [sanitizeFilename]
  split_ifs with hempty hres
  · -- nothing is left: the name is a single underscore
    refine iff_of_true ?_ fun h ↦ absurd h.2 ?_
    · exact validateFilename_eq_ok.mpr
        ⟨tidy_underscore, by decide, isWindowsReserved_underscore u []⟩
    · rw [hempty]
      decide
  · have hlen : byteLen ('_' :: trimmed name) = 1 + byteLen (trimmed name) := byteLen_cons _ _
    constructor
    · rintro hvalid ⟨-, hfull⟩
      have := (validateFilename_eq_ok.mp hvalid).1.length
      omega
    · intro hshort
      have hne : byteLen (trimmed name) ≠ maxAttachmentFilenameBytes := fun h ↦ hshort ⟨hres, h⟩
      have hle := htidy.length
      refine validateFilename_eq_ok.mpr ⟨htidy.cons_underscore hempty (by omega),
        cons_ne_nil _ _, isWindowsReserved_underscore u _⟩
  · refine iff_of_true ?_ fun h ↦ hres h.1
    exact validateFilename_eq_ok.mpr ⟨htidy, hempty, Bool.eq_false_iff.mpr hres⟩

/-! ## Names that are left alone -/

theorem replaceDots_of_no_dots (h : ¬ ['.', '.'] <:+: name) : replaceDots name = name := by
  fun_induction replaceDots name with
  | case1 => rfl
  | case2 => rfl
  | case3 ch ch' rest hdots =>
    obtain ⟨rfl, rfl⟩ := hdots
    exact absurd ⟨[], rest, rfl⟩ h
  | case4 ch ch' rest _ ih =>
    rw [infix_cons_iff, not_or] at h
    rw [ih h.2]

theorem Tidy.trimmed_eq (h : Tidy name) : trimmed name = name := by
  have hclean : cleanChars name = name := by
    rw [cleanChars, filter_eq_self.mpr]
    · refine (map_congr_left fun ch hch => if_neg ?_).trans (map_id name)
      exact not_or.mpr (h.clean ch hch).2
    · intro ch hch
      have hcontrol := (h.clean ch hch).1
      have hnul : ch ≠ nul := by
        rintro rfl
        cases hcontrol
      simp [hcontrol, hnul]
  have htrailing : name.rdropWhile isTrailing = name := by
    refine rdropWhile_eq_self_iff.mpr fun hne => ?_
    rw [h.trailing _ (List.getLast?_eq_getLast_of_ne_nil hne)]
    exact Bool.false_ne_true
  rw [trimmed, hclean, replaceDots_of_no_dots h.dots, limitLength, if_neg h.length.not_gt, htrailing]
  refine if_neg ?_
  rintro (rfl | rfl)
  · exact absurd (h.trailing '.' rfl) (by decide)
  · exact h.dots infix_rfl

/-- What an underscore in front of a name leaves of it still starts with the underscore. -/
theorem trimmed_cons_underscore (name : List Char) :
    trimmed ('_' :: name) = [] ∨ ∃ rest, trimmed ('_' :: name) = '_' :: rest := by
  have hstart : ∃ rest, replaceDots (cleanChars ('_' :: name)) = '_' :: rest := by
    have hcons : cleanChars ('_' :: name) = '_' :: cleanChars name := rfl
    rw [hcons]
    cases cleanChars name with
    | nil => exact ⟨_, rfl⟩
    | cons ch rest => exact ⟨_, rfl⟩
  obtain ⟨rest, hrest⟩ := hstart
  have hpre := trimmed_isPrefix ('_' :: name)
  rw [hrest] at hpre
  rcases prefix_cons_iff.mp hpre with hnil | ⟨t, ht, -⟩
  · exact .inl hnil
  · exact .inr ⟨t, ht⟩

/-- Sanitising changes exactly the names that are not valid. -/
theorem sanitizeFilename_eq_self_iff (u : CaseMap) (name : List Char) :
    sanitizeFilename u name = name ↔ validateFilename u name = .ok () := by
  rw [validateFilename_eq_ok]
  constructor
  · intro h
    have htidy := tidy_trimmed name
    rw [sanitizeFilename] at h
    split_ifs at h with hempty hres
    · exact h ▸ ⟨tidy_underscore, by decide, isWindowsReserved_underscore u []⟩
    · -- the name would start with the underscore that was put in front of it
      rcases trimmed_cons_underscore (trimmed name) with hnil | ⟨rest, hrest⟩
      · exact absurd (h ▸ hnil) hempty
      · rw [h] at hrest
        rw [hrest, isWindowsReserved_underscore] at hres
        cases hres
    · rw [h] at htidy hempty hres
      exact ⟨htidy, hempty, Bool.eq_false_iff.mpr hres⟩
  · rintro ⟨htidy, hne, hres⟩
    rw [sanitizeFilename, htidy.trimmed_eq, if_neg hne, hres]
    rfl

/-! ## A name that is not sanitised -/

/-- Uppercase of the ASCII letters. -/
def CaseMap.ascii : CaseMap where
  upper ch := [ch.toUpper]
  upper_of_ascii _ _ := rfl

/-- `CON.aaa…` with as many letters as fit. -/
def longReserved : List Char := "CON.".toList ++ List.replicate 251 'a'

/-- The sanitised form of `longReserved` has 256 bytes. -/
theorem validate_sanitizeFilename_longReserved :
    validateFilename .ascii (sanitizeFilename .ascii longReserved) =
      .error (.invalidInput "Filename exceeds max length") := by
  decide +kernel

end AuraProtocol.Attachment
