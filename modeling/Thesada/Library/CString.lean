import Mathlib.Data.List.TakeWhile

/-!
# C strings as character lists

A NUL-terminated string is the list of its characters before the terminator, so
reading the terminator is reaching the end of the list. Scans that stop at a class
of characters are `List.takeWhile` and `List.dropWhile`. ASCII case folding is
`Char.toLower`, which changes `A` to `Z` only.
-/

namespace CString

/-- A NUL-terminated string without its terminator. -/
abbrev Str := List Char

/-- What a reader of a NUL-terminated string sees of a text. -/
def cstr (text : Str) : Str := text.takeWhile (· ≠ '\x00')

@[simp] theorem cstr_cstr (text : Str) : cstr (cstr text) = cstr text :=
  List.takeWhile_idem

theorem cstr_eq_self {text : Str} (plain : ∀ c ∈ text, c ≠ '\x00') : cstr text = text :=
  List.takeWhile_eq_self_iff.mpr fun c mem => decide_eq_true (plain c mem)

theorem nul_notMem_cstr (text : Str) : '\x00' ∉ cstr text := by
  intro mem
  have kept := List.mem_takeWhile_imp mem
  exact absurd rfl (of_decide_eq_true kept)

/-- `strcasecmp(a, b) == 0`: equal up to ASCII case. -/
def strcaseeq (a b : Str) : Bool := a.map Char.toLower == b.map Char.toLower

theorem strcaseeq_iff {a b : Str} :
    strcaseeq a b = true ↔ a.map Char.toLower = b.map Char.toLower := by
  simp [strcaseeq]

/-- The value of one decimal digit. -/
def digitValue (c : Char) : Nat := c.toNat - 48

/-- `strstr`: the text from the first occurrence of `needle`. -/
def strstr (needle : Str) : Str → Option Str
  | [] => if needle.isEmpty then some [] else none
  | c :: rest => if needle.isPrefixOf (c :: rest) then some (c :: rest) else strstr needle rest

/-! ## Numbers -/

/-- `isspace` in the C locale. -/
def isSpace (c : Char) : Bool :=
  c == ' ' || c == '\t' || c == '\n' || c == '\x0b' || c == '\x0c' || c == '\r'

/-- The number a string of decimal digits spells. -/
def decimal (digits : Str) : Nat := digits.foldl (fun n c => 10 * n + digitValue c) 0

/-- A digit is told by its value, and has no case. -/
theorem digit_back {c : Char} (digit : c.isDigit = true) :
    digitValue c ≤ 9 ∧ Nat.digitChar (digitValue c) = c ∧ c.toLower = c := by
  have each : ∀ n : Fin 10, Nat.digitChar n = Char.ofNat (48 + n) ∧
      (Char.ofNat (48 + n)).toLower = Char.ofNat (48 + n) := by decide +kernel
  simp only [Char.isDigit, Bool.and_eq_true, decide_eq_true_eq, ge_iff_le] at digit
  have low : 48 ≤ c.toNat := digit.1
  have high : c.toNat ≤ 57 := digit.2
  have value : digitValue c = c.toNat - 48 := rfl
  have back : 48 + (c.toNat - 48) = c.toNat := by omega
  have found := each ⟨c.toNat - 48, by omega⟩
  simp only [back, Char.ofNat_toNat] at found
  rw [value]
  exact ⟨by omega, found⟩

theorem digitValue_le {c : Char} (digit : c.isDigit = true) : digitValue c ≤ 9 :=
  (digit_back digit).1

theorem decimal_concat (digits : Str) (c : Char) :
    decimal (digits ++ [c]) = 10 * decimal digits + digitValue c := by
  rw [decimal, List.foldl_append]
  rfl

theorem isSpace_of_digit {c : Char} (digit : c.isDigit = true) : isSpace c = false := by
  by_contra space
  simp only [isSpace, Bool.not_eq_false, Bool.or_eq_true, beq_iff_eq] at space
  obtain ((((rfl | rfl) | rfl) | rfl) | rfl) | rfl := space
  all_goals exact absurd digit (by decide)

/-- A dot ends a run of digits. -/
theorem split_dot {digits rest : Str} (plain : ∀ c ∈ digits, c.isDigit = true) :
    (digits ++ '.' :: rest).takeWhile Char.isDigit = digits ∧
      (digits ++ '.' :: rest).dropWhile Char.isDigit = '.' :: rest := by
  constructor
  · rw [List.takeWhile_append_of_pos plain, List.takeWhile_cons_of_neg (by decide),
      List.append_nil]
  · rw [List.dropWhile_append_of_pos plain, List.dropWhile_cons_of_neg (by decide)]

/-- A leading sign: whether it is a minus, and what follows it. -/
def sign : Str → Bool × Str
  | '-' :: rest => (true, rest)
  | '+' :: rest => (false, rest)
  | rest => (false, rest)

/-- The value of a 32-bit `long` closest to `n`. -/
def clampLong (n : Int) : Int := max (-2147483648) (min n 2147483647)

/-- `strtol(s, &end, 10)` with a 32-bit `long`: the value and the text at `end`. Without
digits nothing is consumed, not even the white space. -/
def strtol (s : Str) : Int × Str :=
  let (negative, body) := sign (s.dropWhile isSpace)
  let digits := body.takeWhile Char.isDigit
  if digits.isEmpty then (0, s)
  else (clampLong (if negative then -decimal digits else decimal digits),
    body.dropWhile Char.isDigit)

/-- Digits behind white space are read up to their end. -/
theorem strtol_run {lead digits rest : Str} (blank : ∀ c ∈ lead, isSpace c = true)
    (some : digits ≠ []) (plain : ∀ c ∈ digits, c.isDigit = true)
    (ends : ∀ c ∈ rest.head?, c.isDigit = false) :
    strtol (lead ++ digits ++ rest) = (clampLong (decimal digits), rest) := by
  have taken : (digits ++ rest).takeWhile Char.isDigit = digits := by
    rw [List.takeWhile_append_of_pos plain]
    cases rest with
    | nil => exact List.append_nil digits
    | cons c rest =>
        rw [List.takeWhile_cons_of_neg (by rw [ends c rfl]; decide), List.append_nil]
  have left : (digits ++ rest).dropWhile Char.isDigit = rest := by
    rw [List.dropWhile_append_of_pos plain]
    cases rest with
    | nil => rfl
    | cons c rest => rw [List.dropWhile_cons_of_neg (by rw [ends c rfl]; decide)]
  have unsigned : sign (digits ++ rest) = (false, digits ++ rest) := by
    cases digits with
    | nil => exact absurd rfl some
    | cons d digits =>
        have digit := plain d List.mem_cons_self
        rw [List.cons_append, sign.eq_def]
        split
        · next same =>
            injection same with head
            rw [head] at digit
            cases digit
        · next same =>
            injection same with head
            rw [head] at digit
            cases digit
        · rfl
  have body : (lead ++ digits ++ rest).dropWhile isSpace = digits ++ rest := by
    rw [List.append_assoc, List.dropWhile_append_of_pos blank]
    cases digits with
    | nil => exact absurd rfl some
    | cons d digits =>
        rw [List.cons_append, List.dropWhile_cons_of_neg]
        rw [isSpace_of_digit (plain d List.mem_cons_self)]
        decide
  simp only [strtol, body, unsigned, taken, left]
  rw [if_neg (by rwa [List.isEmpty_iff])]
  rfl

theorem strtol_digits {lead digits rest : Str} (blank : ∀ c ∈ lead, isSpace c = true)
    (some : digits ≠ []) (plain : ∀ c ∈ digits, c.isDigit = true)
    (ends : ∀ c ∈ rest.head?, c.isDigit = false) :
    (strtol (lead ++ digits ++ rest)).1 = clampLong (decimal digits) := by
  rw [strtol_run blank some plain ends]

end CString
