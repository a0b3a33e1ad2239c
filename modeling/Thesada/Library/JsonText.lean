import Mathlib.Data.Int.Basic
import Thesada.Library.CString

/-!
# JSON strings and integers as text

The serializer's escapes and the reader's inverse, and decimal integers. Each reader takes its
value off the front of a text and returns what follows, so that readers compose, and each
round trip says that a reader undoes its writer in front of any text that cannot continue the
value.
-/

namespace JsonText

open CString

/-- The letter after the backslash for a character that is written escaped. -/
def escapeChar (c : Char) : Option Char :=
  if c = '"' then some '"'
  else if c = '\\' then some '\\'
  else if c = '\x08' then some 'b'
  else if c = '\x0c' then some 'f'
  else if c = '\n' then some 'n'
  else if c = '\r' then some 'r'
  else if c = '\t' then some 't'
  else none

/-- The character an escape letter stands for. -/
def unescapeChar (c : Char) : Option Char :=
  if c = '"' then some '"'
  else if c = '/' then some '/'
  else if c = '\\' then some '\\'
  else if c = 'b' then some '\x08'
  else if c = 'f' then some '\x0c'
  else if c = 'n' then some '\n'
  else if c = 'r' then some '\r'
  else if c = 't' then some '\t'
  else none

theorem unescape_escape {c e : Char} (h : escapeChar c = some e) : unescapeChar e = some c := by
  simp only [escapeChar] at h
  split_ifs at h with quote back b f n r t
  all_goals
    subst_vars
    cases h
    decide

theorem escapeChar_eq_none {c : Char} (h : escapeChar c = none) : c ≠ '"' ∧ c ≠ '\\' := by
  constructor
  · intro quote
    subst quote
    exact absurd h (by decide)
  · intro back
    subst back
    exact absurd h (by decide)

/-- The text between the quotes. -/
def escaped : Str → Str
  | [] => []
  | c :: rest =>
      match escapeChar c with
      | some e => '\\' :: e :: escaped rest
      | none => c :: escaped rest

/-- A string with its quotes. -/
def quoted (s : Str) : Str := '"' :: (escaped s ++ ['"'])

/-- The text up to the closing quote and what follows it. -/
def readEscaped : Str → Option (Str × Str)
  | [] => none
  | c :: rest =>
      if c = '"' then some ([], rest)
      else if c = '\\' then
        match rest with
        | [] => none
        | e :: rest => do
            let d ← unescapeChar e
            let (s, after) ← readEscaped rest
            return (d :: s, after)
      else do
        let (s, after) ← readEscaped rest
        return (c :: s, after)

def readQuoted : Str → Option (Str × Str)
  | '"' :: rest => readEscaped rest
  | _ => none

theorem readEscaped_quote (rest : Str) : readEscaped ('"' :: rest) = some ([], rest) := by
  rw [readEscaped.eq_def]
  rfl

theorem readEscaped_escape {e d : Char} {rest s after : Str} (letter : unescapeChar e = some d)
    (read : readEscaped rest = some (s, after)) :
    readEscaped ('\\' :: e :: rest) = some (d :: s, after) := by
  rw [readEscaped.eq_def]
  simp [letter, read]

theorem readEscaped_plain {c : Char} {rest s after : Str} (plain : escapeChar c = none)
    (read : readEscaped rest = some (s, after)) :
    readEscaped (c :: rest) = some (c :: s, after) := by
  obtain ⟨noQuote, noBack⟩ := escapeChar_eq_none plain
  rw [readEscaped.eq_def]
  simp [noQuote, noBack, read]

theorem readEscaped_escaped (s rest : Str) :
    readEscaped (escaped s ++ '"' :: rest) = some (s, rest) := by
  induction s with
  | nil => exact readEscaped_quote rest
  | cons c s ih =>
      cases written : escapeChar c with
      | some e =>
          simp only [escaped, written, List.cons_append]
          exact readEscaped_escape (unescape_escape written) ih
      | none =>
          simp only [escaped, written, List.cons_append]
          exact readEscaped_plain written ih

theorem readQuoted_quoted (s rest : Str) : readQuoted (quoted s ++ rest) = some (s, rest) := by
  simp only [quoted, List.cons_append, List.append_assoc, List.nil_append, readQuoted]
  exact readEscaped_escaped s rest

/-! ## Integers -/

/-- An integer in decimal. -/
def integer : Int → Str
  | .ofNat n => Nat.toDigits 10 n
  | .negSucc n => '-' :: Nat.toDigits 10 (n + 1)

def readNatural (s : Str) : Option (Nat × Str) :=
  if (s.takeWhile Char.isDigit).isEmpty then none
  else some (decimal (s.takeWhile Char.isDigit), s.dropWhile Char.isDigit)

def readInteger (s : Str) : Option (Int × Str) :=
  if s.head? = some '-' then (readNatural s.tail).map fun (n, after) => (-(n : Int), after)
  else (readNatural s).map fun (n, after) => ((n : Int), after)

theorem decimal_toDigits (n : Nat) : decimal (Nat.toDigits 10 n) = n :=
  Nat.ofDigitChars_ten_toDigits

/-- A text that does not begin with a digit. -/
def EndsNumber (rest : Str) : Prop := ∀ c ∈ rest.head?, c.isDigit = false

theorem readNatural_toDigits (n : Nat) {rest : Str} (ends : EndsNumber rest) :
    readNatural (Nat.toDigits 10 n ++ rest) = some (n, rest) := by
  have digits : ∀ c ∈ Nat.toDigits 10 n, c.isDigit = true := fun c mem =>
    Nat.isDigit_of_mem_toDigits (by decide) (by decide) mem
  have stop : rest.takeWhile Char.isDigit = [] ∧ rest.dropWhile Char.isDigit = rest := by
    cases rest with
    | nil => simp
    | cons c rest =>
        have : c.isDigit = false := ends c rfl
        simp [this]
  have taken : (Nat.toDigits 10 n ++ rest).takeWhile Char.isDigit = Nat.toDigits 10 n := by
    rw [List.takeWhile_append_of_pos digits, stop.1, List.append_nil]
  have dropped : (Nat.toDigits 10 n ++ rest).dropWhile Char.isDigit = rest := by
    rw [List.dropWhile_append_of_pos digits, stop.2]
  simp [readNatural, taken, dropped, decimal_toDigits]

/-- A decimal natural does not begin with a minus. -/
theorem toDigits_unsigned (n : Nat) (rest : Str) :
    (Nat.toDigits 10 n ++ rest).head? ≠ some '-' := by
  cases digits : Nat.toDigits 10 n with
  | nil => exact absurd digits Nat.toDigits_ne_nil
  | cons c tail =>
      intro minus
      have isDigit : c.isDigit = true :=
        Nat.isDigit_of_mem_toDigits (by decide) (by decide) (digits ▸ List.mem_cons_self)
      have isMinus : c = '-' := by simpa using minus
      subst isMinus
      exact absurd isDigit (by decide)

theorem readInteger_integer (n : Int) {rest : Str} (ends : EndsNumber rest) :
    readInteger (integer n ++ rest) = some (n, rest) := by
  cases n with
  | ofNat n =>
      have read := readNatural_toDigits n ends
      simp only [integer, readInteger, if_neg (toDigits_unsigned n rest), read]
      rfl
  | negSucc n =>
      have read := readNatural_toDigits (n + 1) ends
      simp [integer, readInteger, read, Int.negSucc_eq]

end JsonText
