import Thesada.Config.Writers

/-!
# Integers set with `config.set`

A value is tried as a `long`, as a float and kept as text. `strtol` takes the whole of every
integer literal, and returns the closest `long` for one it cannot represent.
-/

namespace Thesada.Config

open CString Json

/-- The integer that a literal of an optional sign and digits spells. -/
def literalValue (text : Str) : Option Int :=
  let (negative, digits) := sign text
  if digits.isEmpty || !digits.all Char.isDigit then none
  else some (if negative then -decimal digits else decimal digits)

/-- The values of a 32-bit `long`. -/
def IsLong (n : Int) : Prop := -2147483648 ≤ n ∧ n ≤ 2147483647

section

variable {text : Str} {n : Int}

/-! ## Literals -/

theorem sign_cases (text : Str) :
    (∃ rest, text = '-' :: rest ∧ sign text = (true, rest)) ∨
      (∃ rest, text = '+' :: rest ∧ sign text = (false, rest)) ∨ sign text = (false, text) := by
  unfold sign
  split
  · next rest => exact .inl ⟨rest, rfl, rfl⟩
  · next rest => exact .inr (.inl ⟨rest, rfl, rfl⟩)
  · exact .inr (.inr rfl)

theorem literal_digits (lit : literalValue text = some n) :
    (sign text).2 ≠ [] ∧ (∀ c ∈ (sign text).2, c.isDigit = true) ∧
      n = if (sign text).1 then -(decimal (sign text).2 : Int) else decimal (sign text).2 := by
  simp only [literalValue] at lit
  split at lit
  · cases lit
  · next digits =>
      simp only [Bool.or_eq_true, Bool.not_eq_true', not_or, List.isEmpty_iff,
        Bool.not_eq_false, List.all_eq_true] at digits
      exact ⟨digits.1, digits.2, (Option.some.inj lit).symm⟩

/-- What stands in a literal. -/
theorem literal_char (lit : literalValue text = some n) {c : Char} (mem : c ∈ text) :
    c = '-' ∨ c = '+' ∨ c.isDigit = true := by
  obtain ⟨-, digits, -⟩ := literal_digits lit
  obtain ⟨rest, rfl, parts⟩ | ⟨rest, rfl, parts⟩ | parts := sign_cases text
  · rw [parts] at digits
    obtain rfl | later := List.mem_cons.mp mem
    · exact .inl rfl
    · exact .inr (.inr (digits c later))
  · rw [parts] at digits
    obtain rfl | later := List.mem_cons.mp mem
    · exact .inr (.inl rfl)
    · exact .inr (.inr (digits c later))
  · rw [parts] at digits
    exact .inr (.inr (digits c mem))

theorem literal_ne_nil (lit : literalValue text = some n) : text ≠ [] := by
  rintro rfl
  cases lit

theorem literal_not_space (lit : literalValue text = some n) {c : Char} (mem : c ∈ text) :
    isSpace c = false := by
  obtain rfl | rfl | digit := literal_char lit mem
  · decide
  · decide
  · exact isSpace_of_digit digit

/-- `strtol` takes all of a literal. -/
theorem strtol_literal (lit : literalValue text = some n) : strtol text = (clampLong n, []) := by
  obtain ⟨some, digits, value⟩ := literal_digits lit
  have whole : text.dropWhile isSpace = text := by
    cases text with
    | nil => rfl
    | cons c rest =>
        rw [List.dropWhile_cons_of_neg]
        rw [literal_not_space lit List.mem_cons_self]
        decide
  have taken : (sign text).2.takeWhile Char.isDigit = (sign text).2 :=
    List.takeWhile_eq_self_iff.mpr digits
  have none : (sign text).2.dropWhile Char.isDigit = [] := List.dropWhile_eq_nil_iff.mpr digits
  simp only [strtol, whole, taken, none]
  rw [if_neg (by rwa [List.isEmpty_iff]), ← value]

theorem ne_of_letter (lit : literalValue text = some n) {word : Str} {c : Char} (mem : c ∈ word)
    (letter : ¬(c = '-' ∨ c = '+' ∨ c.isDigit = true)) : text ≠ word := by
  rintro rfl
  exact letter (literal_char lit mem)

theorem trimmed_subset (s : Str) : trimmed s ⊆ s := by
  intro c mem
  rw [trimmed, List.mem_reverse] at mem
  have inside := (List.dropWhile_suffix _).subset mem
  rw [List.mem_reverse] at inside
  exact (List.dropWhile_suffix _).subset inside

/-- A literal is set as the closest `long`. -/
theorem setValueOf_literal (deserializeJson : Reader) (strtof : Strtof)
    (lit : literalValue text = some n) :
    setValueOf deserializeJson strtof text = .value (.int (clampLong n)) := by
  have noDocument : ¬((trimmed text).head? = some '\x7b' ∨ (trimmed text).head? = some '[') := by
    rintro (first | first)
    · have char := literal_char lit (trimmed_subset text (List.mem_of_mem_head? first))
      exact absurd char (by decide)
    · have char := literal_char lit (trimmed_subset text (List.mem_of_mem_head? first))
      exact absurd char (by decide)
  have letter (c : Char) (word : Str) (mem : c ∈ word)
      (other : ¬(c = '-' ∨ c = '+' ∨ c.isDigit = true)) : text ≠ word :=
    ne_of_letter lit mem other
  rw [setValueOf, if_neg (letter 'd' _ (by decide) (by decide)), if_neg noDocument, scalarOf,
    if_neg (letter 't' _ (by decide) (by decide)), if_neg (letter 'f' _ (by decide) (by decide)),
    strtol_literal lit]
  have some := literal_ne_nil lit
  simp [some]

theorem clampLong_eq_iff : clampLong n = n ↔ IsLong n := by
  rw [clampLong, IsLong]
  omega

end

/-! ## The command -/

/-- An acknowledged `config.set` of an integer literal stored that integer, or its text, when it
is a `long`. Of every other literal the file holds the closest one. -/
theorem config_set_integer_iff (deserializeJson : Reader) (strtof : Strtof) (c c' : ConfigUnit)
    (key arg reply : Str) (io : SetIo) (n : Int) (lit : literalValue (stripQuotes arg) = some n)
    (acknowledged : c.configSet deserializeJson strtof key arg io = (c', .ok reply)) :
    ∃ doc stored, readForEdit c.file io = .ok doc ∧
      c'.fileAt (configSetPath key doc) = some stored ∧
      ((stored = .int n ∨ stored = .str (stripQuotes arg)) ↔ IsLong n) := by
  obtain ⟨doc, edited, read, made, committed⟩ := configSet_ok acknowledged
  have landed : c'.file = some (.doc edited) := by
    have file := ConfigUnit.commitEdit_landed (congrArg Prod.snd committed)
    rwa [committed] at file
  refine ⟨doc, .int (clampLong n), read, ?_, ?_⟩
  · rw [ConfigUnit.fileAt, landed]
    exact (configSetDoc_sets made).found _ (setValueOf_literal deserializeJson strtof lit)
  · rw [← clampLong_eq_iff]
    simp

def emptySection : ConfigUnit := readUnit (.obj [(K_MQTT, .obj [])])

def setsNow : SetIo := ⟨true, true, true, writeLands, ⟨true, true, true⟩⟩

/-- `config.set mqtt.id` over a file with an empty section. -/
def setId (arg : String) : ConfigUnit × Except Str Str :=
  emptySection.configSet nothingParses noFloats "mqtt.id".toList arg.toList setsNow

theorem config_set_integer_million :
    ∃ doc stored, readForEdit emptySection.file setsNow = .ok doc ∧
      (setId "1000000").1.fileAt (configSetPath "mqtt.id".toList doc) = some stored ∧
      ((stored = .int 1000000 ∨ stored = .str (stripQuotes "1000000".toList)) ↔ IsLong 1000000) :=
  config_set_integer_iff nothingParses noFloats emptySection (setId "1000000").1 "mqtt.id".toList
    "1000000".toList (ConfigUnit.configSetReply "mqtt.id".toList "1000000".toList) setsNow 1000000
    (by decide) rfl

/-- Three thousand million is acknowledged and stored as another number. -/
theorem config_set_integer_saturates :
    literalValue (stripQuotes "3000000000".toList) = some 3000000000 ∧
      (setId "3000000000").2.toOption.isSome = true ∧
      (setId "3000000000").1.fileAt [.key K_MQTT, .key "id".toList] = some (.int 2147483647) :=
  ⟨by decide, by decide +kernel, rfl⟩

end Thesada.Config
