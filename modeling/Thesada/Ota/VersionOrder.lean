import Mathlib.Data.Prod.Lex
import Thesada.Ota.VerifyPolicy

/-!
# The order of versions

What `otaParseVersion` accepts, and how the versions that it accepts are ordered. The update gate,
the fled gate and the install record all compare through it.
-/

namespace Thesada.Ota

open CString

def INT_MAX : Nat := 2 ^ 31 - 1
def LLONG_MAX : Nat := 2 ^ 63 - 1

/-- A field with its value. -/
structure VersionField (digits : Str) (v : Nat) : Prop where
  some_digit : digits ≠ []
  plain : ∀ c ∈ digits, c.isDigit = true
  value : decimal digits = v
  fits : v ≤ INT_MAX

/-- Three fields with dots between them. -/
def IsVersion (s : Str) (v : Nat × Nat × Nat) : Prop :=
  ∃ major minor patch, s = major ++ '.' :: (minor ++ '.' :: patch) ∧
    VersionField major v.1 ∧ VersionField minor v.2.1 ∧ VersionField patch v.2.2

/-- The order of the three values. -/
def VersionLt (v w : Nat × Nat × Nat) : Prop :=
  Prod.Lex (· < ·) (Prod.Lex (· < ·) (· < ·)) v w

/-- The values that the accumulator takes on a text, from `v` on. -/
def otaParseSums : Nat → Str → List Nat
  | _, [] => []
  | v, c :: p =>
    if c.isDigit then
      let v := v * 10 + digitValue c
      v :: if v > 2147483647 then [] else otaParseSums v p
    else []

/-! ## A field -/

/-- The value of digits behind a number. -/
def spelled (v : Nat) (digits : Str) : Nat := digits.foldl (fun n c => 10 * n + digitValue c) v

theorem le_spelled (v : Nat) (digits : Str) : v ≤ spelled v digits := by
  induction digits generalizing v with
  | nil => exact Nat.le_refl v
  | cons c digits ih => exact Nat.le_trans (by omega) (ih (10 * v + digitValue c))

/-- A digit run is read to its end, unless its value does not fit. -/
theorem otaParseDigits_eq {v : Nat} (fits : v ≤ INT_MAX) (s : Str) :
    otaParseDigits v s =
      if spelled v (s.takeWhile Char.isDigit) ≤ INT_MAX then
        some (spelled v (s.takeWhile Char.isDigit), s.dropWhile Char.isDigit)
      else none := by
  induction s generalizing v with
  | nil => exact (if_pos fits).symm
  | cons c s ih =>
      have next : v * 10 + digitValue c = 10 * v + digitValue c := by rw [Nat.mul_comm]
      by_cases digit : c.isDigit = true
      · rw [otaParseDigits, if_pos digit, next, List.takeWhile_cons_of_pos digit,
          List.dropWhile_cons_of_pos digit]
        by_cases large : 10 * v + digitValue c > 2147483647
        · have grows := le_spelled (10 * v + digitValue c) (s.takeWhile Char.isDigit)
          have unfit : ¬spelled v (c :: s.takeWhile Char.isDigit) ≤ INT_MAX := fun fits =>
            absurd (Nat.le_trans grows fits) (Nat.not_le.mpr large)
          rw [if_pos large, if_neg unfit]
        · rw [if_neg large, ih (Nat.not_lt.mp large)]
          rfl
      · rw [otaParseDigits, if_neg digit, List.takeWhile_cons_of_neg digit,
          List.dropWhile_cons_of_neg digit]
        exact (if_pos fits).symm

/-- No sum leaves the accumulator: the one that exceeds the limit is the last. -/
theorem otaParseSums_le {v : Nat} (fits : v ≤ INT_MAX) (s : Str) :
    ∀ sum ∈ otaParseSums v s, sum ≤ LLONG_MAX := by
  induction s generalizing v with
  | nil => exact fun sum mem => absurd mem List.not_mem_nil
  | cons c s ih =>
      intro sum mem
      rw [otaParseSums] at mem
      split at mem
      · next digit =>
          have small := digitValue_le digit
          simp only [INT_MAX, LLONG_MAX] at fits ⊢
          obtain rfl | later := List.mem_cons.mp mem
          · omega
          · split at later
            · cases later
            · next within => exact ih (Nat.not_lt.mp within) sum later
      · cases mem

theorem otaParseVersionField_eq_some {s : Str} {v : Nat} {rest : Str} :
    otaParseVersionField s = some (v, rest) ↔
      VersionField (s.takeWhile Char.isDigit) v ∧ s.dropWhile Char.isDigit = rest := by
  have whole := otaParseDigits_eq (Nat.zero_le INT_MAX) s
  have digits : ∀ c ∈ s.takeWhile Char.isDigit, c.isDigit = true :=
    fun c mem => List.mem_takeWhile_imp mem
  cases s with
  | nil =>
      refine iff_of_false (fun found => by cases found) ?_
      exact fun field => field.1.some_digit rfl
  | cons c p =>
      by_cases digit : c.isDigit = true
      · have more : (c :: p).takeWhile Char.isDigit ≠ [] := by
          rw [List.takeWhile_cons_of_pos digit]
          exact List.cons_ne_nil _ _
        rw [otaParseVersionField, if_pos digit, whole]
        show (if decimal _ ≤ INT_MAX then _ else _) = _ ↔ _
        constructor
        · intro found
          split at found
          · next fits =>
              cases found
              exact ⟨⟨more, digits, rfl, fits⟩, rfl⟩
          · cases found
        · rintro ⟨field, rfl⟩
          obtain rfl := field.value
          exact if_pos field.fits
      · rw [otaParseVersionField, if_neg digit]
        refine iff_of_false (fun found => by cases found) ?_
        rw [List.takeWhile_cons_of_neg digit]
        exact fun field => field.1.some_digit rfl

/-! ## A version -/

theorem otaParseVersionField_dot {s rest : Str} {v : Nat} :
    otaParseVersionField s = some (v, '.' :: rest) ↔
      ∃ digits, s = digits ++ '.' :: rest ∧ VersionField digits v := by
  rw [otaParseVersionField_eq_some]
  constructor
  · rintro ⟨field, after⟩
    refine ⟨_, ?_, field⟩
    rw [← after]
    exact List.takeWhile_append_dropWhile.symm
  · rintro ⟨digits, rfl, field⟩
    obtain ⟨front, back⟩ := split_dot field.plain
    rw [front, back]
    exact ⟨field, rfl⟩

theorem otaParseVersionField_last {s : Str} {v : Nat} :
    otaParseVersionField s = some (v, []) ↔ VersionField s v := by
  rw [otaParseVersionField_eq_some]
  constructor
  · rintro ⟨field, after⟩
    have all : s.takeWhile Char.isDigit = s := by
      have parts := List.takeWhile_append_dropWhile (p := Char.isDigit) (l := s)
      rwa [after, List.append_nil] at parts
    rwa [all] at field
  · intro field
    have all : s.takeWhile Char.isDigit = s := List.takeWhile_eq_self_iff.mpr field.plain
    have none : s.dropWhile Char.isDigit = [] := List.dropWhile_eq_nil_iff.mpr field.plain
    rw [all]
    exact ⟨field, none⟩

theorem otaParseVersion_iff {s : Str} {v : Nat × Nat × Nat} :
    otaParseVersion s = some v ↔ IsVersion s v := by
  obtain ⟨x, y, z⟩ := v
  constructor
  · intro parsed
    unfold otaParseVersion at parsed
    split at parsed
    · next major p first =>
        split at parsed
        · next minor p' second =>
            split at parsed
            · next patch third =>
                cases parsed
                obtain ⟨a, rfl, field⟩ := otaParseVersionField_dot.mp first
                obtain ⟨b, rfl, field'⟩ := otaParseVersionField_dot.mp second
                exact ⟨a, b, p', rfl, field, field', otaParseVersionField_last.mp third⟩
            · cases parsed
        · cases parsed
    · cases parsed
  · rintro ⟨a, b, c, rfl, field, field', field''⟩
    have first : otaParseVersionField (a ++ '.' :: (b ++ '.' :: c)) = some (x, _) :=
      otaParseVersionField_dot.mpr ⟨a, rfl, field⟩
    have second : otaParseVersionField (b ++ '.' :: c) = some (y, _) :=
      otaParseVersionField_dot.mpr ⟨b, rfl, field'⟩
    simp only [otaParseVersion, first, second, otaParseVersionField_last.mpr field'']

/-! ## The order -/

theorem otaIsNewer_of_parsed {a b : Str} {v w : Nat × Nat × Nat} (left : otaParseVersion a = some v)
    (right : otaParseVersion b = some w) : otaIsNewer a b = true ↔ VersionLt w v := by
  obtain ⟨x, y, z⟩ := v
  obtain ⟨x', y', z'⟩ := w
  rw [otaIsNewer, left, right]
  simp only [VersionLt, Prod.lex_def]
  split
  · next other =>
      rw [decide_eq_true_eq]
      omega
  · split
    · next same other =>
        rw [decide_eq_true_eq]
        omega
    · next same same' =>
        rw [decide_eq_true_eq]
        omega

theorem otaIsNewer_iff {a b : Str} :
    otaIsNewer a b = true ↔
      ∃ v w, otaParseVersion a = some v ∧ otaParseVersion b = some w ∧ VersionLt w v := by
  cases left : otaParseVersion a with
  | none => simp [otaIsNewer, left]
  | some v =>
      cases right : otaParseVersion b with
      | none => simp [otaIsNewer, left, right]
      | some w =>
          rw [otaIsNewer_of_parsed left right]
          simp

theorem VersionLt.trans {u v w : Nat × Nat × Nat} (first : VersionLt u v)
    (second : VersionLt v w) : VersionLt u w := Prod.Lex.trans first second

theorem otaIsNewer_trans {a b c : Str} (first : otaIsNewer a b = true)
    (second : otaIsNewer b c = true) : otaIsNewer a c = true := by
  obtain ⟨v, w, left, middle, less⟩ := otaIsNewer_iff.mp first
  obtain ⟨w', u, middle', right, less'⟩ := otaIsNewer_iff.mp second
  obtain rfl := Option.some.inj (middle.symm.trans middle')
  exact otaIsNewer_iff.mpr ⟨v, u, left, right, less'.trans less⟩

theorem VersionLt.trichotomy (v w : Nat × Nat × Nat) :
    VersionLt w v ∧ v ≠ w ∧ ¬VersionLt v w ∨ v = w ∧ ¬VersionLt w v ∧ ¬VersionLt v w ∨
      VersionLt v w ∧ v ≠ w ∧ ¬VersionLt w v := by
  simp only [VersionLt, Prod.lex_def, Prod.ext_iff, ne_eq]
  omega

/-- Of two versions one is newer or they are equal, and no two of these at once. -/
theorem one_of_newer_same_older {a b : Str} {v w : Nat × Nat × Nat}
    (left : otaParseVersion a = some v) (right : otaParseVersion b = some w) :
    (otaIsNewer a b).toNat + (otaSameVersion a b).toNat + (otaIsNewer b a).toNat = 1 := by
  have newer := otaIsNewer_of_parsed left right
  have older := otaIsNewer_of_parsed right left
  have same : otaSameVersion a b = true ↔ v = w := by
    rw [otaSameVersion, left, right]
    exact beq_iff_eq
  obtain ⟨less, apart, not⟩ | ⟨equal, not, not'⟩ | ⟨less, apart, not⟩ := VersionLt.trichotomy v w
  · rw [newer.mpr less, Bool.eq_false_iff.mpr (same.not.mpr apart),
      Bool.eq_false_iff.mpr (older.not.mpr not)]
    rfl
  · rw [same.mpr equal, Bool.eq_false_iff.mpr (newer.not.mpr not),
      Bool.eq_false_iff.mpr (older.not.mpr not')]
    rfl
  · rw [older.mpr less, Bool.eq_false_iff.mpr (same.not.mpr apart),
      Bool.eq_false_iff.mpr (newer.not.mpr not)]
    rfl

theorem none_of_refused {a b : Str} (refused : otaParseVersion a = none ∨ otaParseVersion b = none) :
    otaIsNewer a b = false ∧ otaSameVersion a b = false ∧ otaIsNewer b a = false := by
  have missing : ∀ v w, otaParseVersion a = some v → otaParseVersion b ≠ some w := by
    rintro v w left right
    obtain none | none := refused
    · cases none.symm.trans left
    · cases none.symm.trans right
  refine ⟨Bool.eq_false_iff.mpr ?_, Bool.eq_false_iff.mpr ?_, Bool.eq_false_iff.mpr ?_⟩
  · intro newer
    obtain ⟨v, w, left, right, -⟩ := otaIsNewer_iff.mp newer
    exact missing v w left right
  · intro same
    obtain ⟨v, left, right⟩ := otaSameVersion_iff.mp same
    exact missing v v left right
  · intro older
    obtain ⟨w, v, right, left, -⟩ := otaIsNewer_iff.mp older
    exact missing v w left right

end Thesada.Ota
