import Mathlib.Data.List.DropRight
import Mathlib.Logic.Function.Basic
import Thesada.Library.CString

/-!
# Log slots on the card

A log file is `logNNN.csv` with a number from 1 to 999. One listing of the root marks the numbers
that are taken and those that a regular file has. The boot looks for the highest of these, a
rotation for the lowest that is free.

A name is compared as FAT compares it, without case.
-/

namespace Thesada.Sd

open CString

def SD_LOG_MAX_INDEX : Nat := 999

/-- `(c | 0x20) == l`. -/
def letter (c l : Char) : Bool := c.toNat ||| 0x20 = l.toNat

/-- The number in a base name of the form `logNNN.csv`, 0 for any other. -/
def baseIndex : Str → Nat
  | [l, o, g, a, b, c, dot, x, y, z] =>
      if letter l 'l' && letter o 'o' && letter g 'g' && dot = '.' && letter x 'c' &&
          letter y 's' && letter z 'v' && a.isDigit && b.isDigit && c.isDigit then
        (digitValue a * 10 + digitValue b) * 10 + digitValue c
      else 0
  | _ => 0

/-- A path in front of the name is dropped. -/
def sdLogIndex (name : Str) : Nat := baseIndex (name.rtakeWhile (· ≠ '/'))

structure SdLogSlots where
  used : Nat → Bool
  file : Nat → Bool

def sdLogSlotsClear : SdLogSlots := ⟨fun _ => false, fun _ => false⟩

def sdLogSlotsAdd (s : SdLogSlots) (name : Str) (isDir : Bool) : SdLogSlots :=
  let i := sdLogIndex name
  if i = 0 then s
  else
    { used := Function.update s.used i true
      file := if isDir then s.file else Function.update s.file i true }

def sdLogSlotsHas (s : SdLogSlots) (i : Nat) : Bool :=
  1 ≤ i && i ≤ SD_LOG_MAX_INDEX && s.used i

/-- The scan for the highest file, downwards from `i`. -/
def highestFrom (s : SdLogSlots) : Nat → Nat
  | 0 => 0
  | i + 1 => if s.file (i + 1) then i + 1 else highestFrom s i

def sdLogSlotsHighest (s : SdLogSlots) : Nat := highestFrom s SD_LOG_MAX_INDEX

/-- The scan for a free slot upwards, with `left` slots to go. -/
def nextFreeIn (s : SdLogSlots) : (left : Nat) → Nat
  | 0 => 0
  | left + 1 =>
      let i := SD_LOG_MAX_INDEX - left
      if sdLogSlotsHas s i then nextFreeIn s left else i

def sdLogSlotsNextFree (s : SdLogSlots) (start : Nat) : Nat :=
  nextFreeIn s (SD_LOG_MAX_INDEX + 1 - max start 1)

/-- `log%03d.csv`. -/
def logName (i : Nat) : Str :=
  "log".toList ++ [Nat.digitChar (i / 100), Nat.digitChar (i / 10 % 10), Nat.digitChar (i % 10)] ++
    ".csv".toList

/-! ## Names and numbers -/

theorem letter_toLower {c l : Char} (known : l ∈ ['l', 'o', 'g', 'c', 's', 'v'])
    (same : letter c l = true) : c.toLower = l := by
  have each : ∀ n : Fin 128, ∀ l ∈ ['l', 'o', 'g', 'c', 's', 'v'],
      letter (Char.ofNat n) l = true → (Char.ofNat n).toLower = l := by
    simp only [List.forall_mem_cons, List.not_mem_nil, false_implies, implies_true, and_true]
    decide +kernel
  have low : ∀ l ∈ ['l', 'o', 'g', 'c', 's', 'v'], l.toNat < 128 := by
    simp only [List.forall_mem_cons, List.not_mem_nil, false_implies, implies_true, and_true]
    decide
  have ascii : c.toNat < 128 := by
    have whole : c.toNat ||| 0x20 = l.toNat := of_decide_eq_true same
    exact Nat.lt_of_le_of_lt (Nat.left_le_or) (whole ▸ low l known)
  have found := each ⟨c.toNat, ascii⟩ l known
  rw [Char.ofNat_toNat] at found
  exact found same

/-- A name with a number is that number's log name, up to case. -/
theorem baseIndex_name {b : Str} (pos : baseIndex b ≠ 0) :
    baseIndex b ≤ SD_LOG_MAX_INDEX ∧ b.map Char.toLower = logName (baseIndex b) := by
  unfold baseIndex at *
  split at pos
  · rename_i l o g a b c dot x y z
    split at pos
    · rename_i form
      rw [if_pos form]
      simp only [Bool.and_eq_true, decide_eq_true_eq] at form
      obtain ⟨⟨⟨⟨⟨⟨⟨⟨⟨first, second⟩, third⟩, rfl⟩, fourth⟩, fifth⟩, sixth⟩, da⟩, db⟩, dc⟩ := form
      obtain ⟨ha, backA, lowA⟩ := digit_back da
      obtain ⟨hb, backB, lowB⟩ := digit_back db
      obtain ⟨hc, backC, lowC⟩ := digit_back dc
      refine ⟨by unfold SD_LOG_MAX_INDEX; omega, ?_⟩
      have hundreds : ((digitValue a * 10 + digitValue b) * 10 + digitValue c) / 100 =
          digitValue a := by omega
      have tens : ((digitValue a * 10 + digitValue b) * 10 + digitValue c) / 10 % 10 =
          digitValue b := by omega
      have ones : ((digitValue a * 10 + digitValue b) * 10 + digitValue c) % 10 =
          digitValue c := by omega
      rw [logName, hundreds, tens, ones, backA, backB, backC]
      simp only [List.map_cons, List.map_nil, letter_toLower (by decide) first,
        letter_toLower (by decide) second, letter_toLower (by decide) third,
        letter_toLower (by decide) fourth, letter_toLower (by decide) fifth,
        letter_toLower (by decide) sixth, lowA, lowB, lowC]
      rfl
    · exact absurd rfl pos
  · exact absurd rfl pos

/-- The characters of a log name. -/
theorem logName_eq (i : Nat) :
    logName i = ['l', 'o', 'g', Nat.digitChar (i / 100), Nat.digitChar (i / 10 % 10),
      Nat.digitChar (i % 10), '.', 'c', 's', 'v'] := rfl

theorem digitChar_facts {d : Nat} (digit : d < 10) :
    (Nat.digitChar d).isDigit = true ∧ digitValue (Nat.digitChar d) = d ∧
      (Nat.digitChar d).toLower = Nat.digitChar d ∧ Nat.digitChar d ≠ '/' := by
  have each : ∀ d : Fin 10, (Nat.digitChar d).isDigit = true ∧ digitValue (Nat.digitChar d) = d ∧
      (Nat.digitChar d).toLower = Nat.digitChar d ∧ Nat.digitChar d ≠ '/' := by decide
  exact each ⟨d, digit⟩

theorem logName_lower (i : Nat) (bound : i ≤ SD_LOG_MAX_INDEX) :
    (logName i).map Char.toLower = logName i := by
  have hundreds : i / 100 < 10 := Nat.div_lt_of_lt_mul (Nat.lt_succ_of_le bound)
  have tens : i / 10 % 10 < 10 := Nat.mod_lt _ (by decide)
  have ones : i % 10 < 10 := Nat.mod_lt _ (by decide)
  obtain ⟨-, -, first, -⟩ := digitChar_facts hundreds
  obtain ⟨-, -, second, -⟩ := digitChar_facts tens
  obtain ⟨-, -, third, -⟩ := digitChar_facts ones
  rw [logName_eq]
  simp only [List.map_cons, List.map_nil, first, second, third]
  rfl

theorem sdLogIndex_le (name : Str) : sdLogIndex name ≤ SD_LOG_MAX_INDEX := by
  by_cases none : sdLogIndex name = 0
  · rw [none]
    exact Nat.zero_le _
  · exact (baseIndex_name none).1

/-! ## The listing -/

/-- The slots of a listing are those of its log names. -/
theorem add_file (s : SdLogSlots) (name : Str) (isDir : Bool) (i : Nat) :
    (sdLogSlotsAdd s name isDir).file i = true ↔
      s.file i = true ∨ isDir = false ∧ sdLogIndex name ≠ 0 ∧ sdLogIndex name = i := by
  simp only [sdLogSlotsAdd]
  split
  · rename_i none
    simp [none]
  · rename_i some
    cases isDir with
    | true => simp
    | false =>
        simp only [Bool.false_eq_true, if_false, true_and]
        by_cases same : i = sdLogIndex name
        · rw [same, Function.update_self]
          simp [some]
        · rw [Function.update_of_ne same]
          simp [Ne.symm same]

theorem highestFrom_spec (s : SdLogSlots) (n : Nat) :
    (∀ i, highestFrom s n < i → i ≤ n → s.file i = false) ∧
      (highestFrom s n ≠ 0 → s.file (highestFrom s n) = true ∧ highestFrom s n ≤ n) := by
  induction n with
  | zero => exact ⟨fun i above le => absurd (Nat.lt_of_lt_of_le above le) (Nat.lt_irrefl 0),
      fun pos => absurd rfl pos⟩
  | succ n ih =>
      rw [highestFrom]
      cases found : s.file (n + 1) with
      | true =>
          simp only [if_true]
          exact ⟨fun i above le => absurd above (Nat.not_lt.mpr le), fun _ => ⟨found, Nat.le_refl _⟩⟩
      | false =>
          simp only [Bool.false_eq_true, if_false]
          refine ⟨?_, fun pos => ⟨(ih.2 pos).1, Nat.le_succ_of_le (ih.2 pos).2⟩⟩
          intro i above le
          obtain lower | same := Nat.le_succ_iff.mp le
          · exact ih.1 i above lower
          · rw [same]
            exact found

theorem nextFreeIn_le (s : SdLogSlots) (left : Nat) : nextFreeIn s left ≤ SD_LOG_MAX_INDEX := by
  induction left with
  | zero => exact Nat.zero_le _
  | succ left ih =>
      simp only [nextFreeIn]
      split
      · exact ih
      · exact Nat.sub_le _ _

end Thesada.Sd
