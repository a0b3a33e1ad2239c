import Mathlib.Algebra.BigOperators.Group.List.Basic
import Mathlib.Algebra.Order.Ring.Nat
import Mathlib.Logic.Function.Iterate

/-!
# The Gregorian calendar

Dates of the proleptic calendar, with a year before the first one for each integer. `dayNumber`
counts the days from the first day of year 1 on, and `next` is the following day: the number tells
how often `next` is taken from one date to another.
-/

namespace Gregorian

def isLeap (year : Int) : Bool :=
  (year % 4 = 0 ∧ year % 100 ≠ 0) ∨ year % 400 = 0

def daysInMonth (year : Int) : Nat → Nat
  | 2 => if isLeap year then 29 else 28
  | 4 => 30
  | 6 => 30
  | 9 => 30
  | 11 => 30
  | _ => 31

structure CivilDate where
  year : Int
  month : Nat
  day : Nat
  month_pos : 1 ≤ month
  month_le : month ≤ 12
  day_pos : 1 ≤ day
  day_le : day ≤ daysInMonth year month

theorem CivilDate.eq_of_fields {a b : CivilDate} (year : a.year = b.year)
    (month : a.month = b.month) (day : a.day = b.day) : a = b := by
  cases a
  cases b
  simp only [CivilDate.mk.injEq]
  exact ⟨year, month, day⟩

theorem daysInMonth_pos (year : Int) (month : Nat) : 1 ≤ daysInMonth year month := by
  unfold daysInMonth
  split
  · split
    · decide
    · decide
  · decide
  · decide
  · decide
  · decide
  · decide

theorem daysInMonth_le (year : Int) (month : Nat) : daysInMonth year month ≤ 31 := by
  unfold daysInMonth
  split
  · split
    · decide
    · decide
  · decide
  · decide
  · decide
  · decide
  · decide

/-- The following day. -/
def CivilDate.next (d : CivilDate) : CivilDate :=
  if more : d.day < daysInMonth d.year d.month then
    { d with day := d.day + 1, day_pos := Nat.le_add_left 1 d.day, day_le := more }
  else if later : d.month < 12 then
    { year := d.year, month := d.month + 1, day := 1, month_pos := Nat.le_add_left 1 d.month,
      month_le := later, day_pos := Nat.le_refl 1, day_le := daysInMonth_pos _ _ }
  else
    { year := d.year + 1, month := 1, day := 1, month_pos := Nat.le_refl 1, month_le := by decide,
      day_pos := Nat.le_refl 1, day_le := daysInMonth_pos _ _ }

/-! ## Counting days -/

/-- The days of the years before. -/
def daysBeforeYear (year : Int) : Int :=
  365 * (year - 1) + (year - 1) / 4 - (year - 1) / 100 + (year - 1) / 400

/-- The days of the months before, in the same year. -/
def daysBeforeMonth (year : Int) (month : Nat) : Nat :=
  ((List.range (month - 1)).map fun i => daysInMonth year (i + 1)).sum

def CivilDate.dayNumber (d : CivilDate) : Int :=
  daysBeforeYear d.year + daysBeforeMonth d.year d.month + d.day

section

variable {year : Int} {month : Nat} {a b d : CivilDate}

theorem daysBeforeMonth_succ (year : Int) (pos : 1 ≤ month) :
    daysBeforeMonth year (month + 1) = daysBeforeMonth year month + daysInMonth year month := by
  obtain ⟨m, rfl⟩ : ∃ m, month = m + 1 := ⟨month - 1, by omega⟩
  rw [daysBeforeMonth, Nat.add_sub_cancel, List.range_succ, List.map_append, List.sum_append]
  rfl

theorem daysBeforeMonth_mono (year : Int) {m n : Nat} (pos : 1 ≤ m) (le : m ≤ n) :
    daysBeforeMonth year m ≤ daysBeforeMonth year n := by
  induction le with
  | refl => exact Nat.le_refl _
  | @step n le ih =>
      rw [daysBeforeMonth_succ year (Nat.le_trans pos le)]
      exact Nat.le_add_right_of_le ih

/-- A year has 365 days, and 366 when it is a leap year. -/
theorem daysBeforeYear_succ (year : Int) :
    daysBeforeYear (year + 1) = daysBeforeYear year + daysBeforeMonth year 13 := by
  have months : (daysBeforeMonth year 13 : Int) = if isLeap year then 366 else 365 := by
    simp only [daysBeforeMonth, List.range_succ, List.range_zero, List.map_cons, List.map_nil,
      List.nil_append, List.cons_append, List.sum_cons, List.sum_nil, daysInMonth]
    split
    · rfl
    · rfl
  rw [months, daysBeforeYear, daysBeforeYear, isLeap]
  split
  · next leap =>
      rw [decide_eq_true_eq] at leap
      omega
  · next common =>
      rw [decide_eq_true_eq] at common
      omega

theorem daysBeforeYear_mono {y z : Int} (le : y ≤ z) : daysBeforeYear y ≤ daysBeforeYear z := by
  simp only [daysBeforeYear]
  omega

theorem dayNumber_next (d : CivilDate) : d.next.dayNumber = d.dayNumber + 1 := by
  have low := d.day_le
  have pos := d.month_pos
  have high := d.month_le
  rw [CivilDate.next]
  split
  · simp only [CivilDate.dayNumber]
    omega
  · next last =>
      have full : d.day = daysInMonth d.year d.month := by omega
      split
      · simp only [CivilDate.dayNumber]
        rw [daysBeforeMonth_succ d.year pos, full]
        omega
      · next december =>
          have twelve : d.month = 12 := by omega
          have whole := daysBeforeMonth_succ d.year pos
          rw [twelve] at whole
          have first : daysBeforeMonth (d.year + 1) 1 = 0 := rfl
          simp only [CivilDate.dayNumber]
          rw [daysBeforeYear_succ, whole, first, full, twelve]
          omega

/-- A date lies in its year. -/
theorem dayNumber_bounds (d : CivilDate) :
    daysBeforeYear d.year < d.dayNumber ∧ d.dayNumber ≤ daysBeforeYear (d.year + 1) := by
  have inside : daysBeforeMonth d.year (d.month + 1) ≤ daysBeforeMonth d.year 13 :=
    daysBeforeMonth_mono d.year (Nat.le_add_left 1 d.month) (Nat.succ_le_succ d.month_le)
  rw [daysBeforeMonth_succ d.year d.month_pos] at inside
  have low := d.day_le
  have pos := d.day_pos
  rw [daysBeforeYear_succ, CivilDate.dayNumber]
  omega

theorem year_le_of_dayNumber_le (le : a.dayNumber ≤ b.dayNumber) : a.year ≤ b.year := by
  by_contra later
  have bounds := (dayNumber_bounds a).1
  have bounds' := (dayNumber_bounds b).2
  have years := @daysBeforeYear_mono (b.year + 1) a.year (by omega)
  omega

theorem month_le_of_dayNumber_le (same : a.year = b.year) (le : a.dayNumber ≤ b.dayNumber) :
    a.month ≤ b.month := by
  by_contra later
  have months := daysBeforeMonth_mono b.year (Nat.le_add_left 1 b.month) (Nat.not_le.mp later)
  rw [daysBeforeMonth_succ b.year b.month_pos] at months
  rw [CivilDate.dayNumber, CivilDate.dayNumber, same] at le
  have low := b.day_le
  have pos := a.day_pos
  omega

/-- The number tells the date. -/
theorem dayNumber_injective (same : a.dayNumber = b.dayNumber) : a = b := by
  have year : a.year = b.year :=
    Int.le_antisymm (year_le_of_dayNumber_le (Int.le_of_eq same))
      (year_le_of_dayNumber_le (Int.le_of_eq same.symm))
  have month : a.month = b.month :=
    Nat.le_antisymm (month_le_of_dayNumber_le year (Int.le_of_eq same))
      (month_le_of_dayNumber_le year.symm (Int.le_of_eq same.symm))
  refine CivilDate.eq_of_fields year month ?_
  rw [CivilDate.dayNumber, CivilDate.dayNumber, year, month] at same
  omega

theorem dayNumber_iterate (d : CivilDate) (n : Nat) :
    (CivilDate.next^[n] d).dayNumber = d.dayNumber + n := by
  induction n generalizing d with
  | zero => simp
  | succ n ih =>
      rw [Function.iterate_succ_apply, ih, dayNumber_next]
      omega

/-- One date comes `n` days after another exactly when its number is larger by `n`. -/
theorem iterate_next_iff (a b : CivilDate) (n : Nat) :
    CivilDate.next^[n] a = b ↔ b.dayNumber = a.dayNumber + n := by
  constructor
  · rintro rfl
    exact dayNumber_iterate a n
  · intro later
    exact dayNumber_injective ((dayNumber_iterate a n).trans later.symm)

end

end Gregorian
