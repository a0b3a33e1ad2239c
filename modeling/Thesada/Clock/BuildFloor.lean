import Thesada.Library.CString
import Thesada.Library.Gregorian

/-!
# The build stamp as a floor of the clock

`clockFloorDaysFromCivil` counts the days of a date from 1970 on, in years that begin in March.
`clockFloorBuildEpoch` reads the stamp of the compiler and takes a day off for its time zone.

The arithmetic on the year is exact: from `INT_MIN + 400` on no step leaves its type.
-/

namespace Thesada.Clock

open CString Gregorian

def CLOCK_FLOOR_BUILD_MARGIN_S : Int := 86400

/-! ## Days -/

/-- The year that begins in March. -/
def marchYear (y : Int) (m : Nat) : Int := if m ≤ 2 then y - 1 else y

def civilEra (y : Int) : Int := (if 0 ≤ y then y else y - 399).tdiv 400

/-- The day of the year that begins in March. -/
def civilDoy (m d : Nat) : Nat := (153 * (if 2 < m then m - 3 else m + 9) + 2) / 5 + d - 1

def clockFloorDaysFromCivil (y : Int) (m d : Nat) : Int :=
  let y := marchYear y m
  let era := civilEra y
  let yoe := (y - era * 400).toNat
  let doe := yoe * 365 + yoe / 4 - yoe / 100 + civilDoy m d
  era * 146097 + doe - 719468

/-! ## The stamp -/

def MMM : Str := "JanFebMarAprMayJunJulAugSepOctNovDec".toList

/-- The character at an index, up to the terminator. -/
def charAt (s : Str) (i : Nat) : Char := s.getD i '\x00'

def stampMonth (date : Str) : Nat :=
  ((List.range 12).find? fun i =>
    charAt date 0 = charAt MMM (i * 3) && charAt date 1 = charAt MMM (i * 3 + 1) &&
      charAt date 2 = charAt MMM (i * 3 + 2)).elim 0 (· + 1)

/-- One digit behind a space, or two. -/
def stampDay (date : Str) : Option Nat :=
  if charAt date 4 = ' ' then
    if '1' ≤ charAt date 5 ∧ charAt date 5 ≤ '9' then some (digitValue (charAt date 5)) else none
  else if ('1' ≤ charAt date 4 ∧ charAt date 4 ≤ '3') ∧ (charAt date 5).isDigit then
    some (digitValue (charAt date 4) * 10 + digitValue (charAt date 5))
  else none

def stampYear (date : Str) : Option Nat :=
  [7, 8, 9, 10].foldlM (fun year i =>
    if (charAt date i).isDigit then some (year * 10 + digitValue (charAt date i)) else none) 0

def stampTimeShape (time : Str) : Bool :=
  (List.range 8).all fun i =>
    if i = 2 ∨ i = 5 then charAt time i = ':' else (charAt time i).isDigit

/-- Two digits of a time. -/
def stampTwo (time : Str) (i : Nat) : Nat :=
  digitValue (charAt time i) * 10 + digitValue (charAt time (i + 1))

/-- The stamp of a date and a time, as a `uint32_t`. -/
def stampEpoch (date time : Str) : Nat :=
  if stampMonth date = 0 ∨ charAt date 3 ≠ ' ' then 0
  else
    match stampDay date with
    | none => 0
    | some day =>
        if 31 < day ∨ charAt date 6 ≠ ' ' then 0
        else
          match stampYear date with
          | none => 0
          | some year =>
              if year < 2023 then 0
              else if !stampTimeShape time then 0
              else
                let hh := stampTwo time 0
                let mm := stampTwo time 3
                let ss := stampTwo time 6
                if 23 < hh ∨ 59 < mm ∨ 60 < ss then 0
                else
                  let epoch : Int := clockFloorDaysFromCivil year (stampMonth date) day * 86400 +
                    (hh * 3600 + mm * 60 + ss : Nat)
                  if epoch ≤ CLOCK_FLOOR_BUILD_MARGIN_S then 0
                  else ((epoch - CLOCK_FLOOR_BUILD_MARGIN_S) % 4294967296).toNat

def clockFloorBuildEpoch : (date time : Option Str) → Nat
  | some date, some time => stampEpoch date time
  | _, _ => 0

/-! ## What the compiler writes -/

def monthNames : List String :=
  ["Jan", "Feb", "Mar", "Apr", "May", "Jun", "Jul", "Aug", "Sep", "Oct", "Nov", "Dec"]

/-- The last digits of a number. -/
def twoDigits (n : Nat) : Str := [Nat.digitChar (n / 10 % 10), Nat.digitChar (n % 10)]

def dayText (n : Nat) : Str := if n < 10 then [' ', Nat.digitChar n] else twoDigits n

/-- `__DATE__`. -/
def dateStamp (d : CivilDate) : Str :=
  (monthNames.getD (d.month - 1) "").toList ++ ' ' :: dayText d.day ++
    ' ' :: twoDigits (d.year.toNat / 100) ++ twoDigits d.year.toNat

/-- `__TIME__`. -/
def timeStamp (hour minute second : Nat) : Str :=
  twoDigits hour ++ ':' :: twoDigits minute ++ ':' :: twoDigits second

theorem january_le : 1 ≤ 12 := by decide

def unixDay : CivilDate where
  year := 1970
  month := 1
  day := 1
  month_pos := Nat.one_pos
  month_le := january_le
  day_pos := Nat.one_pos
  day_le := by decide

/-- A time of the clock, and a leap second as the one behind it. -/
def instant (d : CivilDate) (hour minute second : Nat) : Int :=
  (d.dayNumber - unixDay.dayNumber) * 86400 + hour * 3600 + minute * 60 + second

/-- A build from 2023 on whose floor is a `uint32_t`. -/
structure Build where
  date : CivilDate
  hour : Nat
  minute : Nat
  second : Nat
  since : 2023 ≤ date.year
  hour_le : hour ≤ 23
  minute_le : minute ≤ 59
  second_le : second ≤ 60
  fits : instant date hour minute second - CLOCK_FLOOR_BUILD_MARGIN_S < 4294967296

/-! ## The days of a date -/

section

variable {y : Int} {m d n : Nat}

theorem civilEra_eq (y : Int) : civilEra y = y / 400 := by
  unfold civilEra
  split
  · next pos => exact Int.tdiv_eq_ediv_of_nonneg pos
  · next neg =>
      rw [Int.tdiv_eq_ediv]
      split
      · omega
      · simp only [Int.sign]
        omega

/-- No step leaves an `int`, and the year of the era is not negative. -/
theorem clockFloorDaysFromCivil_fits (low : -2147483648 + 400 ≤ y) (m : Nat) :
    -2147483648 ≤ marchYear y m - 399 ∧ -2147483648 ≤ civilEra (marchYear y m) * 400 ∧
      0 ≤ marchYear y m - civilEra (marchYear y m) * 400 ∧
        marchYear y m - civilEra (marchYear y m) * 400 < 400 := by
  have march : y - 1 ≤ marchYear y m := by
    rw [marchYear]
    split
    · exact Int.le_refl _
    · omega
  rw [civilEra_eq]
  omega

/-- The days of a year that begins in March, counted with the rules for leap years. -/
theorem clockFloorDaysFromCivil_eq (y : Int) (m d : Nat) :
    clockFloorDaysFromCivil y m d =
      365 * marchYear y m + marchYear y m / 4 - marchYear y m / 100 + marchYear y m / 400 +
        civilDoy m d - 719468 := by
  simp only [clockFloorDaysFromCivil, civilEra_eq]
  omega

/-- The days before a month, told by the month counted from March. -/
theorem daysBeforeMonth_march (y : Int) (pos : 1 ≤ m) (le : m ≤ 12) (first : 1 ≤ d) :
    (daysBeforeMonth y m : Int) + d =
      civilDoy m d + 1 + if m ≤ 2 then -306 else if isLeap y then 60 else 59 := by
  have each : m = 1 ∨ m = 2 ∨ m = 3 ∨ m = 4 ∨ m = 5 ∨ m = 6 ∨ m = 7 ∨ m = 8 ∨ m = 9 ∨ m = 10 ∨
      m = 11 ∨ m = 12 := by
    omega
  obtain rfl | rfl | rfl | rfl | rfl | rfl | rfl | rfl | rfl | rfl | rfl | rfl := each <;>
    cases leap : isLeap y <;>
    simp [daysBeforeMonth, List.range_succ, daysInMonth, civilDoy, leap] <;>
    omega

/-- The days from 1970 on. -/
theorem clockFloorDaysFromCivil_dayNumber (d : CivilDate) :
    clockFloorDaysFromCivil d.year d.month d.day = d.dayNumber - unixDay.dayNumber := by
  have epoch : unixDay.dayNumber = 719163 := by decide
  have months := daysBeforeMonth_march d.year d.month_pos d.month_le d.day_pos
  have years : isLeap d.year = true ↔
      (d.year % 4 = 0 ∧ d.year % 100 ≠ 0) ∨ d.year % 400 = 0 := decide_eq_true_iff
  rw [clockFloorDaysFromCivil_eq, epoch, CivilDate.dayNumber,
    Int.add_assoc (daysBeforeYear d.year), months, daysBeforeYear, marchYear]
  split
  · omega
  · split
    · next leap =>
        have rule := years.mp leap
        omega
    · next common =>
        have rule := mt years.mpr common
        omega

end

/-! ## Reading the stamp -/

section

variable {date time : Str} {n : Nat}

/-- A digit that was written is read back. -/
theorem digitChar_read (small : n < 10) :
    (Nat.digitChar n).isDigit = true ∧ digitValue (Nat.digitChar n) = n ∧
      Nat.digitChar n ≠ ' ' ∧ (1 ≤ n → '1' ≤ Nat.digitChar n) ∧ Nat.digitChar n ≤ '9' ∧
        (n ≤ 3 → Nat.digitChar n ≤ '3') := by
  have each : ∀ n : Fin 10, (Nat.digitChar n).isDigit = true ∧
      digitValue (Nat.digitChar n) = n ∧ Nat.digitChar n ≠ ' ' ∧
        (1 ≤ n.val → '1' ≤ Nat.digitChar n) ∧ Nat.digitChar n ≤ '9' ∧
          (n.val ≤ 3 → Nat.digitChar n ≤ '3') := by decide
  exact each ⟨n, small⟩

/-- Two digits, wherever they stand. -/
theorem twoDigits_read (n : Nat) :
    ∃ a b, twoDigits n = [a, b] ∧ a.isDigit = true ∧ b.isDigit = true ∧
      digitValue a * 10 + digitValue b = n % 100 := by
  obtain ⟨tens, high, -⟩ := digitChar_read (Nat.mod_lt (n / 10) (by decide : 0 < 10))
  obtain ⟨ones, low, -⟩ := digitChar_read (Nat.mod_lt n (by decide : 0 < 10))
  refine ⟨_, _, rfl, tens, ones, ?_⟩
  rw [high, low]
  omega

/-- The eleven characters of a date. -/
theorem dateStamp_chars (d : CivilDate) :
    ∃ a b c e f, (monthNames.getD (d.month - 1) "").toList = [a, b, c] ∧ dayText d.day = [e, f] ∧
      dateStamp d = a :: b :: c :: ' ' :: e :: f :: ' ' ::
        (twoDigits (d.year.toNat / 100) ++ twoDigits d.year.toNat) := by
  have names : ∀ i : Fin 12, (monthNames.getD i "").toList.length = 3 := by decide
  have index : d.month - 1 < 12 := by
    have := d.month_le
    omega
  obtain ⟨a, b, c, name⟩ := List.length_eq_three.mp (names ⟨d.month - 1, index⟩)
  have days : ∃ e f, dayText d.day = [e, f] := by
    rw [dayText]
    split
    · exact ⟨_, _, rfl⟩
    · exact ⟨_, _, rfl⟩
  obtain ⟨e, f, day⟩ := days
  refine ⟨a, b, c, e, f, name, day, ?_⟩
  rw [dateStamp, day]
  simp only at name
  rw [name]
  rfl

theorem stampMonth_dateStamp (d : CivilDate) : stampMonth (dateStamp d) = d.month := by
  obtain ⟨a, b, c, e, f, name, -, chars⟩ := dateStamp_chars d
  have names : ∀ i : Fin 12, stampMonth (monthNames.getD i "").toList = i.val + 1 := by decide
  have index : d.month - 1 < 12 := by
    have := d.month_le
    omega
  have read := names ⟨d.month - 1, index⟩
  simp only at read
  rw [name, Nat.sub_add_cancel d.month_pos] at read
  rw [chars, ← read]
  rfl

theorem stampDay_dateStamp (d : CivilDate) :
    stampDay (dateStamp d) = some d.day ∧ d.day ≤ 31 := by
  obtain ⟨a, b, c, e, f, -, day, chars⟩ := dateStamp_chars d
  have days : ∀ n : Fin 32, 1 ≤ n.val →
      stampDay (' ' :: ' ' :: ' ' :: ' ' :: dayText n) = some n.val := by decide
  have le : d.day ≤ 31 := Nat.le_trans d.day_le (daysInMonth_le d.year d.month)
  have read := days ⟨d.day, Nat.lt_succ_of_le le⟩ d.day_pos
  simp only at read
  rw [day] at read
  refine ⟨?_, le⟩
  rw [chars, ← read]
  rfl

theorem stampYear_dateStamp {d : CivilDate} (since : 0 ≤ d.year) (short : d.year < 10000) :
    stampYear (dateStamp d) = some d.year.toNat := by
  obtain ⟨a, b, c, e, f, -, -, chars⟩ := dateStamp_chars d
  obtain ⟨g, h, high, gd, hd, hundreds⟩ := twoDigits_read (d.year.toNat / 100)
  obtain ⟨k, l, low, kd, ld, ones⟩ := twoDigits_read d.year.toNat
  rw [chars, high, low]
  have at7 (r : Str) : charAt (a :: b :: c :: ' ' :: e :: f :: ' ' :: g :: r) 7 = g := rfl
  have at8 (r : Str) : charAt (a :: b :: c :: ' ' :: e :: f :: ' ' :: g :: h :: r) 8 = h := rfl
  have at9 (r : Str) : charAt (a :: b :: c :: ' ' :: e :: f :: ' ' :: g :: h :: k :: r) 9 = k :=
    rfl
  have at10 : charAt (a :: b :: c :: ' ' :: e :: f :: ' ' :: g :: h :: k :: l :: []) 10 = l := rfl
  simp only [stampYear, List.cons_append, List.nil_append, List.foldlM_cons, List.foldlM_nil, at7,
    at8, at9, at10, gd, hd, kd, ld, if_true, Option.bind_eq_bind, Option.bind_some,
    Option.pure_def]
  congr 1
  omega

theorem timeStamp_read {hour minute second : Nat} (h : hour ≤ 23) (m : minute ≤ 59)
    (s : second ≤ 60) :
    stampTimeShape (timeStamp hour minute second) = true ∧
      stampTwo (timeStamp hour minute second) 0 = hour ∧
      stampTwo (timeStamp hour minute second) 3 = minute ∧
      stampTwo (timeStamp hour minute second) 6 = second := by
  obtain ⟨a, b, hours, ad, bd, hv⟩ := twoDigits_read hour
  obtain ⟨c, e, minutes, cd, ed, mv⟩ := twoDigits_read minute
  obtain ⟨f, g, seconds, fd, gd, sv⟩ := twoDigits_read second
  rw [timeStamp, hours, minutes, seconds]
  refine ⟨?_, ?_, ?_, ?_⟩
  · simp [stampTimeShape, List.range_succ, charAt, ad, bd, cd, ed, fd, gd]
  · exact hv.trans (Nat.mod_eq_of_lt (by omega))
  · exact mv.trans (Nat.mod_eq_of_lt (by omega))
  · exact sv.trans (Nat.mod_eq_of_lt (by omega))

end

/-! ## The floor of a build -/

/-- The limit of the type comes before the year has five digits. -/
theorem Build.year_lt (s : Build) : s.date.year < 10000 := by
  by_contra far
  have first : daysBeforeYear 10000 ≤ daysBeforeYear s.date.year :=
    daysBeforeYear_mono (Int.not_lt.mp far)
  have inside := (dayNumber_bounds s.date).1
  have value : daysBeforeYear 10000 = 3652059 := by decide
  have epoch : unixDay.dayNumber = 719163 := by decide
  have fits := s.fits
  rw [instant, epoch, CLOCK_FLOOR_BUILD_MARGIN_S] at fits
  omega

/-- A build from 2023 on is more than a day behind 1970. -/
theorem Build.instant_gt (s : Build) :
    CLOCK_FLOOR_BUILD_MARGIN_S < instant s.date s.hour s.minute s.second := by
  have first := daysBeforeYear_mono s.since
  have inside := (dayNumber_bounds s.date).1
  have value : daysBeforeYear 2023 = 738520 := by decide
  have epoch : unixDay.dayNumber = 719163 := by decide
  rw [instant, epoch, CLOCK_FLOOR_BUILD_MARGIN_S]
  omega

theorem stampEpoch_build (s : Build) :
    (stampEpoch (dateStamp s.date) (timeStamp s.hour s.minute s.second) : Int) =
      instant s.date s.hour s.minute s.second - CLOCK_FLOOR_BUILD_MARGIN_S := by
  have since := s.since
  have pos := s.date.month_pos
  obtain ⟨a, b, c, e, f, -, -, chars⟩ := dateStamp_chars s.date
  have space3 : charAt (dateStamp s.date) 3 = ' ' := by rw [chars]; rfl
  have space6 : charAt (dateStamp s.date) 6 = ' ' := by rw [chars]; rfl
  obtain ⟨day, dayLe⟩ := stampDay_dateStamp s.date
  have year := stampYear_dateStamp (Int.le_trans (by decide) since) s.year_lt
  obtain ⟨shape, hh, mm, ss⟩ := timeStamp_read s.hour_le s.minute_le s.second_le
  have after := s.instant_gt
  have fits := s.fits
  have days := clockFloorDaysFromCivil_dayNumber s.date
  have years : ((s.date.year.toNat : Nat) : Int) = s.date.year :=
    Int.toNat_of_nonneg (Int.le_trans (by decide) since)
  have total : clockFloorDaysFromCivil s.date.year.toNat s.date.month s.date.day * 86400 +
      (s.hour * 3600 + s.minute * 60 + s.second : Nat) =
        instant s.date s.hour s.minute s.second := by
    rw [years, days, instant]
    omega
  have inDay : ¬(23 < s.hour ∨ 59 < s.minute ∨ 60 < s.second) := by
    have hours := s.hour_le
    have minutes := s.minute_le
    have seconds := s.second_le
    omega
  have month : ¬(s.date.month = 0 ∨ ' ' ≠ ' ') := by
    rintro (none | other)
    · omega
    · exact other rfl
  have inMonth : ¬(31 < s.date.day ∨ ' ' ≠ ' ') := by
    rintro (past | other)
    · omega
    · exact other rfl
  rw [stampEpoch, stampMonth_dateStamp, space3, day, space6, year, shape, hh, mm, ss]
  dsimp only
  rw [total, if_neg month, if_neg inMonth, if_neg (by omega), if_neg (by decide), if_neg inDay,
    if_neg (Int.not_le.mpr after)]
  omega

/-- The days of every date are counted from 1970 on, and the stamp of a build is read as its
instant, a day earlier. -/
theorem clock_floor_counts_days :
    (∀ a b : CivilDate, ∀ n : Nat, CivilDate.next^[n] a = b ↔
      clockFloorDaysFromCivil b.year b.month b.day =
        clockFloorDaysFromCivil a.year a.month a.day + n) ∧
    clockFloorDaysFromCivil 1970 1 1 = 0 ∧
    ∀ s : Build,
      (clockFloorBuildEpoch (some (dateStamp s.date)) (some (timeStamp s.hour s.minute s.second)) :
        Int) = instant s.date s.hour s.minute s.second - CLOCK_FLOOR_BUILD_MARGIN_S := by
  refine ⟨fun a b n => ?_, rfl, stampEpoch_build⟩
  rw [iterate_next_iff, clockFloorDaysFromCivil_dayNumber, clockFloorDaysFromCivil_dayNumber]
  constructor
  · intro later
    omega
  · intro later
    omega

end Thesada.Clock
