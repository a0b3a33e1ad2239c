import Thesada.Clock.BuildFloor
import Thesada.Config.ReloadCommand

/-!
# `net.ntp set`

The command takes a decimal epoch or an ISO 8601 stamp that ends in `Z`. The epoch is read as a
`long` of 32 bits. The stamp is converted by `mktime`, which takes it as local time of the zone
that `configTime` was handed; the reply prints the clock in UTC. A time up to 1700000000 is
refused.

A `time_t` has 64 bits, and no step leaves it.
-/

namespace Thesada.Clock

open CString Gregorian Config

structure SystemClock where
  /-- `tv_sec`. -/
  seconds : Int
  /-- The seconds that local time is ahead of UTC. -/
  zone : Int

/-- The offset that `scanAndConnect` hands to `configTime`. -/
def tzOff (cfg : Json) : Int := intOr cfg "ntp" "tz_offset_s" 0

def SystemClock.configTime (c : SystemClock) (tzOff : Int) : SystemClock := { c with zone := tzOff }

/-! ## Broken-down time -/

/-- A `struct tm`: years from 1900 on, months from 0 on. -/
structure Tm where
  tm_year : Int
  tm_mon : Int
  tm_mday : Int
  tm_hour : Int
  tm_min : Int
  tm_sec : Int

/-- A numeric conversion of `strptime`: a number, and what is behind it. -/
def strptimeNumber (s : Str) : Option (Int × Str) :=
  if (strtol s).2.length = s.length then none else some (strtol s)

/-- A character of the format that stands for itself. -/
def strptimeChar (c : Char) (s : Str) : Option Str := if s.head? = some c then some s.tail else none

/-- `strptime(s, "%Y-%m-%dT%H:%M:%SZ", &parsed)`. What follows the `Z` is not looked at. -/
def strptime (s : Str) : Option Tm :=
  (strptimeNumber s).bind fun year =>
  (strptimeChar '-' year.2).bind fun s => (strptimeNumber s).bind fun month =>
  (strptimeChar '-' month.2).bind fun s => (strptimeNumber s).bind fun day =>
  (strptimeChar 'T' day.2).bind fun s => (strptimeNumber s).bind fun hour =>
  (strptimeChar ':' hour.2).bind fun s => (strptimeNumber s).bind fun minute =>
  (strptimeChar ':' minute.2).bind fun s => (strptimeNumber s).bind fun second =>
  (strptimeChar 'Z' second.2).map fun _ =>
    ⟨year.1 - 1900, month.1 - 1, day.1, hour.1, minute.1, second.1⟩

/-- Months out of range are carried to the year, and days and seconds are counted on. Years that
are too far from 1900 are refused. -/
def mktime (zone : Int) (tm : Tm) : Int :=
  let year := tm.tm_year + 1900 + tm.tm_mon / 12
  let month := (tm.tm_mon % 12).toNat + 1
  let days := daysBeforeYear year + daysBeforeMonth year month + tm.tm_mday - unixDay.dayNumber
  if 11900 < year ∨ year < -8100 then -1
  else days * 86400 + tm.tm_hour * 3600 + tm.tm_min * 60 + tm.tm_sec - zone

def yearText (year : Nat) : Str :=
  if year < 10000 then twoDigits (year / 100) ++ twoDigits year else Nat.toDigits 10 year

/-- `%Y-%m-%dT%H:%M:%SZ`. -/
def isoText (d : CivilDate) (hour minute second : Nat) : Str :=
  yearText d.year.toNat ++ '-' :: twoDigits d.month ++ '-' :: twoDigits d.day ++
    'T' :: twoDigits hour ++ ':' :: twoDigits minute ++ ':' :: twoDigits second ++ ['Z']

/-- `strftime` of `gmtime`, from 1970 on. -/
def gmtimeText (epoch : Int) : Str :=
  let ofDay := (epoch % 86400).toNat
  isoText (CivilDate.next^[(epoch / 86400).toNat] unixDay) (ofDay / 3600) (ofDay / 60 % 60)
    (ofDay % 60)

/-- `%ld`. -/
def longText (n : Int) : Str :=
  if n < 0 then '-' :: Nat.toDigits 10 n.natAbs else Nat.toDigits 10 n.natAbs

/-! ## The command -/

def INVALID_TIME : Str :=
  "Invalid time. Usage: ntp set <epoch> or ntp set 2026-03-24T12:00:00Z".toList

/-- What the argument is read as; 0 for a stamp that is none. -/
def readTime (zone : Int) (arg : Str) : Int :=
  if arg.all Char.isDigit then (strtol arg).1 else (strptime arg).elim 0 (mktime zone)

/-- The `set` branch of `cmd_ntp`: the clock and the reply. -/
def cmdNtpSet (c : SystemClock) (arg : Str) : SystemClock × Str :=
  let epoch := readTime c.zone arg
  if 1700000000 < epoch then
    ({ c with seconds := epoch }, "Time set to ".toList ++ gmtimeText epoch ++
      " (epoch ".toList ++ longText (epoch.bmod 4294967296) ++ [')'])
  else (c, INVALID_TIME)

/-! ## Times as they are written -/

/-- A time of a year with four digits. -/
structure UtcTime where
  date : CivilDate
  hour : Nat
  minute : Nat
  second : Nat
  year_nonneg : 0 ≤ date.year
  year_lt : date.year < 10000
  hour_le : hour ≤ 23
  minute_le : minute ≤ 59
  second_le : second ≤ 59

abbrev EpochText := { s : Str // s ≠ [] ∧ s.all Char.isDigit = true }

inductive WrittenTime where
  | stamp (t : UtcTime)
  | epoch (digits : EpochText)

def WrittenTime.text : WrittenTime → Str
  | .stamp t => isoText t.date t.hour t.minute t.second
  | .epoch digits => digits.1

/-- The seconds from 1970 on, in UTC. -/
def WrittenTime.utc : WrittenTime → Int
  | .stamp t => instant t.date t.hour t.minute t.second
  | .epoch digits => decimal digits.1

def RefusesOrSets (c : SystemClock) (w : WrittenTime) : Prop :=
  cmdNtpSet c w.text = (c, INVALID_TIME) ∨ (cmdNtpSet c w.text).1 = { c with seconds := w.utc }

/-- A stamp is taken in the zone of the clock, and an epoch has to be a `long`. -/
def TakenExactly (zone : Int) : WrittenTime → Prop
  | .stamp t => zone = 0 ∨ instant t.date t.hour t.minute t.second - zone ≤ 1700000000
  | .epoch digits => decimal digits.1 ≤ 2147483647

/-! ## Stamps are read back -/

section

variable {digits rest : Str} {n : Nat} {c : Char}

theorem strptimeNumber_run (some_digit : digits ≠ []) (plain : ∀ c ∈ digits, c.isDigit = true)
    (fits : decimal digits ≤ 2147483647) (ends : c.isDigit = false) :
    strptimeNumber (digits ++ c :: rest) = some ((decimal digits : Int), c :: rest) := by
  have run := @strtol_run [] digits (c :: rest) (by simp) some_digit plain (by simpa using ends)
  have clamped : clampLong (decimal digits) = decimal digits := by
    rw [clampLong]
    omega
  rw [List.nil_append, clamped] at run
  have longer : (c :: rest).length ≠ (digits ++ c :: rest).length := by
    have := List.length_pos_iff.mpr some_digit
    simp only [List.length_append]
    omega
  rw [strptimeNumber, run, if_neg longer]

theorem strptimeNumber_two (n : Nat) (rest : Str) (ends : c.isDigit = false) :
    strptimeNumber (twoDigits n ++ c :: rest) = some (((n % 100 : Nat) : Int), c :: rest) := by
  obtain ⟨a, b, digits, first, second, value⟩ := twoDigits_read n
  have read : decimal [a, b] = n % 100 := by
    rw [← value]
    simp [decimal, Nat.mul_comm]
  have fits : decimal [a, b] ≤ 2147483647 := by omega
  rw [digits, strptimeNumber_run (List.cons_ne_nil _ _) (by simp [first, second]) fits ends, read]

theorem strptimeNumber_year (small : n < 10000) (rest : Str) (ends : c.isDigit = false) :
    strptimeNumber (yearText n ++ c :: rest) = some ((n : Int), c :: rest) := by
  obtain ⟨a, b, high, first, second, hundreds⟩ := twoDigits_read (n / 100)
  obtain ⟨d, e, low, third, fourth, ones⟩ := twoDigits_read n
  have read : decimal [a, b, d, e] = n := by
    simp only [decimal, List.foldl_cons, List.foldl_nil]
    omega
  have fits : decimal [a, b, d, e] ≤ 2147483647 := by omega
  have run := @strptimeNumber_run [a, b, d, e] rest c (List.cons_ne_nil _ _)
    (by simp [first, second, third, fourth]) fits ends
  rw [yearText, if_pos small, high, low, ← read]
  exact run

@[simp] theorem strptimeChar_cons (c : Char) (rest : Str) :
    strptimeChar c (c :: rest) = some rest := by
  simp [strptimeChar]

end

def UtcTime.tm (t : UtcTime) : Tm :=
  ⟨t.date.year - 1900, t.date.month - 1, t.date.day, t.hour, t.minute, t.second⟩

theorem strptime_stamp (t : UtcTime) :
    strptime (isoText t.date t.hour t.minute t.second) = some t.tm := by
  obtain ⟨d, hour, minute, second, pos, small, hourLe, minuteLe, secondLe⟩ := t
  have months : d.month % 100 = d.month := Nat.mod_eq_of_lt (by have := d.month_le; omega)
  have days : d.day % 100 = d.day := by
    have := Nat.le_trans d.day_le (daysInMonth_le d.year d.month)
    omega
  have hours : hour % 100 = hour := Nat.mod_eq_of_lt (by omega)
  have minutes : minute % 100 = minute := Nat.mod_eq_of_lt (by omega)
  have seconds : second % 100 = second := Nat.mod_eq_of_lt (by omega)
  have years : ((d.year.toNat : Nat) : Int) = d.year := Int.toNat_of_nonneg pos
  have short : d.year.toNat < 10000 := by omega
  have year (rest : Str) := @strptimeNumber_year d.year.toNat '-' short rest rfl
  have dash (n : Nat) (rest : Str) := @strptimeNumber_two '-' n rest rfl
  have letter (n : Nat) (rest : Str) := @strptimeNumber_two 'T' n rest rfl
  have colon (n : Nat) (rest : Str) := @strptimeNumber_two ':' n rest rfl
  have last (n : Nat) := @strptimeNumber_two 'Z' n [] rfl
  simp only [strptime, isoText, List.append_assoc, List.cons_append, year, dash, letter, colon,
    last, Option.bind_some, Option.map_some, strptimeChar_cons, UtcTime.tm, months, days, hours,
    minutes, seconds, years]

theorem mktime_stamp (zone : Int) (t : UtcTime) :
    mktime zone t.tm = instant t.date t.hour t.minute t.second - zone := by
  have low := t.date.month_pos
  have high := t.date.month_le
  have first := t.year_nonneg
  have last := t.year_lt
  have carried : (t.date.month - 1 : Int) / 12 = 0 := by omega
  have month : ((t.date.month - 1 : Int) % 12).toNat + 1 = t.date.month := by omega
  have near : ¬(11900 < t.date.year ∨ t.date.year < -8100) := by omega
  have year : t.date.year - 1900 + 1900 + 0 = t.date.year := by omega
  simp only [mktime, UtcTime.tm, carried, month, year, if_neg near, instant, CivilDate.dayNumber]

theorem isoText_not_digits (d : CivilDate) (hour minute second : Nat) :
    (isoText d hour minute second).all Char.isDigit = false := by
  by_contra digits
  have plain := List.all_eq_true.mp (Bool.not_eq_false _ ▸ digits) '-' (by simp [isoText])
  cases plain

theorem readTime_stamp (zone : Int) (t : UtcTime) :
    readTime zone (isoText t.date t.hour t.minute t.second) =
      instant t.date t.hour t.minute t.second - zone := by
  rw [readTime, isoText_not_digits, strptime_stamp, if_neg Bool.false_ne_true]
  exact mktime_stamp zone t

/-- A number past the largest `long` is read as that. -/
theorem readTime_epoch (zone : Int) (digits : EpochText) :
    readTime zone digits.1 = min (decimal digits.1 : Int) 2147483647 := by
  obtain ⟨text, some_digit, plain⟩ := digits
  have read := @strtol_digits [] text [] (by simp) some_digit (List.all_eq_true.mp plain) (by simp)
  rw [List.nil_append, List.append_nil] at read
  simp only [readTime, if_pos plain, read, clampLong]
  omega

/-! ## What the command does -/

/-- No reply to a time that is set is the one to a time that is refused. -/
theorem timeSet_ne (text : Str) : "Time set to ".toList ++ text ≠ INVALID_TIME := by
  intro same
  have first := congrArg List.head? same
  cases first

theorem refusesOrSets_iff {c : SystemClock} {w : WrittenTime} :
    RefusesOrSets c w ↔
      readTime c.zone w.text ≤ 1700000000 ∨ readTime c.zone w.text = w.utc := by
  by_cases accepted : 1700000000 < readTime c.zone w.text
  · rw [RefusesOrSets, cmdNtpSet, if_pos accepted]
    constructor
    · rintro (refused | set)
      · exact absurd (Prod.mk.inj refused).2 (by simpa using timeSet_ne _)
      · exact .inr (congrArg SystemClock.seconds set)
    · rintro (early | exact_time)
      · exact absurd accepted (Int.not_lt.mpr early)
      · rw [exact_time]
        exact .inr rfl
  · rw [RefusesOrSets, cmdNtpSet, if_neg accepted]
    exact iff_of_true (.inl rfl) (.inl (Int.not_lt.mp accepted))

/-- The calendar finds the date of an instant again. -/
theorem gmtimeText_instant {d : CivilDate} {hour minute second : Nat} (hourLe : hour ≤ 23)
    (minuteLe : minute ≤ 59) (secondLe : second ≤ 59) (since : 0 ≤ instant d hour minute second) :
    gmtimeText (instant d hour minute second) = isoText d hour minute second := by
  obtain ⟨days, isDays⟩ : ∃ days, days = d.dayNumber - unixDay.dayNumber := ⟨_, rfl⟩
  rw [instant, ← isDays] at since ⊢
  have whole : (days * 86400 + hour * 3600 + minute * 60 + second : Int) / 86400 = days := by
    omega
  have ofDay : ((days * 86400 + hour * 3600 + minute * 60 + second : Int) % 86400).toNat =
      hour * 3600 + minute * 60 + second := by
    omega
  have date : CivilDate.next^[days.toNat] unixDay = d := by
    rw [iterate_next_iff]
    omega
  have hours : (hour * 3600 + minute * 60 + second) / 3600 = hour := by omega
  have minutes : (hour * 3600 + minute * 60 + second) / 60 % 60 = minute := by omega
  have seconds : (hour * 3600 + minute * 60 + second) % 60 = second := by omega
  simp only [gmtimeText, whole, ofDay, date, hours, minutes, seconds]

/-- The reply names the time the clock is set to, in UTC. -/
theorem cmdNtpSet_reply {c : SystemClock} {arg : Str} {t : UtcTime}
    (late : 1700000000 < readTime c.zone arg)
    (set : (cmdNtpSet c arg).1.seconds = instant t.date t.hour t.minute t.second) :
    ("Time set to ".toList ++ isoText t.date t.hour t.minute t.second) <+:
      (cmdNtpSet c arg).2 := by
  rw [cmdNtpSet, if_pos late] at set ⊢
  have since : 0 ≤ instant t.date t.hour t.minute t.second := by
    have reads : readTime c.zone arg = instant t.date t.hour t.minute t.second := set
    omega
  simp only at set ⊢
  rw [set, gmtimeText_instant t.hour_le t.minute_le t.second_le since]
  simp

/-- Whatever the config hands to `configTime`: a written time is refused or the clock is set to
exactly it if and only if a stamp meets a zone without an offset or is refused for its shifted
time, and an epoch is a `long`. -/
theorem ntp_set_iff (cfg : Json) (c : SystemClock) (w : WrittenTime) :
    RefusesOrSets (c.configTime (tzOff cfg)) w ↔ TakenExactly (tzOff cfg) w := by
  rw [refusesOrSets_iff]
  cases w with
  | stamp t =>
      simp only [WrittenTime.text, WrittenTime.utc, TakenExactly, SystemClock.configTime,
        readTime_stamp]
      omega
  | epoch digits =>
      simp only [WrittenTime.text, WrittenTime.utc, TakenExactly, SystemClock.configTime,
        readTime_epoch]
      omega

def springNoon : UtcTime where
  date := { year := 2026, month := 3, day := 24, month_pos := by decide, month_le := by decide,
            day_pos := by decide, day_le := by decide }
  hour := 12
  minute := 0
  second := 0
  year_nonneg := by decide
  year_lt := by decide
  hour_le := by decide
  minute_le := by decide
  second_le := by decide

/-- An hour east of UTC the stamp of the usage text sets the clock an hour early. An epoch past
2038 sets it to 2038. -/
theorem ntp_set_shifts :
    let cfg : Json := .obj [("ntp".toList, .obj [("tz_offset_s".toList, .int 3600)])]
    let c := (SystemClock.mk 0 0).configTime (tzOff cfg)
    isoText springNoon.date 12 0 0 = "2026-03-24T12:00:00Z".toList ∧
      (WrittenTime.stamp springNoon).utc = 1774353600 ∧
      (cmdNtpSet c "2026-03-24T12:00:00Z".toList).1.seconds = 1774350000 ∧
      ¬RefusesOrSets c (.stamp springNoon) ∧
      (cmdNtpSet c "4000000000".toList).1.seconds = 2147483647 := by
  intro cfg c
  refine ⟨by decide +kernel, by decide +kernel, by decide +kernel, ?_, by decide +kernel⟩
  rw [refusesOrSets_iff]
  decide +kernel

end Thesada.Clock
