import ExportVolumes.Time.Calendar
import Mathlib.Tactic.IntervalCases

namespace ExportVolumes
namespace CivilDate

/-!
Counting the days of the calendar.

`CivilDate.dayNumber` counts the days from 1970-01-01 as one would by hand: the days of the years
between, then the days of the months of the year, then the day of the month.  Counting years from
March in cycles of 400 comes to the same number (`CivilDate.toDays_eq_dayNumber`), and the date of a
number of days is the one date that lies so many days away (`CivilDate.dayNumber_ofDays`).
-/

/-! ## Days by years and months -/

theorem isLeapYear_iff {year : Int} :
    isLeapYear year = true ↔ year % 4 = 0 ∧ (year % 100 ≠ 0 ∨ year % 400 = 0) := by
  simp [isLeapYear]

theorem isValid_iff {date : CivilDate} :
    date.isValid = true ↔ (1 ≤ date.month ∧ date.month ≤ 12) ∧ 1 ≤ date.day ∧
      date.day ≤ daysInMonth date.year date.month := by
  simp [isValid, and_assoc]

/-- The number of leap days of a year. -/
def leapDays (year : Int) : Nat :=
  if isLeapYear year then 1 else 0

/-- The number of leap years up to the end of a year, from an arbitrary year on. -/
def leapsThrough (year : Int) : Int :=
  year / 4 - year / 100 + year / 400

/-- The number of days from the beginning of 1970 to the beginning of a year. -/
def daysBeforeYear (year : Int) : Int :=
  365 * (year - 1970) + (leapsThrough (year - 1) - leapsThrough 1969)

/-- The number of days of the months before a month of a year. -/
def daysBeforeMonth (year : Int) (month : Nat) : Nat :=
  ((List.range' 1 (month - 1)).map (daysInMonth year)).sum

/-- The number of days from 1970-01-01 to a date. -/
def dayNumber (date : CivilDate) : Int :=
  daysBeforeYear date.year + daysBeforeMonth date.year date.month + date.day - 1

theorem leapsThrough_pred (year : Int) :
    leapsThrough year = leapsThrough (year - 1) + leapDays year := by
  unfold leapsThrough leapDays
  by_cases leap : isLeapYear year = true
  · rw [if_pos leap]
    rw [isLeapYear_iff] at leap
    omega
  · rw [if_neg leap]
    rw [isLeapYear_iff] at leap
    omega

/-- A year has 366 days if it is a leap year, and 365 otherwise. -/
theorem daysBeforeYear_succ (year : Int) :
    daysBeforeYear (year + 1) = daysBeforeYear year + 365 + leapDays year := by
  have leaps := leapsThrough_pred year
  unfold daysBeforeYear
  rw [Int.add_sub_cancel, leaps]
  omega

/-- From March on, five months have 153 days. -/
theorem daysBeforeMonth_eq {month : Nat} (first : 1 ≤ month) (last : month ≤ 12) (year : Int) :
    daysBeforeMonth year month =
      if month ≤ 2 then 31 * (month - 1) else 59 + (153 * (month - 3) + 2) / 5 + leapDays year := by
  unfold leapDays
  by_cases leap : isLeapYear year = true <;> interval_cases month <;>
    simp [daysBeforeMonth, List.range', daysInMonth, leap]

/-- Counted from March in cycles of 400 years, it is as many days. -/
theorem toDays_eq_dayNumber {date : CivilDate} (valid : date.isValid = true) :
    date.toDays = date.dayNumber := by
  rcases isValid_iff.mp valid with ⟨⟨first, last⟩, _⟩
  have leaps := leapsThrough_pred date.year
  unfold leapsThrough at leaps
  simp only [toDays, dayNumber, daysBeforeYear, leapsThrough, daysBeforeMonth_eq first last]
  by_cases early : date.month ≤ 2
  · simp only [if_pos early]
    omega
  · simp only [if_neg early]
    omega

/-! ## The day of a cycle -/

/-- A day of a cycle of 400 years that begin in March: full centuries, full spans of four years,
full years and the day of the year.  Only the last year of a span has a leap day, and that of the
last span only in the last century. -/
structure CycleDay where
  century : Int
  span : Int
  rest : Int
  dayOfYear : Int
  century_mem : 0 ≤ century ∧ century ≤ 3
  span_mem : 0 ≤ span ∧ span ≤ 24
  rest_mem : 0 ≤ rest ∧ rest ≤ 3
  day_mem : 0 ≤ dayOfYear ∧ dayOfYear ≤ 365
  leap : dayOfYear = 365 → rest = 3 ∧ (span = 24 → century = 3)

namespace CycleDay

/-- The number of the day within the cycle. -/
def number (day : CycleDay) : Int :=
  36524 * day.century + 1461 * day.span + 365 * day.rest + day.dayOfYear

/-- The year of the cycle. -/
def year (day : CycleDay) : Int :=
  100 * day.century + 4 * day.span + day.rest

/-- Every number below the days of a cycle is that of a day. -/
theorem exists_number {number : Int} (first : 0 ≤ number) (last : number < 146097) :
    ∃ day : CycleDay, day.number = number := by
  have centuries : ∃ century left : Int, (0 ≤ century ∧ century ≤ 3) ∧ (0 ≤ left ∧ left ≤ 36524) ∧
      (left = 36524 → century = 3) ∧ number = 36524 * century + left :=
    ⟨min (number / 36524) 3, number - 36524 * min (number / 36524) 3, by omega, by omega, by omega,
      by omega⟩
  rcases centuries with ⟨century, left, centuryMem, leftMem, full, rfl⟩
  have spans : ∃ span days : Int, (0 ≤ span ∧ span ≤ 24) ∧ (0 ≤ days ∧ days ≤ 1460) ∧
      left = 1461 * span + days :=
    ⟨left / 1461, left % 1461, by omega, by omega, by omega⟩
  rcases spans with ⟨span, days, spanMem, daysMem, rfl⟩
  refine ⟨{ century, span, rest := min (days / 365) 3, dayOfYear := days - 365 * min (days / 365) 3,
            century_mem := centuryMem, span_mem := spanMem, rest_mem := by omega,
            day_mem := by omega, leap := by omega }, ?_⟩
  simp only [number]
  omega

/-- Of the days of a cycle, the leap days are left out, and the years are what is left by 365. -/
theorem year_eq (day : CycleDay) :
    (day.number - day.number / 1460 + day.number / 36524 - day.number / 146096) / 365 =
      day.year := by
  rcases day with ⟨c, s, r, d, ⟨c0, c3⟩, ⟨s0, s24⟩, ⟨r0, r3⟩, ⟨d0, d365⟩, leap⟩
  simp only [number, year]
  by_cases last : c = 3 ∧ s = 24 ∧ r = 3 ∧ d = 365
  · rcases last with ⟨rfl, rfl, rfl, rfl⟩
    decide
  · have centuries : (36524 * c + 1461 * s + 365 * r + d) / 36524 = c := by omega
    have cycles : (36524 * c + 1461 * s + 365 * r + d) / 146096 = 0 := by omega
    have leaps : (36524 * c + 1461 * s + 365 * r + d) / 1460 =
        25 * c + s + (24 * c + s + 365 * r + d) / 1460 := by omega
    have leapless : (24 * c + s + 365 * r + d) / 1460 ≤ d ∧
        d - (24 * c + s + 365 * r + d) / 1460 < 365 := by omega
    rw [centuries, cycles, leaps]
    omega

theorem dayOfYear_eq (day : CycleDay) :
    day.number - (365 * day.year + day.year / 4 - day.year / 100) = day.dayOfYear := by
  rcases day with ⟨c, s, r, d, ⟨c0, c3⟩, ⟨s0, s24⟩, ⟨r0, r3⟩, _, _⟩
  simp only [number, year]
  omega

/-- The months from March on: the year, the month and the day of a day of a cycle. -/
def date (cycle : Int) (day : CycleDay) : CivilDate :=
  let month := (5 * day.dayOfYear + 2) / 153
  { year := day.year + cycle * 400 + if month < 10 then 0 else 1
    month := (if month < 10 then month + 3 else month - 9).toNat
    day := (day.dayOfYear - (153 * month + 2) / 5 + 1).toNat }

theorem ofDays_number (cycle : Int) (day : CycleDay) :
    ofDays (cycle * 146097 + day.number - 719468) = day.date cycle := by
  have bounds : 0 ≤ day.number ∧ day.number < 146097 := by
    rcases day with ⟨c, s, r, d, ⟨c0, c3⟩, ⟨s0, s24⟩, ⟨r0, r3⟩, ⟨d0, d365⟩, leap⟩
    simp only [number]
    omega
  have shifted : cycle * 146097 + day.number - 719468 + 719468 = cycle * 146097 + day.number := by
    omega
  have quotient : (cycle * 146097 + day.number) / 146097 = cycle := by omega
  have remainder : (cycle * 146097 + day.number) % 146097 = day.number := by omega
  have months : 0 ≤ (5 * day.dayOfYear + 2) / 153 ∧ (5 * day.dayOfYear + 2) / 153 < 12 := by
    have mem := day.day_mem
    omega
  simp only [ofDays, shifted, quotient, remainder, day.year_eq, day.dayOfYear_eq, date]
  congr 1
  split
  · rw [if_neg (by omega)]
  · rw [if_pos (by omega)]

/-- The last day of February is a leap day only in a leap year. -/
theorem leap_of_last (cycle : Int) {day : CycleDay} (last : day.dayOfYear = 365) :
    isLeapYear (day.year + cycle * 400 + 1) = true := by
  rcases day with ⟨c, s, r, d, ⟨c0, c3⟩, ⟨s0, s24⟩, ⟨r0, r3⟩, _, leap⟩
  simp only at last
  rw [isLeapYear_iff]
  simp only [year]
  have full := leap last
  omega

theorem isValid_date (cycle : Int) (day : CycleDay) : (day.date cycle).isValid = true := by
  have leap := @leap_of_last cycle day
  have mem := day.day_mem
  rw [isValid_iff]
  simp only [date]
  generalize day.dayOfYear = number at leap mem
  generalize day.year + cycle * 400 = year at leap
  have months : 0 ≤ (5 * number + 2) / 153 ∧ (5 * number + 2) / 153 < 12 := by omega
  have within : 153 * ((5 * number + 2) / 153) ≤ 5 * number + 2 ∧
      5 * number + 2 < 153 * ((5 * number + 2) / 153) + 153 := by omega
  generalize (5 * number + 2) / 153 = month at months within
  rcases months with ⟨first, last⟩
  by_cases leapDay : number = 365
  · -- Only February reaches the last day of a leap year.
    have february : month = 11 := by omega
    subst february
    simp [daysInMonth, leap leapDay, leapDay]
  · interval_cases month <;> simp [daysInMonth] <;> (try split) <;> omega

theorem toDays_date (cycle : Int) (day : CycleDay) :
    (day.date cycle).toDays = cycle * 146097 + day.number - 719468 := by
  rcases day with ⟨c, s, r, d, ⟨c0, c3⟩, ⟨s0, s24⟩, ⟨r0, r3⟩, ⟨d0, d365⟩, leap⟩
  simp only [date, toDays, year, number]
  have months : 0 ≤ (5 * d + 2) / 153 ∧ (5 * d + 2) / 153 < 12 := by omega
  have dayOfMonth : 0 ≤ d - (153 * ((5 * d + 2) / 153) + 2) / 5 := by omega
  have cycles : (100 * c + 4 * s + r + cycle * 400) / 400 = cycle := by omega
  have years : (100 * c + 4 * s + r + cycle * 400) % 400 = 100 * c + 4 * s + r := by omega
  generalize (5 * d + 2) / 153 = month at months dayOfMonth
  by_cases early : month < 10
  · have late : ¬ (month + 3).toNat ≤ 2 := by omega
    have same : (((month + 3).toNat + 9) % 12 : Nat) = month := by omega
    simp only [if_pos early, if_neg late, Int.add_zero, cycles, years, same]
    omega
  · have soon : (month - 9).toNat ≤ 2 := by omega
    have same : (((month - 9).toNat + 9) % 12 : Nat) = month := by omega
    simp only [if_neg early, if_pos soon, Int.add_sub_cancel, cycles, years, same]
    omega

end CycleDay

/-! ## The date of a number of days -/

/-- Every number of days is that of a day of some cycle. -/
theorem exists_cycleDay (days : Int) :
    ∃ (cycle : Int) (day : CycleDay), days = cycle * 146097 + day.number - 719468 := by
  have first : 0 ≤ (days + 719468) % 146097 := Int.emod_nonneg _ (by decide)
  have last : (days + 719468) % 146097 < 146097 := Int.emod_lt_of_pos _ (by decide)
  rcases CycleDay.exists_number first last with ⟨day, number⟩
  refine ⟨(days + 719468) / 146097, day, ?_⟩
  rw [number]
  omega

theorem isValid_ofDays (days : Int) : (ofDays days).isValid = true := by
  rcases exists_cycleDay days with ⟨cycle, day, rfl⟩
  rw [CycleDay.ofDays_number]
  exact day.isValid_date cycle

/-- The date of a number of days lies so many days from 1970-01-01. -/
@[simp]
theorem dayNumber_ofDays (days : Int) : (ofDays days).dayNumber = days := by
  rw [← toDays_eq_dayNumber (isValid_ofDays days)]
  rcases exists_cycleDay days with ⟨cycle, day, rfl⟩
  rw [CycleDay.ofDays_number]
  exact day.toDays_date cycle

/-! ## Years by days -/

theorem daysBeforeYear_lt_iff {first second : Int} :
    daysBeforeYear first < daysBeforeYear second ↔ first < second := by
  have increasing : StrictMono daysBeforeYear := by
    refine strictMono_int_of_lt_succ fun year => ?_
    rw [daysBeforeYear_succ]
    omega
  exact increasing.lt_iff_lt

/-- The days of a date and of the months before it are days of its year. -/
theorem dayOfYear_lt {date : CivilDate} (valid : date.isValid = true) :
    (daysBeforeMonth date.year date.month + date.day - 1 : Int) <
      365 + leapDays date.year := by
  rcases isValid_iff.mp valid with ⟨⟨first, last⟩, _, within⟩
  rw [daysBeforeMonth_eq first last]
  unfold daysInMonth at within
  have february : (if isLeapYear date.year then 29 else 28) = 28 + leapDays date.year := by
    unfold leapDays
    split <;> rfl
  rw [february] at within
  split_ifs at within ⊢ <;> omega

/-- A date comes before a year if it comes before its first day. -/
theorem year_lt_iff {date : CivilDate} (valid : date.isValid = true) (year : Int) :
    date.year < year ↔ date.dayNumber < daysBeforeYear year := by
  have inYear := dayOfYear_lt valid
  have next := daysBeforeYear_succ date.year
  have first : 1 ≤ date.day := (isValid_iff.mp valid).2.1
  have after := @daysBeforeYear_lt_iff year (date.year + 1)
  have before := @daysBeforeYear_lt_iff date.year year
  unfold dayNumber
  omega

end CivilDate
end ExportVolumes
