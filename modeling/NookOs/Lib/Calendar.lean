/-
Module: NookOs.Lib.Calendar
Purpose: The dates of the proleptic Gregorian calendar, their number among all days, and the
  dates before and after one.
Trusted boundary: none
Main exports: isLeapYear, daysInMonth, Date, Date.number, Date.ofNumber, Date.number_ofNumber
-/
import Mathlib.Logic.Function.Iterate
import Mathlib.Tactic.Common

namespace NookOs.Lib.Calendar

def isLeapYear (year : Int) : Bool := year % 4 = 0 ∧ (year % 100 ≠ 0 ∨ year % 400 = 0)

def daysInMonth (year : Int) : Nat → Nat
  | 2 => if isLeapYear year then 29 else 28
  | 4 | 6 | 9 | 11 => 30
  | _ => 31

/-- A day of a month of a year. -/
@[ext] structure Date where
  year : Int
  month : Nat
  day : Nat
  monthRange : 1 ≤ month ∧ month ≤ 12
  dayRange : 1 ≤ day ∧ day ≤ daysInMonth year month

section Months

variable {year : Int} {month : Nat}

theorem daysInMonth_pos : 1 ≤ daysInMonth year month := by
  unfold daysInMonth
  split
  · split <;> decide
  all_goals decide

theorem daysInMonth_le : daysInMonth year month ≤ 31 := by
  unfold daysInMonth
  split
  · split <;> decide
  all_goals decide

/-- The days of a year that lie before one of its months. -/
def daysBeforeMonth (year : Int) : Nat → Nat
  | 0 | 1 => 0
  | month + 2 => daysBeforeMonth year (month + 1) + daysInMonth year (month + 1)

theorem daysBeforeMonth_succ (positive : 1 ≤ month) :
    daysBeforeMonth year (month + 1) = daysBeforeMonth year month + daysInMonth year month := by
  obtain ⟨earlier, rfl⟩ := Nat.exists_eq_add_of_le' positive
  rfl

theorem daysBeforeMonth_mono {later : Nat} (ordered : month ≤ later) :
    daysBeforeMonth year month ≤ daysBeforeMonth year later := by
  induction ordered with
  | refl => exact Nat.le_refl _
  | @step later _ ih =>
      cases later with
      | zero => exact ih
      | succ earlier => exact Nat.le_add_right_of_le ih

/-- The months of a year make it up. -/
theorem daysBeforeMonth_thirteen :
    daysBeforeMonth year 13 = if isLeapYear year then 366 else 365 := by
  simp only [daysBeforeMonth, daysInMonth]
  split <;> rfl

/-- The days that lie before a year, from the first of year one on. -/
def daysBeforeYear (year : Int) : Int :=
  365 * (year - 1) + (year - 1) / 4 - (year - 1) / 100 + (year - 1) / 400

theorem daysBeforeYear_succ :
    daysBeforeYear (year + 1) = daysBeforeYear year + daysBeforeMonth year 13 := by
  rw [daysBeforeMonth_thirteen]
  unfold daysBeforeYear
  by_cases leap : isLeapYear year = true
  · rw [if_pos leap]
    simp only [isLeapYear, decide_eq_true_eq] at leap
    omega
  · rw [if_neg leap]
    simp only [isLeapYear, decide_eq_true_eq] at leap
    omega

theorem daysBeforeYear_mono {later : Int} (ordered : year ≤ later) :
    daysBeforeYear year ≤ daysBeforeYear later := by
  unfold daysBeforeYear
  omega

end Months

namespace Date

/-- The place of a date among all days. -/
def number (date : Date) : Int :=
  daysBeforeYear date.year + daysBeforeMonth date.year date.month + date.day

section Order

variable {first second : Date}

/-- A date is in its month. -/
theorem number_le (date : Date) :
    date.number ≤ daysBeforeYear date.year + daysBeforeMonth date.year (date.month + 1) := by
  have last := date.dayRange.2
  rw [number, daysBeforeMonth_succ date.monthRange.1]
  omega

theorem lt_number (date : Date) :
    daysBeforeYear date.year + daysBeforeMonth date.year date.month < date.number := by
  have first := date.dayRange.1
  rw [number]
  omega

theorem number_lt_of_year (earlier : first.year < second.year) :
    first.number < second.number := by
  have inYear : daysBeforeMonth first.year (first.month + 1) ≤ daysBeforeMonth first.year 13 :=
    daysBeforeMonth_mono (Nat.succ_le_succ first.monthRange.2)
  have next := daysBeforeYear_mono (Int.add_one_le_of_lt earlier)
  rw [daysBeforeYear_succ] at next
  have upper := first.number_le
  have lower := second.lt_number
  omega

theorem number_lt_of_month (sameYear : first.year = second.year)
    (earlier : first.month < second.month) : first.number < second.number := by
  have inMonth : daysBeforeMonth second.year (first.month + 1) ≤
      daysBeforeMonth second.year second.month := daysBeforeMonth_mono earlier
  have upper := first.number_le
  have lower := second.lt_number
  rw [sameYear] at upper
  omega

/-- Dates are numbered in their order, the first difference of year, month and day
counting. -/
theorem number_lt :
    first.number < second.number ↔
      first.year < second.year ∨ (first.year = second.year ∧
        (first.month < second.month ∨ (first.month = second.month ∧
          first.day < second.day))) := by
  rcases Int.lt_trichotomy first.year second.year with year | year | year
  · exact iff_of_true (number_lt_of_year year) (.inl year)
  · rcases Nat.lt_trichotomy first.month second.month with month | month | month
    · exact iff_of_true (number_lt_of_month year month) (.inr ⟨year, .inl month⟩)
    · rw [number, number, year, month]
      omega
    · have later := number_lt_of_month year.symm month
      omega
  · have later := number_lt_of_year year
    omega

theorem number_inj : first.number = second.number ↔ first = second := by
  constructor
  · intro same
    have notLess := mt number_lt.mpr (Int.not_lt.mpr (Int.le_of_eq same.symm))
    have notMore := mt number_lt.mpr (Int.not_lt.mpr (Int.le_of_eq same))
    have year : first.year = second.year := by omega
    have month : first.month = second.month := by omega
    have day : first.day = second.day := by omega
    exact Date.ext year month day
  · rintro rfl
    rfl

end Order

/-- The day after a date. -/
def tomorrow (date : Date) : Date :=
  if inMonth : date.day < daysInMonth date.year date.month then
    { date with
      day := date.day + 1
      dayRange := ⟨Nat.le_add_left 1 _, inMonth⟩ }
  else if inYear : date.month < 12 then
    { date with
      month := date.month + 1
      day := 1
      monthRange := ⟨Nat.le_add_left 1 _, inYear⟩
      dayRange := ⟨Nat.le_refl 1, daysInMonth_pos⟩ }
  else
    { year := date.year + 1
      month := 1
      day := 1
      monthRange := by decide
      dayRange := ⟨Nat.le_refl 1, daysInMonth_pos⟩ }

theorem number_tomorrow (date : Date) : date.tomorrow.number = date.number + 1 := by
  have month := date.monthRange
  have day := date.dayRange
  unfold tomorrow
  split
  · simp only [number]
    omega
  · split
    · simp only [number, daysBeforeMonth_succ month.1]
      omega
    · have isDecember : date.month = 12 := by omega
      have december : daysBeforeMonth date.year 13 =
          daysBeforeMonth date.year 12 + daysInMonth date.year 12 :=
        daysBeforeMonth_succ (by decide)
      simp only [number, daysBeforeYear_succ, isDecember] at *
      have january : daysBeforeMonth (date.year + 1) 1 = 0 := rfl
      omega

/-- The day before a date. -/
def yesterday (date : Date) : Date :=
  if inMonth : 1 < date.day then
    { date with
      day := date.day - 1
      dayRange := by
        have range := date.dayRange
        omega }
  else if inYear : 1 < date.month then
    { date with
      month := date.month - 1
      day := daysInMonth date.year (date.month - 1)
      monthRange := by
        have range := date.monthRange
        omega
      dayRange := ⟨daysInMonth_pos, Nat.le_refl _⟩ }
  else
    { year := date.year - 1
      month := 12
      day := 31
      monthRange := by decide
      dayRange := ⟨by decide, Nat.le_refl 31⟩ }

theorem number_yesterday (date : Date) : date.yesterday.number = date.number - 1 := by
  have month := date.monthRange
  have day := date.dayRange
  unfold yesterday
  split
  · simp only [number]
    omega
  · split
    · have before : daysBeforeMonth date.year date.month =
          daysBeforeMonth date.year (date.month - 1) +
            daysInMonth date.year (date.month - 1) := by
        rw [← daysBeforeMonth_succ (by omega), Nat.sub_add_cancel (by omega)]
      simp only [number]
      omega
    · have isJanuary : date.month = 1 := by omega
      have before : daysBeforeYear date.year =
          daysBeforeYear (date.year - 1) + daysBeforeMonth (date.year - 1) 13 := by
        rw [← daysBeforeYear_succ, Int.sub_add_cancel]
      have december : daysBeforeMonth (date.year - 1) 13 =
          daysBeforeMonth (date.year - 1) 12 + 31 := daysBeforeMonth_succ (by decide)
      have january : daysBeforeMonth date.year 1 = 0 := rfl
      simp only [number, isJanuary]
      omega

/-- The date some days later, or earlier. -/
def shift (date : Date) : Int → Date
  | .ofNat days => tomorrow^[days] date
  | .negSucc days => yesterday^[days + 1] date

theorem number_tomorrows (date : Date) (days : Nat) :
    (tomorrow^[days] date).number = date.number + days := by
  induction days with
  | zero => exact (Int.add_zero _).symm
  | succ days ih =>
      rw [Function.iterate_succ_apply', number_tomorrow, ih]
      omega

theorem number_yesterdays (date : Date) (days : Nat) :
    (yesterday^[days] date).number = date.number - days := by
  induction days with
  | zero => exact (Int.sub_zero _).symm
  | succ days ih =>
      rw [Function.iterate_succ_apply', number_yesterday, ih]
      omega

theorem number_shift (date : Date) (days : Int) :
    (date.shift days).number = date.number + days := by
  cases days with
  | ofNat days => exact number_tomorrows date days
  | negSucc days =>
      rw [shift, number_yesterdays]
      omega

/-- The date of a place among all days. -/
def ofNumber (number : Int) : Date :=
  shift ⟨1, 1, 1, by decide, by decide⟩ (number - 1)

theorem number_ofNumber (place : Int) : (ofNumber place).number = place := by
  have first : number ⟨1, 1, 1, by decide, by decide⟩ = 1 := rfl
  rw [ofNumber, number_shift, first]
  omega

end Date

end NookOs.Lib.Calendar
