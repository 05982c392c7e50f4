/-!
# Dates

The proleptic Gregorian calendar for the years 1 to 9999, days counted from 1970-01-01, and weeks
that begin on Monday and belong to the year of their Thursday.
-/

namespace DatasetCatalog.Time

def isLeap (year : Int) : Bool := (year % 4 == 0 && year % 100 != 0) || year % 400 == 0

def daysInMonth (year : Int) (month : Nat) : Nat :=
  if month == 2 then (if isLeap year then 29 else 28)
  else if month == 4 || month == 6 || month == 9 || month == 11 then 30 else 31

structure Date where
  year : Nat
  month : Nat
  day : Nat
deriving DecidableEq, Repr

def Date.Valid (d : Date) : Prop :=
  1 ≤ d.year ∧ d.year ≤ 9999 ∧ 1 ≤ d.month ∧ d.month ≤ 12 ∧ 1 ≤ d.day ∧
    d.day ≤ daysInMonth d.year d.month

instance (d : Date) : Decidable d.Valid := by unfold Date.Valid; infer_instance

def Date.of? (year month day : Nat) : Option Date :=
  if (Date.mk year month day).Valid then some ⟨year, month, day⟩ else none

/-- Days from 1970-01-01; March opens the counting year, so the leap day is its last. -/
def Date.toDays (d : Date) : Int :=
  let y : Int := if d.month ≤ 2 then (d.year : Int) - 1 else d.year
  let era := y.fdiv 400
  let yearOfEra := y - era * 400
  let monthFromMarch : Int := ((d.month : Int) + 9) % 12
  let dayOfYear := (153 * monthFromMarch + 2) / 5 + d.day - 1
  era * 146097 + (yearOfEra * 365 + yearOfEra / 4 - yearOfEra / 100 + dayOfYear) - 719468

/-- The date a number of days from 1970-01-01, if its year is in range. -/
def Date.ofDays? (days : Int) : Option Date :=
  let shifted := days + 719468
  let era := shifted.fdiv 146097
  let dayOfEra := shifted - era * 146097
  let yearOfEra :=
    (dayOfEra - dayOfEra / 1460 + dayOfEra / 36524 - dayOfEra / 146096) / 365
  let dayOfYear := dayOfEra - (365 * yearOfEra + yearOfEra / 4 - yearOfEra / 100)
  let monthFromMarch := (5 * dayOfYear + 2) / 153
  let day := dayOfYear - (153 * monthFromMarch + 2) / 5 + 1
  let month := if monthFromMarch < 10 then monthFromMarch + 3 else monthFromMarch - 9
  let year := yearOfEra + era * 400 + (if month ≤ 2 then 1 else 0)
  if 1 ≤ year then Date.of? year.toNat month.toNat day.toNat else none

def weekday (days : Int) : Int := (days + 3) % 7

/-- Whether a year has 53 weeks: it begins on a Thursday, or is leap and begins on a Wednesday. -/
def hasLongWeekYear (year : Nat) : Bool :=
  let first := weekday (Date.mk year 1 1).toDays
  first == 3 || (first == 2 && isLeap year)

/-- The date on a weekday, Monday being 1, of a week of a year. -/
def Date.ofWeek? (year week day : Nat) : Option Date :=
  if 1 ≤ year && 1 ≤ week && week ≤ (if hasLongWeekYear year then 53 else 52) &&
      1 ≤ day && day ≤ 7 then
    let first := (Date.mk year 1 1).toDays
    let firstMonday := first - weekday first + (if 3 < weekday first then 7 else 0)
    Date.ofDays? (firstMonday + (7 * (week - 1) + (day - 1) : Nat))
  else none

end DatasetCatalog.Time
