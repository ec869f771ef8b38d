/-!
# Civil dates

Dates of the proleptic Gregorian calendar and their day numbers, counted from 1970-01-01.  Years
are counted from March inside eras of 400 years, so a leap day ends its year.
-/

namespace Triage

structure Date where
  year : Int
  month : Nat
  day : Nat
  deriving DecidableEq, Repr

namespace Date

def isLeapYear (y : Int) : Bool := y % 4 = 0 && (y % 100 ≠ 0 || y % 400 = 0)

def daysInMonth (y : Int) (m : Nat) : Nat :=
  if m = 2 then (if isLeapYear y then 29 else 28)
  else if m = 4 || m = 6 || m = 9 || m = 11 then 30
  else 31

def isValid (d : Date) : Bool :=
  1 ≤ d.month && d.month ≤ 12 && 1 ≤ d.day && d.day ≤ daysInMonth d.year d.month

/-- Days from 1970-01-01 to the date. -/
def dayNumber (d : Date) : Int :=
  let y : Int := if d.month ≤ 2 then d.year - 1 else d.year
  let era : Int := y / 400
  let yearOfEra : Int := y - era * 400
  let monthFromMarch : Int := if d.month ≤ 2 then d.month + 9 else d.month - 3
  let dayOfYear : Int := (153 * monthFromMarch + 2) / 5 + d.day - 1
  era * 146097 + (yearOfEra * 365 + yearOfEra / 4 - yearOfEra / 100 + dayOfYear) - 719468

/-- The date with the given day number. -/
def ofDayNumber (n : Int) : Date :=
  let z : Int := n + 719468
  let era : Int := z / 146097
  let dayOfEra : Int := z - era * 146097
  let yearOfEra : Int := (dayOfEra - dayOfEra / 1460 + dayOfEra / 36524 - dayOfEra / 146096) / 365
  let dayOfYear : Int := dayOfEra - (365 * yearOfEra + yearOfEra / 4 - yearOfEra / 100)
  let monthFromMarch : Int := (5 * dayOfYear + 2) / 153
  let day : Int := dayOfYear - (153 * monthFromMarch + 2) / 5 + 1
  let month : Int := if monthFromMarch < 10 then monthFromMarch + 3 else monthFromMarch - 9
  let year : Int := yearOfEra + era * 400 + (if month ≤ 2 then 1 else 0)
  ⟨year, month.toNat, day.toNat⟩

end Date

end Triage
