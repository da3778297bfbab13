/-!
# The calendar

Dates of the Gregorian calendar, extended to all years, and their count in days from 1 January 1970.  The count starts
each year in March, so that a leap day is the last of its year and the months before it have fixed lengths.
-/
namespace JobRunner

/-- A year, a month from 1 and a day from 1. -/
structure Date where
  year : Int
  month : Nat
  day : Nat
  deriving DecidableEq, Repr

namespace Date

/-- Every fourth year, of the hundredth years every fourth. -/
def isLeap (year : Int) : Bool := year % 4 = 0 && (year % 100 ≠ 0 || year % 400 = 0)

/-- The number of days of a month; a month that does not exist has none. -/
def monthLength (year : Int) (month : Nat) : Nat :=
  match month with
  | 1 | 3 | 5 | 7 | 8 | 10 | 12 => 31
  | 4 | 6 | 9 | 11 => 30
  | 2 => if isLeap year then 29 else 28
  | _ => 0

/-- The years that a date may have. -/
def firstYear : Int := -262143
def lastYear : Int := 262142

/-- The date with these numbers, if the calendar has it. -/
def ofParts? (year : Int) (month day : Nat) : Option Date :=
  if firstYear ≤ year ∧ year ≤ lastYear ∧ 1 ≤ day ∧ day ≤ monthLength year month then some ⟨year, month, day⟩ else none

/-- The days from 1 January 1970 to the date. -/
def dayNumber (d : Date) : Int :=
  let y : Int := if d.month ≤ 2 then d.year - 1 else d.year
  let cycle := y / 400
  let yearOfCycle := y % 400
  let month := if d.month ≤ 2 then d.month + 9 else d.month - 3
  let dayOfYear : Int := (153 * month + 2) / 5 + d.day - 1
  cycle * 146097 + (yearOfCycle * 365 + yearOfCycle / 4 - yearOfCycle / 100 + dayOfYear) - 719468

/-- The date that many days from 1 January 1970. -/
def ofDayNumber (n : Int) : Date :=
  let z := n + 719468
  let cycle := z / 146097
  let dayOfCycle := z % 146097
  let yearOfCycle := (dayOfCycle - dayOfCycle / 1460 + dayOfCycle / 36524 - dayOfCycle / 146096) / 365
  let dayOfYear := dayOfCycle - (365 * yearOfCycle + yearOfCycle / 4 - yearOfCycle / 100)
  let month := (5 * dayOfYear + 2) / 153
  let day := dayOfYear - (153 * month + 2) / 5 + 1
  let y := yearOfCycle + cycle * 400
  let month' := if month < 10 then month + 3 else month - 9
  ⟨if month' ≤ 2 then y + 1 else y, month'.toNat, day.toNat⟩

/-- A date is in the range of years that have dates. -/
def inRange (d : Date) : Bool := firstYear ≤ d.year && d.year ≤ lastYear

end Date
end JobRunner
