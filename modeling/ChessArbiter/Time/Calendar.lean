/-! # The proleptic Gregorian calendar

Days are numbered from 1970-01-01. Both directions reckon in years that begin on the first of March,
so that the leap day is the last of its year, and in cycles of four hundred such years, which have
146097 days each.
-/

namespace ChessArbiter

/-- A year, a month from 1 to 12 and a day of that month from 1. -/
structure Date where
  year : Int
  month : Nat
  day : Nat
deriving DecidableEq

namespace Date

def isLeapYear (year : Int) : Bool :=
  year % 4 == 0 && (year % 100 != 0 || year % 400 == 0)

def daysInMonth (year : Int) (month : Nat) : Nat :=
  if month = 2 then if isLeapYear year then 29 else 28
  else if month = 4 ∨ month = 6 ∨ month = 9 ∨ month = 11 then 30
  else 31

/-- The month and the day exist in that year. -/
def Valid (date : Date) : Prop :=
  1 ≤ date.month ∧ date.month ≤ 12 ∧ 1 ≤ date.day ∧ date.day ≤ daysInMonth date.year date.month

instance (date : Date) : Decidable date.Valid :=
  inferInstanceAs (Decidable (_ ∧ _))

/-- The number of days from 1970-01-01 to a date. -/
def toDays (date : Date) : Int :=
  let year := if date.month ≤ 2 then date.year - 1 else date.year
  let month := if date.month ≤ 2 then date.month + 9 else date.month - 3
  let dayOfYear := (153 * month + 2) / 5 + date.day - 1
  365 * year + year / 4 - year / 100 + year / 400 + dayOfYear - 719468

/-- The date so many days after 1970-01-01. -/
def ofDays (days : Int) : Date :=
  let cycle := (days + 719468) / 146097
  let dayOfCycle := ((days + 719468) % 146097).toNat
  let century := min (dayOfCycle / 36524) 3
  let dayOfCentury := dayOfCycle - century * 36524
  let leapCycle := dayOfCentury / 1461
  let dayOfLeapCycle := dayOfCentury - leapCycle * 1461
  let yearOfLeapCycle := min (dayOfLeapCycle / 365) 3
  let dayOfYear := dayOfLeapCycle - yearOfLeapCycle * 365
  let month := (5 * dayOfYear + 2) / 153
  let year : Int := cycle * 400 + (century * 100 + leapCycle * 4 + yearOfLeapCycle : Nat)
  { year := if month < 10 then year else year + 1
    month := if month < 10 then month + 3 else month - 9
    day := dayOfYear - (153 * month + 2) / 5 + 1 }

end Date

end ChessArbiter
