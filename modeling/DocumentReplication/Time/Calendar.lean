/-!
The proleptic Gregorian calendar: dates as days counted from the start of 1970, and back.

Days are first counted from the first of March of the year 0, so that the leap day ends a year, and
taken apart into eras of 400 years, all of which are equally long.
-/

namespace DocumentReplication

/-- A day of the proleptic Gregorian calendar; the year 0 precedes the year 1. -/
structure CalendarDate where
  year : Int
  month : Nat
  day : Nat
deriving DecidableEq, Repr

namespace CalendarDate

def isLeap (year : Int) : Bool :=
  year % 4 == 0 && (year % 100 != 0 || year % 400 == 0)

def daysInMonth (year : Int) (month : Nat) : Nat :=
  if month = 2 then (if isLeap year then 29 else 28)
  else if month = 4 ∨ month = 6 ∨ month = 9 ∨ month = 11 then 30
  else 31

def Exists (date : CalendarDate) : Prop :=
  1 ≤ date.month ∧ date.month ≤ 12 ∧ 1 ≤ date.day ∧ date.day ≤ daysInMonth date.year date.month

instance (date : CalendarDate) : Decidable date.Exists := by
  unfold Exists
  infer_instance

/-- Days from the first of March of the year 0 to the start of 1970. -/
def epochDay : Int := 719468

def monthFromMarch (month : Nat) : Int :=
  if month ≤ 2 then month + 9 else month - 3

def toDays (date : CalendarDate) : Int :=
  let year := if date.month ≤ 2 then date.year - 1 else date.year
  let era := year / 400
  let yearOfEra := year % 400
  let dayOfYear := (153 * monthFromMarch date.month + 2) / 5 + date.day - 1
  era * 146097 + (yearOfEra * 365 + yearOfEra / 4 - yearOfEra / 100 + dayOfYear) - epochDay

def ofDays (days : Int) : CalendarDate :=
  let count := days + epochDay
  let era := count / 146097
  let dayOfEra := count % 146097
  let yearOfEra := (dayOfEra - dayOfEra / 1460 + dayOfEra / 36524 - dayOfEra / 146096) / 365
  let dayOfYear := dayOfEra - (365 * yearOfEra + yearOfEra / 4 - yearOfEra / 100)
  let month := (5 * dayOfYear + 2) / 153
  let day := dayOfYear - (153 * month + 2) / 5 + 1
  let calendarMonth := if month < 10 then month + 3 else month - 9
  let year := yearOfEra + era * 400
  ⟨if calendarMonth ≤ 2 then year + 1 else year, calendarMonth.toNat, day.toNat⟩

end CalendarDate

end DocumentReplication
