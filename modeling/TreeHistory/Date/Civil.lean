/-!
# Civil dates

The proleptic Gregorian calendar counted in days from 1970-01-01. `daysFromCivil` and
`civilFromDays` convert between a year, month and day and that count, for every year, negative
years included; divisions round toward negative infinity, which is what Lean's integer division
does for a positive divisor.
-/

namespace TreeHistory
namespace Date

/-- Whether a year of the proleptic Gregorian calendar is a leap year. -/
def isLeapYear (year : Int) : Bool :=
  year % 4 == 0 && (year % 100 != 0 || year % 400 == 0)

/-- The number of days of a month, 0 for a month outside 1 to 12. -/
def daysInMonth (year : Int) (month : Nat) : Nat :=
  match month with
  | 1 | 3 | 5 | 7 | 8 | 10 | 12 => 31
  | 4 | 6 | 9 | 11 => 30
  | 2 => if isLeapYear year then 29 else 28
  | _ => 0

/-- Days from 1970-01-01 to a date; the year is shifted to start in March. -/
def daysFromCivil (year : Int) (month day : Nat) : Int :=
  let y := if month ≤ 2 then year - 1 else year
  let era := y / 400
  let yearOfEra := y - era * 400
  let shiftedMonth : Int := if month > 2 then month - 3 else month + 9
  let dayOfYear := (153 * shiftedMonth + 2) / 5 + day - 1
  let dayOfEra := yearOfEra * 365 + yearOfEra / 4 - yearOfEra / 100 + dayOfYear
  era * 146097 + dayOfEra - 719468

/-- The year, month and day of the day that lies `days` days after 1970-01-01. -/
def civilFromDays (days : Int) : Int × Nat × Nat :=
  let z := days + 719468
  let era := z / 146097
  let dayOfEra := z - era * 146097
  let yearOfEra := (dayOfEra - dayOfEra / 1460 + dayOfEra / 36524 - dayOfEra / 146096) / 365
  let y := yearOfEra + era * 400
  let dayOfYear := dayOfEra - (365 * yearOfEra + yearOfEra / 4 - yearOfEra / 100)
  let shiftedMonth := (5 * dayOfYear + 2) / 153
  let day := dayOfYear - (153 * shiftedMonth + 2) / 5 + 1
  let month := if shiftedMonth < 10 then shiftedMonth + 3 else shiftedMonth - 9
  ((if month ≤ 2 then y + 1 else y), month.toNat, day.toNat)

theorem daysFromCivil_epoch : daysFromCivil 1970 1 1 = 0 := by decide

theorem civilFromDays_zero : civilFromDays 0 = (1970, 1, 1) := by decide

end Date
end TreeHistory
