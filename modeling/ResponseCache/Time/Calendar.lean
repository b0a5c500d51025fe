/-!
# The calendar

Days counted from 1970-01-01 and their dates in the proleptic Gregorian calendar, with its weekdays
and month names. The count goes by eras of 400 years, after which the calendar repeats, and by years
that begin in March, so that the leap day comes last in its year.
-/

namespace ResponseCache

inductive Weekday where
  | sunday | monday | tuesday | wednesday | thursday | friday | saturday
deriving DecidableEq, Repr

namespace Weekday

def all : List Weekday :=
  [sunday, monday, tuesday, wednesday, thursday, friday, saturday]

def name : Weekday → String
  | sunday => "Sunday"
  | monday => "Monday"
  | tuesday => "Tuesday"
  | wednesday => "Wednesday"
  | thursday => "Thursday"
  | friday => "Friday"
  | saturday => "Saturday"

def short (w : Weekday) : List Char :=
  w.name.toList.take 3

/-- What follows the first three letters of the name. -/
def shortRest (w : Weekday) : List Char :=
  w.name.toList.drop 3

/-- The weekday of the `n`-th day after 1970-01-01, which was a Thursday. -/
def ofDays (n : Int) : Weekday :=
  match (n + 4) % 7 with
  | 0 => sunday
  | 1 => monday
  | 2 => tuesday
  | 3 => wednesday
  | 4 => thursday
  | 5 => friday
  | _ => saturday

end Weekday

/-- The short names of the months, January first. -/
def monthNames : List String :=
  ["Jan", "Feb", "Mar", "Apr", "May", "Jun", "Jul", "Aug", "Sep", "Oct", "Nov", "Dec"]

/-- The short name of month `m`, where January is 1. -/
def monthName (m : Nat) : List Char :=
  ((monthNames[m - 1]?).getD "").toList

/-- Whether year `y` has a leap day. -/
def isLeapYear (y : Int) : Bool :=
  y % 4 == 0 && (y % 100 != 0 || y % 400 == 0)

/-- The number of days in month `m` of year `y`. -/
def daysInMonth (y : Int) (m : Nat) : Nat :=
  if m = 2 then if isLeapYear y then 29 else 28
  else if m = 4 ∨ m = 6 ∨ m = 9 ∨ m = 11 then 30
  else 31

/-- A date by year, month from 1 and day of the month from 1. -/
structure CivilDate where
  year : Int
  month : Nat
  day : Nat
deriving DecidableEq, Repr

namespace CivilDate

/-- Whether the calendar has the date. -/
def Exists (d : CivilDate) : Prop :=
  1 ≤ d.month ∧ d.month ≤ 12 ∧ 1 ≤ d.day ∧ d.day ≤ daysInMonth d.year d.month

instance (d : CivilDate) : Decidable d.Exists :=
  inferInstanceAs (Decidable (_ ∧ _))

/-- The year of the date, if years began in March. -/
def marchYear (d : CivilDate) : Int :=
  if d.month ≤ 2 then d.year - 1 else d.year

/-- The number of months from March to the month of the date. -/
def marchMonth (d : CivilDate) : Int :=
  if d.month ≤ 2 then d.month + 9 else d.month - 3

/-- The days from 1 March of the year 0 to 1 March of year `y`. -/
def daysToYear (y : Int) : Int :=
  365 * y + y / 4 - y / 100 + y / 400

/-- The days from 1 March to the first of the month that comes `m` months later. -/
def daysToMonth (m : Int) : Int :=
  (153 * m + 2) / 5

/-- The days from 1970-01-01 to the date. -/
def toDays (d : CivilDate) : Int :=
  daysToYear d.marchYear + daysToMonth d.marchMonth + (d.day - 1) - 719468

/-- The year, beginning in March, of the `z`-th day after 1 March of the year 0: whole eras, then
centuries, then cycles of four years, then years. The last century of an era and the last year of a
cycle have one day more than the others. -/
def yearOfDay (z : Int) : Int :=
  let dayOfEra := z % 146097
  let century := min (dayOfEra / 36524) 3
  let dayOfCentury := dayOfEra - century * 36524
  let cycle := dayOfCentury / 1461
  let year := min ((dayOfCentury - cycle * 1461) / 365) 3
  z / 146097 * 400 + century * 100 + cycle * 4 + year

/-- The number of months from March to the month of the `n`-th day of a year that begins in March.
-/
def monthOfDay (n : Int) : Int :=
  (5 * n + 2) / 153

/-- The date of a year that begins in March, a number of months from March and a day of the month.
-/
def ofMarch (y m d : Int) : CivilDate :=
  if m < 10 then ⟨y, (m + 3).toNat, d.toNat⟩ else ⟨y + 1, (m - 9).toNat, d.toNat⟩

/-- The date `n` days after 1970-01-01. -/
def ofDays (n : Int) : CivilDate :=
  let z := n + 719468
  let y := yearOfDay z
  let dayOfYear := z - daysToYear y
  let m := monthOfDay dayOfYear
  ofMarch y m (dayOfYear - daysToMonth m + 1)

/-- The weekday of the date. -/
def weekday (d : CivilDate) : Weekday :=
  Weekday.ofDays d.toDays

end CivilDate

end ResponseCache
