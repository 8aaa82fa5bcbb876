/-
Recalc/Eval/Calendar.lean

Dates and their serial numbers.  `Date.dayNumber` counts the days of the Gregorian
calendar from the first of January of year 1, and `Date.ofDayNumber` goes back: four
hundred years at a time, then a century, four years, a year, and the months one by one.

A serial counts from the epoch of the workbook.  Under the epoch of 1900, serial 1 is
the first of January 1900 and serial 60 is a 29th of February 1900 that never was, so
serials run one ahead from the first of March on; serial 0 stands for day 0 of that
January.  Under the epoch of 1904, serial 0 is the first of January 1904.
-/
import Recalc.Number.Binary64

namespace Recalc

/-- A day by its year, month and day of the month. -/
structure Date where
  year : Int
  month : Nat
  day : Nat
deriving DecidableEq, Repr

namespace Date

/-- Whether a year has a 29th of February. -/
def isLeap (year : Int) : Bool :=
  year % 4 == 0 && (year % 100 != 0 || year % 400 == 0)

/-- The lengths of the months. -/
def monthLengths (leap : Bool) : List Nat :=
  [31, if leap then 29 else 28, 31, 30, 31, 30, 31, 31, 30, 31, 30, 31]

/-- The days before a year, from the first of January of year 1. -/
def daysBeforeYear (year : Int) : Int :=
  365 * (year - 1) + (year - 1) / 4 - (year - 1) / 100 + (year - 1) / 400

/-- The days of a year before a month of it. -/
def daysBeforeMonth (leap : Bool) (month : Nat) : Nat :=
  ((monthLengths leap).take (month - 1)).foldr (· + ·) 0

/-- The days from the first of January of year 1. -/
def dayNumber (d : Date) : Int :=
  daysBeforeYear d.year + daysBeforeMonth (isLeap d.year) d.month + d.day - 1

/-- The month and the day of the month, `day` days into the months of the given lengths, the
first of which is month `month`. -/
def inMonths (month day : Nat) : List Nat → Nat × Nat
  | [] => (month, day + 1)
  | length :: rest =>
    if day < length then (month, day + 1) else inMonths (month + 1) (day - length) rest

/-- The day that many days after the first of January of year 1. -/
def ofDayNumber (n : Int) : Date :=
  let cycles := n / 146097
  let inCycle := n % 146097
  let centuries := min (inCycle / 36524) 3
  let inCentury := inCycle - centuries * 36524
  let quads := inCentury / 1461
  let inQuad := inCentury % 1461
  let years := min (inQuad / 365) 3
  let year := 400 * cycles + 100 * centuries + 4 * quads + years + 1
  let (month, day) := inMonths 1 (inQuad - years * 365).toNat (monthLengths (isLeap year))
  ⟨year, month, day⟩

/-- The last day that dates reach. -/
def latest : Date := ⟨262142, 12, 31⟩

end Date

/-- Where serial numbers start. -/
inductive Epoch
  | from1900
  | from1904
deriving DecidableEq, Repr

namespace Epoch

/-- The name of an epoch. -/
def tag : Epoch → String
  | .from1900 => "Excel1900"
  | .from1904 => "Excel1904"

/-- The epoch of a given name. -/
def ofTag? (s : String) : Option Epoch := [from1900, from1904].find? (·.tag == s)

/-- The largest serial, month count and day count that are taken. -/
def maxSpan : Int := 3000000

/-- The serial of a day, given by its number; none before the epoch. -/
def serialOfDay? (epoch : Epoch) (n : Int) : Option Nat :=
  let serial :=
    match epoch with
    | .from1900 =>
      let days := n - (Date.mk 1899 12 30).dayNumber
      if n < (Date.mk 1900 3 1).dayNumber then days - 1 else days
    | .from1904 => n - (Date.mk 1904 1 1).dayNumber
  if 0 ≤ serial then some serial.toNat else none

/-- The day of a serial. -/
def dateOfSerial (epoch : Epoch) (serial : Nat) : Date :=
  match epoch with
  | .from1900 =>
    if serial = 0 then ⟨1900, 1, 0⟩
    else if serial = 60 then ⟨1900, 2, 29⟩
    else if serial < 60 then Date.ofDayNumber ((Date.mk 1899 12 31).dayNumber + serial)
    else Date.ofDayNumber ((Date.mk 1899 12 30).dayNumber + serial)
  | .from1904 => Date.ofDayNumber ((Date.mk 1904 1 1).dayNumber + serial)

/-- The day of a serial with a time of day, which is dropped. -/
def date? (epoch : Epoch) (serial : Float) : Option Date :=
  if serial.isFinite && 0.0 ≤ serial && serial ≤ 3000000.0 then
    some (epoch.dateOfSerial (Binary64.clampNat serial))
  else none

/-- A double without its fraction, in 64 bits. -/
def whole (x : Float) : Int := Binary64.clampInt (-0x8000000000000000) 0x7fffffffffffffff x

/-- The day reached from the first of January of a year by months and then by days, if it is in
reach. -/
def rolled? (year month day : Int) : Option Int :=
  let months := year * 12 + month - 1
  let first : Date := ⟨months / 12, (months % 12).toNat + 1, 1⟩
  let n := first.dayNumber + day - 1
  if n ≤ Date.latest.dayNumber then some n else none

/-- The serial of a year, month and day.  Months and days beyond their range roll over into the
neighbouring units; a year below 1900 counts from 1900. -/
def serialOfParts? (epoch : Epoch) (year month day : Int) : Option Nat :=
  let year := if 0 ≤ year ∧ year < 1900 then year + 1900 else year
  if 1900 ≤ year ∧ year ≤ 9999 ∧ month.natAbs ≤ maxSpan.toNat ∧ day.natAbs ≤ maxSpan.toNat then
    (rolled? year month day).bind epoch.serialOfDay?
  else none

/-- The serial of a year, month and day given as doubles, whose fractions are dropped. -/
def serial? (epoch : Epoch) (year month day : Float) : Option Float :=
  if year.isFinite && month.isFinite && day.isFinite then
    (epoch.serialOfParts? (whole year) (whole month) (whole day)).map Binary64.ofNat
  else none

end Epoch

end Recalc
