import Accrual.Error
import Accrual.Text.Numeral

/-!
# Timestamps

A time is a whole number of microseconds since the start of 1970, and it is shown as a moment of the
proleptic Gregorian calendar in universal time. The years from 1 to 9999 have a written form.
-/

namespace Accrual

structure Day where
  year : Int
  month : Nat
  day : Nat
  deriving DecidableEq

namespace Day

def isLeapYear (year : Int) : Bool := year % 4 == 0 && (year % 100 != 0 || year % 400 == 0)

def monthLengths (year : Int) : List Nat :=
  [31, if isLeapYear year then 29 else 28, 31, 30, 31, 30, 31, 31, 30, 31, 30, 31]

/-- The month and the day in it, counted from one, of a day of the year counted from zero. -/
def splitMonths : List Nat → Nat → Nat × Nat
  | [], n => (1, n + 1)
  | length :: rest, n =>
      if n < length then (1, n + 1)
      else ((splitMonths rest (n - length)).1 + 1, (splitMonths rest (n - length)).2)

/-- The year, and the day of it counted from zero, of a day counted from the first of the year 1. It
divides by the cycles of 400, 100 and 4 years; the last century and the last year of a cycle may be
one day longer. -/
def splitYears (n : Int) : Int × Nat :=
  let cycle := n / 146097
  let inCycle := n % 146097
  let century := min (inCycle / 36524) 3
  let inCentury := inCycle - century * 36524
  let quad := inCentury / 1461
  let inQuad := inCentury % 1461
  let single := min (inQuad / 365) 3
  (400 * cycle + 100 * century + 4 * quad + single + 1, (inQuad - single * 365).toNat)

/-- The day with the given number, counted from the first of January of the year 1. -/
def ofNumber (n : Int) : Day :=
  let (year, n) := splitYears n
  let (month, day) := splitMonths (monthLengths year) n
  ⟨year, month, day⟩

/-- The days of all years before the given one, counted from the year 1. -/
def daysBeforeYear (year : Int) : Int :=
  365 * (year - 1) + (year - 1) / 4 - (year - 1) / 100 + (year - 1) / 400

def toNumber (d : Day) : Int :=
  let daysBefore : Nat := ((monthLengths d.year).take (d.month - 1)).foldr (· + ·) 0
  daysBeforeYear d.year + daysBefore + d.day - 1

/-- The number of the first day of 1970. -/
def epoch : Int := 719162

end Day

/-- A moment: a day, and a time of day in microseconds. -/
structure Moment where
  day : Day
  micros : Nat
  deriving DecidableEq

namespace Moment

def microsPerDay : Int := 86400000000

def ofTime (time : Int) : Moment :=
  ⟨Day.ofNumber (time / microsPerDay + Day.epoch), (time % microsPerDay).toNat⟩

def toTime (m : Moment) : Int := (m.day.toNumber - Day.epoch) * microsPerDay + m.micros

def hour (m : Moment) : Nat := m.micros / 3600000000

def minute (m : Moment) : Nat := m.micros / 60000000 % 60

def second (m : Moment) : Nat := m.micros / 1000000 % 60

def fraction (m : Moment) : Nat := m.micros % 1000000

open Text

def clockText (m : Moment) : List Char :=
  padded 2 (decimal m.hour) ++ ':' :: padded 2 (decimal m.minute) ++
    ':' :: padded 2 (decimal m.second)

def dateText (m : Moment) : List Char :=
  padded 4 (decimal m.day.year.toNat) ++ '-' :: padded 2 (decimal m.day.month) ++
    '-' :: padded 2 (decimal m.day.day)

/-- Six places after the seconds, or none where they would all be zero. -/
def fractionText (m : Moment) : List Char :=
  if m.fraction = 0 then [] else '.' :: padded 6 (decimal m.fraction)

def isoText (m : Moment) : List Char :=
  m.dateText ++ 'T' :: m.clockText ++ m.fractionText ++ "+00:00".toList

/-- The time of day, cut to milliseconds. -/
def humanText (m : Moment) : List Char :=
  m.clockText ++ '.' :: padded 3 (decimal (m.fraction / 1000))

end Moment

/-- What 32 bits with a sign hold of a year. -/
def narrowYear (year : Int) : Int := (year + 2147483648) % 4294967296 - 2147483648

/-- The number right after the largest one of 64 bits with a sign. -/
def secondsBound : Int := 9223372036854775808

/-- The moment of a time, if its year can be written. The seconds are held in 64 bits, but the
number right after the largest one is let in too; the years since 1900 are held in 32 bits. -/
def momentOf (time : Int) : Except Error Moment :=
  let m := Moment.ofTime time
  let seconds := time / 1000000
  let years := m.day.year - 1900
  if 1 ≤ m.day.year ∧ m.day.year ≤ 9999 then .ok m
  else if seconds < -secondsBound ∨ secondsBound < seconds then .error .timeTooWide
  else if years < -2147483648 ∨ 2147483648 ≤ years then .error .yearTooWide
  else .error (.yearOutOfRange (narrowYear m.day.year))

end Accrual
