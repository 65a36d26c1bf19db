import Accrual.Text.Numeral

/-!
# Seconds with 53 binary digits

A clock tells the time as a number of seconds with 53 binary digits. It comes from whole seconds and
microseconds, which are rounded to such numbers and added, and the sum is rounded once more. So not
all microseconds have the number that is nearest to them, but up to `2 ^ 33` seconds they can be
told from each other.

All these numbers are whole multiples of the `2 ^ 80`th part of a second: the smallest one that is
not zero, about a millionth, ends at the 72nd binary place. Counted in such parts, sums are exact
before they are rounded.
-/

namespace Accrual

/-- A number of seconds, before or after the start of 1970. -/
structure Seconds where
  parts : Int
  deriving DecidableEq

namespace Seconds

/-- The parts of one second. -/
def unit : Nat := Nat.pow 2 80

/-- The whole number nearest to a quotient; of two equally near ones the even one. -/
def nearest (a b : Nat) : Nat :=
  let rest := 2 * (a % b)
  if rest < b ∨ rest = b ∧ a / b % 2 = 0 then a / b else a / b + 1

/-- The number with 53 binary digits that is nearest to a quotient. Below `2 ^ 53` it is the nearest
whole number, for nothing is smaller than a part. -/
def round (a b : Nat) : Nat :=
  let place := Nat.pow 2 ((a / b).log2 - 52)
  nearest a (b * place) * place

/-- The seconds nearest to a quotient of a number of parts; the sign is set apart. -/
def nearestTo (parts : Int) (b : Nat) : Seconds := ⟨parts.sign * round parts.natAbs b⟩

def zero : Seconds := ⟨0⟩

/-- Whole seconds; beyond `2 ^ 53` not all of them have a number of their own. -/
def ofInt (n : Int) : Seconds := nearestTo (n * unit) 1

/-- The exact sum, rounded once. -/
def add (s t : Seconds) : Seconds := nearestTo (s.parts + t.parts) 1

instance : Add Seconds := ⟨add⟩

/-- The exact quotient by a million, rounded once. -/
def millionths (t : Seconds) : Seconds := nearestTo t.parts 1000000

def ofReading (seconds micros : Int) : Seconds := ofInt seconds + (ofInt micros).millionths

/-- The whole microseconds of a number of seconds. What is left of the whole seconds is multiplied
and rounded to 53 binary digits, and then to a whole number. -/
def micros (t : Seconds) : Int :=
  let n := t.parts.natAbs
  t.parts.sign * (n / unit * 1000000 + nearest (round (n % unit * 1000000) 1) unit : Nat)

/-- The number `n * 10 ^ exponent` as a quotient. -/
def scaled (n : Nat) (exponent : Int) : Nat × Nat :=
  let power := Nat.pow 10 exponent.natAbs
  if exponent < 0 then (n, power) else (n * power, 1)

/-- Whether a decimal number of seconds is rounded to so many parts. -/
def readsBack (parts : Nat) (n : Nat) (exponent : Int) : Bool :=
  round ((scaled n exponent).1 * unit) (scaled n exponent).2 == parts

/-- Of the two decimal numbers next to so many parts of a second, the nearest one that reads back.
The count is that of the digits from the first one of the whole seconds on. -/
def withDigits? (parts count : Nat) : Option (Nat × Int) :=
  let exponent : Int := ((Text.decimal (parts / unit)).length : Int) - count
  let step := scaled 1 exponent
  let below := parts * step.2 / (unit * step.1)
  let near := nearest (parts * step.2) (unit * step.1)
  let far := if near = below then below + 1 else below
  ([near, far].find? fun n => readsBack parts n exponent).map fun n => (n, exponent)

/-- The fewest decimal digits that tell so many parts of a second from all other numbers of seconds,
with the power of ten that they count. Seventeen digits are always enough, and no more than seven
zeros stand in front of them. All places together give the exact number. -/
def shortest (parts : Nat) : Nat × Int :=
  ((List.range 24).findSome? fun i => withDigits? parts (i + 1)).getD (parts * Nat.pow 5 80, -80)

/-- A number of seconds as a decimal mantissa and exponent. -/
def decimal (t : Seconds) : Int × Int :=
  let digits := shortest t.parts.natAbs
  (t.parts.sign * digits.1, digits.2)

end Seconds

end Accrual
