import Accrual.Text.Numeral

/-!
# Numbers with places

Decimal numbers in two forms. The positional form has a point with at least one digit on either side
of it; the scientific form has one digit before the point, no point where that is the only digit,
and an exponent. Which numbers take the scientific form, and how the exponent is written, depends on
the notation.
-/

namespace Accrual.Text

/-- A row of digits with a point behind the given number of them; zeros fill the row up. -/
def positional (digits : List Char) (whole : Int) : List Char :=
  if whole ≤ 0 then '0' :: '.' :: List.replicate whole.natAbs '0' ++ digits
  else
    let after := digits.drop whole.toNat
    digits.take whole.toNat ++ List.replicate (whole.toNat - digits.length) '0' ++
      '.' :: if after.isEmpty then ['0'] else after

/-- A row of digits with a point behind the first one, and an exponent. -/
def scientific (digits exponent : List Char) : List Char :=
  digits.take 1 ++ (if digits.length ≤ 1 then [] else '.' :: digits.drop 1) ++ 'e' :: exponent

/-- How numbers with places are written. -/
structure PlacesNotation where
  /-- The exponent of the smallest numbers in positional form. -/
  lowest : Int
  exponent : Int → List Char

/-- An exponent: its sign, and at least the given number of digits. -/
def signedExponent (width : Nat) (n : Int) : List Char :=
  (if n < 0 then '-' else '+') :: padded width (decimal n.natAbs)

/-- An exponent has no more digits than it needs. -/
def shortPlaces : PlacesNotation := ⟨-5, signedExponent 1⟩

/-- An exponent has at least two digits. -/
def longPlaces : PlacesNotation := ⟨-4, signedExponent 2⟩

/-- The number `mantissa * 10 ^ exponent` without needless zeros. -/
def withPlaces (how : PlacesNotation) (mantissa exponent : Int) : List Char :=
  let all := decimal mantissa.natAbs
  let digits := (all.reverse.dropWhile (· == '0')).reverse
  let leading : Int := all.length + exponent - 1
  (if mantissa < 0 then ['-'] else []) ++
    if mantissa = 0 then "0.0".toList
    else if how.lowest ≤ leading ∧ leading < 16 then positional digits (leading + 1)
    else scientific digits (how.exponent leading)

end Accrual.Text
