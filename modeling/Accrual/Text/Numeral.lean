/-!
# Numerals

Decimal and hexadecimal numerals as lists of characters, with and without a fixed width.
-/

namespace Accrual.Text

def decimal (n : Nat) : List Char := Nat.toDigits 10 n

/-- A decimal numeral, with a minus sign for a negative number. -/
def signedDecimal (n : Int) : List Char :=
  if n < 0 then '-' :: decimal n.natAbs else decimal n.natAbs

/-- Fills up with zeros on the left; a text that is wide enough stays as it is. -/
def padded (width : Nat) (cs : List Char) : List Char :=
  List.replicate (width - cs.length) '0' ++ cs

theorem length_padded (width : Nat) (cs : List Char) :
    (padded width cs).length = max width cs.length := by
  simp only [padded, List.length_append, List.length_replicate]
  omega

/-- A hexadecimal numeral in small letters. -/
def hexadecimal (width n : Nat) : List Char := padded width (Nat.toDigits 16 n)

def ofDecimal (cs : List Char) : Nat := Nat.ofDigitChars 10 cs 0

theorem ofDecimal_decimal (n : Nat) : ofDecimal (decimal n) = n :=
  Nat.ofDigitChars_toDigits (by decide) (by decide)

theorem isDigit_of_mem_decimal {n : Nat} {c : Char} (h : c ∈ decimal n) : c.isDigit = true :=
  Nat.isDigit_of_mem_toDigits (by decide) (by decide) h

theorem decimal_ne_nil (n : Nat) : decimal n ≠ [] :=
  Nat.toDigits_ne_nil

end Accrual.Text
