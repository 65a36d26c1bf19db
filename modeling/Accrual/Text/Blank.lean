/-!
# Blank characters

Two classes of blank characters. The property `White_Space` decides what is stripped from both ends
of a text; the wider class, which also holds the four information separators, decides which texts
need quotes on a console line.
-/

namespace Accrual.Text

/-- The characters with the Unicode property `White_Space`. -/
def isWhiteSpace (c : Char) : Bool :=
  (0x9 ≤ c.toNat && c.toNat ≤ 0xd) || c.toNat == 0x20 || c.toNat == 0x85 || c.toNat == 0xa0 ||
    c.toNat == 0x1680 || (0x2000 ≤ c.toNat && c.toNat ≤ 0x200a) || c.toNat == 0x2028 ||
    c.toNat == 0x2029 || c.toNat == 0x202f || c.toNat == 0x205f || c.toNat == 0x3000

/-- White space and the information separators U+001C to U+001F. -/
def isBlank (c : Char) : Bool :=
  isWhiteSpace c || (0x1c ≤ c.toNat && c.toNat ≤ 0x1f)

def trimStart (cs : List Char) : List Char := cs.dropWhile isWhiteSpace

def trimEnd (cs : List Char) : List Char := (cs.reverse.dropWhile isWhiteSpace).reverse

/-- A text without its longest white prefix and its longest white suffix. -/
def strip (cs : List Char) : List Char := trimEnd (trimStart cs)

def stripped (s : String) : String := String.ofList (strip s.toList)

end Accrual.Text
