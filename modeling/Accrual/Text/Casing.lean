import Accrual.Text.CaseClass
import Accrual.Text.SmallLetters

/-!
# Letter case

Lower-casing of any text, and upper-casing of a text whose result matters only where it is plain
ASCII: level names and the texts compared with them. Every character that upper-cases to ASCII
letters is covered, the ligatures and the dotless and long letters included; any other character
stays, as it can belong to no name.
-/

namespace Accrual.Text

def upperChar (c : Char) : List Char :=
  match c.toNat with
  | 0xdf => ['S', 'S']
  | 0x131 => ['I']
  | 0x17f => ['S']
  | 0xfb00 => ['F', 'F']
  | 0xfb01 => ['F', 'I']
  | 0xfb02 => ['F', 'L']
  | 0xfb03 => ['F', 'F', 'I']
  | 0xfb04 => ['F', 'F', 'L']
  | 0xfb05 => ['S', 'T']
  | 0xfb06 => ['S', 'T']
  | _ => [c.toUpper]

def upper (s : String) : String := String.ofList (s.toList.flatMap upperChar)

/-- The small letters of a character between the characters before it, nearest first, and after it.
A sigma is written differently at the end of a word. -/
def lowerChar (before : List Char) (c : Char) (after : List Char) : List Char :=
  match c.toNat with
  | 0x130 => ['i', '\u0307']
  | 0x3a3 => [if startsCased before && !startsCased after then '\u03c2' else '\u03c3']
  | _ => [smallLetter c]

def lowerAfter (before : List Char) : List Char → List Char
  | [] => []
  | c :: rest => lowerChar before c rest ++ lowerAfter (c :: before) rest

def lower (s : String) : String := String.ofList (lowerAfter [] s.toList)

end Accrual.Text
