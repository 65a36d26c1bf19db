import Accrual.Json.Basic
import Accrual.Text.Numeral

/-!
# Reading structured data

A reader for the usual grammar, with blanks between the parts. Infinities and `NaN` are read too,
and an integer of more than 4300 digits is refused. Each step gives what it has read and the rest
of the text, or nothing where the text does not fit.
-/

namespace Accrual.Json

open Text

def isSpace (c : Char) : Bool := c == ' ' || c == '\t' || c == '\n' || c == '\r'

def skipSpace (cs : List Char) : List Char := cs.dropWhile isSpace

def hexDigit? (c : Char) : Option Nat :=
  if c.isDigit then some (c.toNat - 48)
  else if 'a' ≤ c ∧ c ≤ 'f' then some (c.toNat - 87)
  else if 'A' ≤ c ∧ c ≤ 'F' then some (c.toNat - 55)
  else none

def hexFour? : List Char → Option (Nat × List Char)
  | a :: b :: c :: d :: rest => do
      let a ← hexDigit? a
      let b ← hexDigit? b
      let c ← hexDigit? c
      let d ← hexDigit? d
      some (((a * 16 + b) * 16 + c) * 16 + d, rest)
  | _ => none

def isHighHalf (n : Nat) : Bool := 0xd800 ≤ n && n < 0xdc00

def isLowHalf (n : Nat) : Bool := 0xdc00 ≤ n && n < 0xe000

/-- The character of a numeric escape. Two halves of a pair make one character, and a half that
stands alone makes none. -/
def numericEscape? (cs : List Char) : Option (Option Char × List Char) := do
  let (high, rest) ← hexFour? cs
  if isHighHalf high then
    match rest with
    | '\\' :: 'u' :: after =>
        match hexFour? after with
        | some (low, rest') =>
            if isLowHalf low then
              some (Char.ofNat (0x10000 + (high - 0xd800) * 0x400 + (low - 0xdc00)), rest')
            else some (none, rest)
        | none => some (none, rest)
    | _ => some (none, rest)
  else if isLowHalf high then some (none, rest)
  else some (Char.ofNat high, rest)

/-- The character of an escape whose backslash has been read. -/
def escape? : List Char → Option (Option Char × List Char)
  | 'u' :: rest => numericEscape? rest
  | c :: rest =>
      match c with
      | 'b' => some ('\x08', rest)
      | 'f' => some ('\x0c', rest)
      | 'n' => some ('\n', rest)
      | 'r' => some ('\r', rest)
      | 't' => some ('\t', rest)
      | '/' => some ('/', rest)
      | '\\' => some ('\\', rest)
      | '\x22' => some ('\x22', rest)
      | _ => none
  | [] => none

/-- The rest of a text whose opening quote has been read. The number bounds the characters read. -/
def textBody? : Nat → List Char → Option (List (Option Char) × List Char)
  | 0, _ => none
  | _ + 1, [] => none
  | bound + 1, c :: rest =>
      if c = '\x22' then some ([], rest)
      else if c = '\\' then do
        let (c, rest) ← escape? rest
        let (cs, rest) ← textBody? bound rest
        some (c :: cs, rest)
      else if c.toNat < 0x20 then none
      else do
        let (cs, rest) ← textBody? bound rest
        some (some c :: cs, rest)

/-- A text whose opening quote has been read; it is `none` where a half of a character stands alone.
-/
def text? (cs : List Char) : Option (Option String × List Char) := do
  let (cs, rest) ← textBody? (cs.length + 1) cs
  some ((cs.mapM id).map String.ofList, rest)

def digits (cs : List Char) : List Char × List Char :=
  (cs.takeWhile Char.isDigit, cs.dropWhile Char.isDigit)

/-- The digits before the point: a single zero, or digits that do not start with one. -/
def wholePart? : List Char → Option (List Char × List Char)
  | '0' :: rest => some (['0'], rest)
  | cs => if (digits cs).1.isEmpty then none else some (digits cs)

/-- The digits after a point, if a point with digits follows. -/
def places : List Char → List Char × List Char
  | '.' :: rest => if (digits rest).1.isEmpty then ([], '.' :: rest) else digits rest
  | cs => ([], cs)

/-- The number after an exponent mark, if a mark with digits follows. -/
def exponentPart? (cs : List Char) : Option (Int × List Char) :=
  match cs with
  | mark :: rest =>
      let signed := match rest with
        | '-' :: rest => (true, digits rest)
        | '+' :: rest => (false, digits rest)
        | rest => (false, digits rest)
      let n : Int := ofDecimal signed.2.1
      if (mark = 'e' ∨ mark = 'E') ∧ signed.2.1 ≠ [] then
        some (if signed.1 then -n else n, signed.2.2)
      else none
  | [] => none

def unsignedNumber? (negative : Bool) (cs : List Char) : Option (Json × List Char) := do
  let (whole, rest) ← wholePart? cs
  let (fraction, rest) := places rest
  let sign (n : Nat) : Int := if negative then -n else n
  match fraction, exponentPart? rest with
  | [], none => if whole.length ≤ 4300 then some (int (sign (ofDecimal whole)), rest) else none
  | fraction, none => some (real (sign (ofDecimal (whole ++ fraction))) (-fraction.length), rest)
  | fraction, some (exponent, rest) =>
      some (real (sign (ofDecimal (whole ++ fraction))) (exponent - fraction.length), rest)

def number? : List Char → Option (Json × List Char)
  | '-' :: 'I' :: rest =>
      if "nfinity".toList.isPrefixOf rest then some (nonFinite true true, rest.drop 7) else none
  | '-' :: rest => unsignedNumber? true rest
  | cs => unsignedNumber? false cs

def word? (word : String) (j : Json) (cs : List Char) : Option (Json × List Char) :=
  if word.toList.isPrefixOf cs then some (j, cs.drop word.length) else none

mutual

/-- A value at the start of the text. The number bounds the steps taken. -/
def value? : Nat → List Char → Option (Json × List Char)
  | 0, _ => none
  | bound + 1, cs =>
      match cs with
      | '\x22' :: rest => do
          let (s, rest) ← text? rest
          some (s.elim brokenText text, rest)
      | '[' :: rest =>
          match skipSpace rest with
          | ']' :: rest => some (array [], rest)
          | rest => do
              let (items, rest) ← items? bound rest
              some (array items, rest)
      | '\x7b' :: rest =>
          match skipSpace rest with
          | '\x7d' :: rest => some (object [], rest)
          | rest => do
              let (fields, rest) ← fields? bound rest
              some (object (Keyed.ofList fields), rest)
      | 'n' :: _ => word? "null" null cs
      | 't' :: _ => word? "true" (bool true) cs
      | 'f' :: _ => word? "false" (bool false) cs
      | 'N' :: _ => word? "NaN" (nonFinite false false) cs
      | 'I' :: _ => word? "Infinity" (nonFinite false true) cs
      | cs => number? cs

def items? : Nat → List Char → Option (List Json × List Char)
  | 0, _ => none
  | bound + 1, cs => do
      let (item, rest) ← value? bound cs
      match skipSpace rest with
      | ']' :: rest => some ([item], rest)
      | ',' :: rest => do
          let (items, rest) ← items? bound (skipSpace rest)
          some (item :: items, rest)
      | _ => none

/-- The fields of an object up to its closing bracket. A field whose name is broken is left out. -/
def fields? : Nat → List Char → Option (List (String × Json) × List Char)
  | 0, _ => none
  | bound + 1, cs =>
      match cs with
      | '\x22' :: rest => do
          let (name, rest) ← text? rest
          match skipSpace rest with
          | ':' :: rest => do
              let (content, rest) ← value? bound (skipSpace rest)
              let field := (name.map fun name => (name, content)).toList
              match skipSpace rest with
              | '\x7d' :: rest => some (field, rest)
              | ',' :: rest => do
                  let (fields, rest) ← fields? bound (skipSpace rest)
                  some (field ++ fields, rest)
              | _ => none
          | _ => none
      | _ => none

end

def parse? (cs : List Char) : Option Json :=
  match value? (2 * cs.length + 2) (skipSpace cs) with
  | some (j, rest) => if (skipSpace rest).isEmpty then some j else none
  | none => none

end Accrual.Json
