import Accrual.Json.Basic
import Accrual.Text.Places

/-!
# Compact text of structured data

No blank stands between the parts. A text escapes the double quote, the backslash and the characters
below the space, and nothing else.
-/

namespace Accrual.Json

open Text

def escapeChar (c : Char) : List Char :=
  match c.toNat with
  | 0x22 => ['\\', c]
  | 0x5c => ['\\', c]
  | 0x8 => ['\\', 'b']
  | 0x9 => ['\\', 't']
  | 0xa => ['\\', 'n']
  | 0xc => ['\\', 'f']
  | 0xd => ['\\', 'r']
  | n => if n < 0x20 then '\\' :: 'u' :: hexadecimal 4 n else [c]

def printText (s : String) : List Char :=
  '\x22' :: s.toList.flatMap escapeChar ++ ['\x22']

def printNonFinite (sign infinite : Bool) : List Char :=
  (if sign then ['-'] else []) ++ if infinite then "Infinity".toList else "NaN".toList

/-- A half of a character can be written by its number only. -/
def brokenLiteral : List Char := "\x22\\ud800\x22".toList

mutual

def print : Json → List Char
  | null => "null".toList
  | bool b => if b then "true".toList else "false".toList
  | int n => signedDecimal n
  | real mantissa exponent => withPlaces shortPlaces mantissa exponent
  | nonFinite sign infinite => printNonFinite sign infinite
  | text s => printText s
  | brokenText => brokenLiteral
  | array items => '[' :: printItems items ++ [']']
  | object fields => '\x7b' :: printFields fields ++ ['\x7d']
termination_by structural j => j

def printItems : List Json → List Char
  | [] => []
  | [item] => print item
  | item :: rest => print item ++ ',' :: printItems rest
termination_by structural items => items

def printFields : List (String × Json) → List Char
  | [] => []
  | [(name, content)] => printText name ++ ':' :: print content
  | (name, content) :: rest => printText name ++ ':' :: print content ++ ',' :: printFields rest
termination_by structural fields => fields

end

end Accrual.Json
