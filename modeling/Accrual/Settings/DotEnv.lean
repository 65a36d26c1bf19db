import Accrual.Text.Blank

/-!
# Files of assignments

The text of a file `.env` is a row of assignments `NAME=VALUE`, one a line, with comments and empty
lines between them. A value may be bare, in which case a comment may follow it after a blank, or
quoted, in which case it may hold escapes and line feeds. A name without a value is assigned
nothing. A line that is no assignment is skipped.
-/

namespace Accrual.DotEnv

open Text

/-- What a line assigns to a name. -/
abbrev Assignment := String × Option String

/-- The usual line ends become line feeds. -/
def normalizeLines : List Char → List Char
  | '\r' :: '\n' :: rest => '\n' :: normalizeLines rest
  | '\r' :: rest => '\n' :: normalizeLines rest
  | c :: rest => c :: normalizeLines rest
  | [] => []

def isLineBlank (c : Char) : Bool := isBlank c && c != '\n'

def skipBlanks (cs : List Char) : List Char := cs.dropWhile isLineBlank

def lineRest (cs : List Char) : List Char := cs.dropWhile (· != '\n')

/-- The word `export` in front of a name says nothing. -/
def skipExport (cs : List Char) : List Char :=
  let rest := cs.drop 6
  if "export".toList.isPrefixOf cs && rest.head?.any isLineBlank then skipBlanks rest else cs

def isNameChar (c : Char) : Bool := c != '=' && c != '#' && !isBlank c

/-- The name at the start of a line, which is missing in front of a comment. -/
def name? : List Char → Option (Option String × List Char)
  | '#' :: rest => some (none, '#' :: rest)
  | '\x27' :: rest =>
      let name := rest.takeWhile (· != '\x27')
      match name, rest.dropWhile (· != '\x27') with
      | _ :: _, _ :: rest => some (some (String.ofList name), rest)
      | _, _ => none
  | cs =>
      let name := cs.takeWhile isNameChar
      if name.isEmpty then none else some (some (String.ofList name), cs.dropWhile isNameChar)

/-- The text up to the closing quote. A backslash takes the next character with it, so that a quote
after one closes the text only if no other quote can; of several such quotes the last one does. -/
def untilQuote? (quote : Char) : List Char → Option (List Char × List Char)
  | [] => none
  | '\\' :: c :: rest =>
      match untilQuote? quote rest with
      | some (body, after) => some ('\\' :: c :: body, after)
      | none => if c = quote then some (['\\'], rest) else none
  | c :: rest =>
      if c = quote then some ([], rest)
      else (untilQuote? quote rest).map fun read => (c :: read.1, read.2)

/-- Replaces each escape that the table knows. -/
def unescape (table : Char → Option Char) : List Char → List Char
  | [] => []
  | '\\' :: c :: rest =>
      match table c with
      | some d => d :: unescape table rest
      | none => '\\' :: unescape table (c :: rest)
  | c :: rest => c :: unescape table rest

def singleEscape : Char → Option Char
  | '\\' => some '\\'
  | '\x27' => some '\x27'
  | _ => none

def doubleEscape : Char → Option Char
  | '\\' => some '\\'
  | '\x27' => some '\x27'
  | '\x22' => some '\x22'
  | 'a' => some '\x07'
  | 'b' => some '\x08'
  | 'f' => some '\x0c'
  | 'n' => some '\n'
  | 'r' => some '\r'
  | 't' => some '\t'
  | 'v' => some '\x0b'
  | _ => none

/-- Cuts a comment off: a number sign and what follows it, with the blanks in front of it. -/
def cutComment : List Char → List Char
  | [] => []
  | c :: rest =>
      if isBlank c && (rest.dropWhile isBlank).head? == some '#' then [] else c :: cutComment rest

def bareValue (cs : List Char) : List Char :=
  ((cutComment cs).reverse.dropWhile isBlank).reverse

def value? : List Char → Option (String × List Char)
  | '\x27' :: rest =>
      (untilQuote? '\x27' rest).map fun read =>
        (String.ofList (unescape singleEscape read.1), read.2)
  | '\x22' :: rest =>
      (untilQuote? '\x22' rest).map fun read =>
        (String.ofList (unescape doubleEscape read.1), read.2)
  | cs => some (String.ofList (bareValue (cs.takeWhile (· != '\n'))), lineRest cs)

/-- Whether blanks and then a comment come next. -/
def startsComment (cs : List Char) : Bool :=
  cs.head?.any isLineBlank && (skipBlanks cs).head? == some '#'

/-- The value after a name, if an equals sign follows it. It is empty where a comment follows the
sign; a number sign right after the sign starts no comment. -/
def optionalValue? (cs : List Char) : Option (Option String × List Char) :=
  match skipBlanks cs with
  | '=' :: rest =>
      if startsComment rest then some (some "", rest)
      else (value? (skipBlanks rest)).map fun read => (some read.1, read.2)
  | rest => some (none, rest)

def skipComment (cs : List Char) : List Char :=
  match skipBlanks cs with
  | '#' :: rest => lineRest rest
  | _ => cs

/-- The assignment of one line, if there is one, and the lines after it. -/
def line (cs : List Char) : Option Assignment × List Char :=
  let cs := skipExport cs
  match name? cs with
  | none => (none, (lineRest cs).tail)
  | some (name, rest) =>
      match optionalValue? rest with
      | none => (none, (lineRest (skipBlanks rest)).tail)
      | some (value, rest) =>
          match skipBlanks (skipComment rest) with
          | [] => (name.map (·, value), [])
          | '\n' :: rest => (name.map (·, value), rest)
          | _ => (none, (lineRest (skipComment rest)).tail)

/-- All assignments of a text in order. The number bounds the lines read. -/
def lines : Nat → List Char → List Assignment
  | 0, _ => []
  | bound + 1, cs =>
      match cs.dropWhile isBlank with
      | [] => []
      | cs => (line cs).1.toList ++ lines bound (line cs).2

/-- A mark of the byte order in front of a text is no part of it. -/
def dropMark : List Char → List Char
  | '\ufeff' :: cs => cs
  | cs => cs

def assignments (text : String) : List Assignment :=
  let cs := normalizeLines (dropMark text.toList)
  lines cs.length cs

end Accrual.DotEnv
