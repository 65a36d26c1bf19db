import Accrual.Error
import Accrual.Text.Places
import Accrual.Text.Quoted
import Accrual.Value

/-!
# Values as text

A value has two texts. Its literal writes it out in full: texts are quoted, and the constructors
and brackets around the parts are shown. Its plain text is meant for display: a text stands for
itself, a violation, a fault and an exception are shown by their message, settings by their fields,
and any other value by its literal. Both texts exist for every value, but numbers of more than 4300
digits are not to be written out.
-/

namespace Accrual

namespace Text

def boolLiteral (b : Bool) : List Char := if b then "True".toList else "False".toList

def optionLiteral : Option String → List Char
  | some s => quoted s.toList
  | none => "None".toList

/-- A constructor applied to its arguments. -/
def applied (head : String) (arguments : List Char) : List Char :=
  head.toList ++ '(' :: arguments ++ [')']

end Text

open Text

namespace LoggingSettings

def parts (s : LoggingSettings) (separator : String) : List Char :=
  "level=".toList ++ quoted s.level.text.toList ++ separator.toList ++
    "format=".toList ++ quoted s.format.text.toList ++ separator.toList ++
    "colors=".toList ++ s.colors.elim "None".toList boolLiteral

def literal (s : LoggingSettings) : List Char := applied "LoggingSettings" (s.parts ", ")

end LoggingSettings

namespace ReportSettings

def parts (s : ReportSettings) (separator : String) : List Char :=
  "level=".toList ++ quoted s.level.text.toList ++ separator.toList ++
    "separator=".toList ++ quoted s.separator.toList ++ separator.toList ++
    "bullet=".toList ++ quoted s.bullet.toList

def literal (s : ReportSettings) : List Char := applied "ReportSettings" (s.parts ", ")

end ReportSettings

namespace Settings

def parts (s : Settings) (separator : String) : List Char :=
  "debug=".toList ++ boolLiteral s.debug ++ separator.toList ++
    "logging=".toList ++ s.logging.literal ++ separator.toList ++
    "report=".toList ++ s.report.literal

end Settings

namespace Violation

def literal (v : Violation) : List Char :=
  applied "Violation" <|
    "field=".toList ++ quoted v.field.toList ++
    ", message=".toList ++ quoted v.message.toList ++
    ", code=".toList ++ optionLiteral v.code

end Violation

namespace Fault

def Code.literal (c : Fault.Code) : List Char :=
  "<ErrorCode.".toList ++ c.text.toList ++ ": ".toList ++ quoted c.text.toList ++ ['>']

def literal (f : Fault) : List Char :=
  applied "Fault" <|
    "code=".toList ++ f.code.literal ++
    ", message=".toList ++ quoted f.message.toList ++
    ", operation=".toList ++ quoted f.operation.toList

end Fault

def secondsLiteral (time : Seconds) : List Char :=
  withPlaces longPlaces time.decimal.1 time.decimal.2

namespace Value

mutual

def literal : Value → List Char
  | absent => "None".toList
  | bool b => boolLiteral b
  | int n => signedDecimal n
  | text s => quoted s.toList
  | list items => '[' :: literals items ++ [']']
  | tuple [item] => '(' :: literal item ++ [',', ')']
  | tuple items => '(' :: literals items ++ [')']
  | dictionary entries => '\x7b' :: entryLiterals entries ++ ['\x7d']
  | success v => applied "Success" (literal v)
  | failure v => applied "Failure" (literal v)
  | ok v => applied "Ok" (literal v)
  | err v => applied "Err" (literal v)
  | violation v => v.literal
  | stage _ items => "<Builder".toList ++ decimal items.length ++ ['>']
  | function f => "<fn ".toList ++ f.name.toList ++ ['>']
  | logger context r threshold =>
      applied "BoundLogger" <|
        "context=\x7b".toList ++ entryLiterals context ++ "\x7d, _renderer=".toList ++
        literal r ++ ", _level=".toList ++ literal threshold
  | consoleRenderer output colors showTimestamp =>
      applied "ConsoleRenderer" <|
        "output=".toList ++ literal output ++ ", colors=".toList ++ literal colors ++
        ", show_timestamp=".toList ++ boolLiteral showTimestamp
  | jsonRenderer output => applied "JsonRenderer" ("output=".toList ++ literal output)
  | silentRenderer => applied "NoOpRenderer" []
  | entry time level event context =>
      applied "LogEntry" <|
        "timestamp=".toList ++ secondsLiteral time ++ ", level=".toList ++ quoted level.toList ++
        ", event=".toList ++ literal event ++ ", context=\x7b".toList ++
        entryLiterals context ++ ['\x7d']
  | fault f => f.literal
  | code c => c.literal
  | exception _ f => applied f.code.errorName (quoted f.message.toList)
  | settings s => applied "ValidcaseSettings" (s.parts ", ")
  | loggingSettings s => s.literal
  | reportSettings s => s.literal
  | stream _ => "<stream>".toList
termination_by structural v => v

def literals : List Value → List Char
  | [] => []
  | [v] => literal v
  | v :: rest => literal v ++ ',' :: ' ' :: literals rest
termination_by structural vs => vs

def entryLiterals : List (Value × Value) → List Char
  | [] => []
  | [(key, v)] => literal key ++ ':' :: ' ' :: literal v
  | (key, v) :: rest => literal key ++ ':' :: ' ' :: literal v ++ ',' :: ' ' :: entryLiterals rest
termination_by structural entries => entries

end

def plain : Value → List Char
  | text s => s.toList
  | violation v => v.render.toList
  | fault f => f.render.toList
  | code c => c.text.toList
  | exception _ f => f.message.toList
  | settings s => s.parts " "
  | loggingSettings s => s.parts " "
  | reportSettings s => s.parts " "
  | v => literal v

/-- The first number that is too long to be written out. -/
def digitsBound : Nat := Nat.pow 10 Error.maxDigits

mutual

/-- Whether all numbers in the literal of a value can be written out. -/
def isWritable : Value → Bool
  | int n => n.natAbs < digitsBound
  | list items | tuple items => areWritable items
  | dictionary entries => areEntriesWritable entries
  | success v | failure v | ok v | err v | jsonRenderer v => isWritable v
  | logger context r threshold => areEntriesWritable context && isWritable r && isWritable threshold
  | consoleRenderer output colors _ => isWritable output && isWritable colors
  | entry _ _ event context => isWritable event && areEntriesWritable context
  | _ => true
termination_by structural v => v

def areWritable : List Value → Bool
  | [] => true
  | v :: rest => isWritable v && areWritable rest
termination_by structural vs => vs

def areEntriesWritable : List (Value × Value) → Bool
  | [] => true
  | (key, v) :: rest => isWritable key && isWritable v && areEntriesWritable rest
termination_by structural entries => entries

end

/-- Refuses a value with a number that is too long for its text. -/
def checkWritable (v : Value) : Except Error Unit :=
  if v.isWritable then .ok () else .error .numberTooLong

/-- A text of a value, if all its numbers can be written out. -/
def written {α : Type} (text : Value → α) (v : Value) : Except Error α := do
  v.checkWritable
  return text v

def toLiteral (v : Value) : String := String.ofList v.literal

def toPlain (v : Value) : String := String.ofList v.plain

end Value

end Accrual
