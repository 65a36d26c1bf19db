import Accrual.Seconds
import Accrual.Settings.Basic
import Accrual.Violation

/-!
# Values

The values that validations carry. Callers bring their own payloads, errors and callbacks, so an
operation has to be ready for any of them where it expects a validation, a tuple or a function; the
type of values is therefore one inductive type, and each capability of the library reads from it the
shapes it accepts.
-/

namespace Accrual

/-- Where text can be written to. None of the streams is a terminal. -/
inductive Stream
  | stdout
  | stderr
  | buffer
  deriving DecidableEq

/-- A function is known by its number; the rest is only shown. -/
structure FunctionRef where
  id : Nat
  name : String
  /-- Whether the function came out of a call that handed over some of its arguments, and waits for
  the others. -/
  isStarted : Bool
  deriving DecidableEq

inductive Value
  | absent
  | bool (b : Bool)
  | int (n : Int)
  | text (s : String)
  | list (items : List Value)
  | tuple (items : List Value)
  | dictionary (entries : List (Value × Value))
  | success (value : Value)
  | failure (error : Value)
  | ok (value : Value)
  | err (error : Value)
  | violation (violation : Violation)
  /-- A stage of a combination with the validations it holds; stages are told apart by number. -/
  | stage (id : Nat) (items : List Value)
  | function (function : FunctionRef)
  /-- A logger; its renderer is absent where it has none of its own. -/
  | logger (context : List (Value × Value)) (renderer threshold : Value)
  | consoleRenderer (output colors : Value) (showTimestamp : Bool)
  | jsonRenderer (output : Value)
  | silentRenderer
  | entry (time : Seconds) (level : String) (event : Value) (context : List (Value × Value))
  | fault (fault : Fault)
  /-- A fault code, which counts as its text. -/
  | code (code : Fault.Code)
  /-- An exception held as a value; exceptions are told apart by number. -/
  | exception (id : Nat) (fault : Fault)
  | settings (settings : Settings)
  | loggingSettings (settings : LoggingSettings)
  | reportSettings (settings : ReportSettings)
  | stream (stream : Stream)

/-- The entries of a dictionary or of a log context, in order of insertion. -/
abbrev Entries := List (Value × Value)

/-- Entries whose keys are texts. -/
def Entries.ofTexts (fields : List (String × Value)) : Entries :=
  fields.map fun field => (.text field.1, field.2)

instance : Inhabited Value := ⟨.absent⟩

/-- How a log record becomes text, and where the text goes. The output should be a stream, and any
value that counts as true turns the colours on. -/
inductive Renderer
  | console (output colors : Value) (showTimestamp : Bool)
  | json (output : Value)
  | silent

namespace Renderer

def toValue : Renderer → Value
  | console output colors showTimestamp => .consoleRenderer output colors showTimestamp
  | json output => .jsonRenderer output
  | silent => .silentRenderer

def ofValue? : Value → Option Renderer
  | .consoleRenderer output colors showTimestamp => some (console output colors showTimestamp)
  | .jsonRenderer output => some (json output)
  | .silentRenderer => some silent
  | _ => none

@[simp]
theorem ofValue?_toValue (r : Renderer) : ofValue? r.toValue = some r := by
  cases r <;> rfl

end Renderer

namespace Value

def typeName : Value → String
  | absent => "NoneType"
  | bool _ => "bool"
  | int _ => "int"
  | text _ => "str"
  | list _ => "list"
  | tuple _ => "tuple"
  | dictionary _ => "dict"
  | success _ => "Success"
  | failure _ => "Failure"
  | ok _ | err _ => "Result"
  | violation _ => "Violation"
  | stage _ items => "Builder" ++ toString items.length
  | function f => if f.isStarted then "function" else "Fn"
  | logger _ _ _ => "BoundLogger"
  | consoleRenderer _ _ _ => "ConsoleRenderer"
  | jsonRenderer _ => "JsonRenderer"
  | silentRenderer => "NoOpRenderer"
  | entry _ _ _ _ => "LogEntry"
  | fault _ => "Fault"
  | code _ => "ErrorCode"
  | exception _ f => f.code.errorName
  | settings _ => "ValidcaseSettings"
  | loggingSettings _ => "LoggingSettings"
  | reportSettings _ => "ReportSettings"
  | stream _ => "StringIO"

def isAbsent : Value → Bool
  | absent => true
  | _ => false

/-- Nothing, false, zero, the empty collections and the negative channels count as false. -/
def isTruthy : Value → Bool
  | absent | failure _ | err _ => false
  | bool b => b
  | int n => n != 0
  | text s => s != ""
  | list items | tuple items => !items.isEmpty
  | dictionary entries => !entries.isEmpty
  | _ => true

def isCallable : Value → Bool
  | function _ => true
  | _ => false

/-- A truth value counts as the number one or zero. -/
def toInt? : Value → Option Int
  | int n => some n
  | bool b => some (if b then 1 else 0)
  | _ => none

def ofOptionText : Option String → Value
  | some s => text s
  | none => absent

def text? : Value → Option String
  | text s => some s
  | code c => some c.text
  | _ => none

def characters (s : String) : List Value := s.toList.map fun c => text (String.singleton c)

/-- A field as the pair of its name and its content. -/
def ofField (name : String) (content : Value) : Value := tuple [text name, content]

/-- The fields of a record, by name and in order. A settings group is a record of its own. -/
def recordFields? : Value → Option (List (String × Value))
  | violation v =>
      some [("field", text v.field), ("message", text v.message), ("code", ofOptionText v.code)]
  | fault f =>
      some [("code", code f.code), ("message", text f.message), ("operation", text f.operation)]
  | settings s =>
      some [("debug", bool s.debug), ("logging", loggingSettings s.logging),
        ("report", reportSettings s.report)]
  | loggingSettings s =>
      some [("level", text s.level.text), ("format", text s.format.text),
        ("colors", s.colors.elim absent bool)]
  | reportSettings s =>
      some [("level", text s.level.text), ("separator", text s.separator),
        ("bullet", text s.bullet)]
  | _ => none

/-- The elements that a value yields when it is gone through; `none` for a value without elements.
A record yields its fields. -/
def elements? : Value → Option (List Value)
  | text s => some (characters s)
  | code c => some (characters c.text)
  | list items | tuple items => some items
  | dictionary entries => some (entries.map Prod.fst)
  | success value => some [value]
  | failure _ => some []
  | v => v.recordFields?.map fun fields => fields.map fun field => ofField field.1 field.2

end Value

end Accrual
