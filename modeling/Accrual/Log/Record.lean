import Accrual.Json.Printer
import Accrual.Log.Entry
import Accrual.Keyed
import Accrual.Value.Equality
import Accrual.Value.Text

/-!
# Log records

A log record is an entry as one line of structured text: time, level and event, overridden and
extended by the context. Validations, loggers and the like are written as objects of their fields,
and values without fields as their plain text, if they have one that can be written out.
-/

namespace Accrual

namespace Value

/-- Integers are written up to 64 bits, with or without a sign. -/
def isWide (n : Int) : Bool := n < -9223372036854775808 || 18446744073709551615 < n

/-- The field name for a key. Keys that come to the same name are all written. -/
def keyName : Value → Except Error String
  | text s => .ok s
  | code c => .ok c.text
  | int n => if isWide n then .error .keyTooWide else .ok (String.ofList (Text.signedDecimal n))
  | bool b => .ok (if b then "true" else "false")
  | absent => .ok "null"
  | _ => .error .keyNotEncodable

def keyNames : List (Value × Value) → Except Error (List String)
  | [] => .ok []
  | (key, _) :: rest => do
      let name ← keyName key
      return name :: (← keyNames rest)

/-- Levels of containers inside each other are counted in eight bits, so that the count starts anew
after the last one. -/
def levelCount : Nat := 256

/-- The level inside a container. No container but a tuple may stand at the last level; what a tuple
takes past that level is counted anew. -/
def levelInside (level : Nat) : Except Error Nat :=
  if level % levelCount = levelCount - 1 then .error .tooDeep else .ok (level + 1)

mutual

/-- The structured form of a value, whose containers are at the given level. The keys of a
dictionary are looked at before its contents. -/
def toJson (level : Nat) : Value → Except Error Json
  | absent => .ok .null
  | bool b => .ok (.bool b)
  | int n => if isWide n then .error .integerTooWide else .ok (.int n)
  | text s => .ok (.text s)
  | list items => do
      let level ← levelInside level
      return .array (← toJsons level items)
  | tuple items => do return .array (← toJsons (level + 1) items)
  | dictionary entries => do
      let level ← levelInside level
      let names ← keyNames entries
      return .object (names.zip (← contentsToJson level entries))
  | success v => do
      let level ← levelInside level
      return .object [("value", ← toJson level v)]
  | failure v => do
      let level ← levelInside level
      return .object [("error", ← toJson level v)]
  | logger context _ _ => do
      let level ← levelInside (← levelInside level)
      let names ← keyNames context
      return .object [("context", .object (names.zip (← contentsToJson level context)))]
  | consoleRenderer output colors showTimestamp => do
      let level ← levelInside level
      let output ← toJson level output
      return .object [("output", output), ("colors", ← toJson level colors),
        ("show_timestamp", .bool showTimestamp)]
  | jsonRenderer output => do
      let level ← levelInside level
      return .object [("output", ← toJson level output)]
  | silentRenderer => do
      discard (levelInside level)
      return .object []
  | entry time name event context => do
      let level ← levelInside level
      let event ← toJson level event
      let level ← levelInside level
      let names ← keyNames context
      let context ← contentsToJson level context
      return .object [("timestamp", .real time.decimal.1 time.decimal.2),
        ("level", .text name), ("event", event), ("context", .object (names.zip context))]
  | v => if v.isWritable then .ok (.text v.toPlain) else .error (.notEncodable v.typeName)
termination_by structural v => v

def toJsons (level : Nat) : List Value → Except Error (List Json)
  | [] => .ok []
  | v :: rest => do
      let j ← toJson level v
      return j :: (← toJsons level rest)
termination_by structural vs => vs

def contentsToJson (level : Nat) : List (Value × Value) → Except Error (List Json)
  | [] => .ok []
  | (_, v) :: rest => do
      let j ← toJson level v
      return j :: (← contentsToJson level rest)
termination_by structural entries => entries

end

end Value

namespace LogRecord

/-- The fields of a record in order: those of the entry itself, then the context. -/
def fields (time : List Char) (entry : LogEntry) : Entries :=
  Keyed.merge
    (Entries.ofTexts [("timestamp", .text (String.ofList time)), ("level", .text entry.level),
      ("event", entry.event)])
    entry.context

/-- A record is a container itself, at the first level. -/
def line (entry : LogEntry) : Except Error (List Char) := do
  return (← (Value.dictionary (fields (← entry.isoTime) entry)).toJson 1).print

end LogRecord

end Accrual
