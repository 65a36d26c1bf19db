import Accrual.Interface.Method
import Accrual.Record
import Accrual.Sequence
import Accrual.Value.Hash

/-!
# Operations

The operations that are called by name and belong to no value: those of the library, some that look
at values from outside, and those that change the surroundings.
-/

namespace Accrual

inductive Operation
  | success
  | failure
  | fromEither
  | combine
  | sequence
  | traverse
  | ok
  | err
  | require
  | fault
  | violation
  | violationRecord
  | renderErrors
  | report
  | getSettings
  | clearSettings
  | configureLogging
  | getLogger
  | resetLogging
  | createError
  | literal
  | plain
  | truth
  | equal
  | unequal
  | elements
  | hashable
  | distinct
  | shape
  | setVariable
  | setDotEnv
  | setClock
  deriving DecidableEq

namespace Operation

def names : List (String × Operation) :=
  [("success", success), ("Success", success), ("failure", failure), ("Failure", failure),
    ("from_either", fromEither), ("combine", combine), ("sequence", sequence),
    ("traverse", traverse), ("Ok", ok), ("Err", err), ("require", require), ("Fault", fault),
    ("violation", violation), ("Violation", violationRecord), ("render_errors", renderErrors),
    ("report", report), ("get_settings", getSettings), ("clear_settings_cache", clearSettings),
    ("configure_logging", configureLogging), ("get_logger", getLogger),
    ("reset_logging", resetLogging), ("create_error", createError), ("repr", literal),
    ("str", plain), ("bool", truth), ("eq", equal), ("ne", unequal), ("iter", elements),
    ("hashable", hashable), ("distinct", distinct), ("match", shape), ("set_env", setVariable),
    ("set_dotenv", setDotEnv), ("set_clock", setClock)]

def ofName? (name : String) : Option Operation :=
  names.lookup name

open Parameter in
def parameters : Operation → List Parameter
  | success | ok => [required "value"]
  | failure | err => [required "error"]
  | fromEither => [required "result"]
  | sequence => [required "validations"]
  | traverse => [required "items", required "f"]
  | require => [required "arg", required "name", optional "operation" (.text "")]
  | violation => [required "field", required "message", optional "code" .absent]
  | renderErrors => [required "errors", option "bullet" .absent, option "separator" .absent]
  | report =>
      [required "validation", option "log" .absent, option "operation" (.text "validation")]
  | configureLogging =>
      [optional "format" .absent, optional "level" .absent, option "output" .absent,
        option "colors" .absent]
  | createError => [required "class", required "message", optional "operation" (.text "")]
  | equal | unequal => [required "a", required "b"]
  | literal | plain | truth | elements | hashable | shape => [required "v"]
  | setVariable => [required "name", required "text"]
  | setDotEnv => [required "text"]
  | setClock => [required "seconds", required "micros"]
  | _ => []

/-- The kind of a value and its payload, as a pattern match finds them. -/
def shapeOf : Value → Value
  | .success value => .list [.text "success", value]
  | .failure error => .list [.text "failure", error]
  | .ok value | .err value => .list [.text "result", value]
  | _ => .list [.text "other"]

def assignVariable (environment : List (String × String)) (name : String) :
    Option String → List (String × String)
  | none => environment.filter fun v => v.1 != name
  | some content =>
      if environment.any fun v => v.1 == name then
        environment.map fun v => if v.1 == name then (name, content) else v
      else environment ++ [(name, content)]

def changeSurroundings (change : Surroundings → Surroundings) : Run Value := do
  modify fun store => { store with surroundings := change store.surroundings }
  return .absent

def unhashable (values : List Value) : Run Unit :=
  match Value.firstUnhashable? values with
  | some typeName => throw (.unhashable typeName)
  | none => pure ()

variable (call : Calls)

def perform (operation : Operation) (values : List Value) : Run Value := do
  match operation, values with
  | success, [v] => return (← Validation.succeed v).toValue
  | failure, [v] => return (← Validation.fail v).toValue
  | fromEither, [v] =>
      Accrual.require v "result" "from_either"
      match Either.ofValue? v with
      | some e => return (← Validation.ofEither e).toValue
      | none => throw (.noAttribute v.typeName "is_ok")
  | sequence, [v] => return (← Accrual.sequence v).toValue
  | traverse, [items, f] => return (← Accrual.traverse call items f).toValue
  | ok, [v] => return .ok v
  | err, [v] => return .err v
  | require, [argument, name, operation] =>
      Run.ofExcept (requireNamed argument name operation)
      return .absent
  | violation, [field, message, code] =>
      return .violation (← Run.ofExcept (Accrual.violation field message code))
  | renderErrors, [errors, bullet, separator] =>
      return .text (← Accrual.renderErrors errors bullet separator)
  | report, [validation, log, operation] => Accrual.report validation log operation
  | getSettings, [] => return .settings (← Accrual.getSettings)
  | clearSettings, [] =>
      Accrual.clearSettings
      return .absent
  | configureLogging, [format, level, output, colors] =>
      return (← Logging.configure format level output colors).toValue
  | resetLogging, [] =>
      Logging.reset
      return .absent
  | createError, [.text name, message, operation] =>
      match Fault.Code.ofErrorName? name with
      | some code =>
          let fault ← Run.ofExcept (Fault.create code message operation)
          return .exception (← Run.freshId) fault
      | none => throw (.undefined name)
  | literal, [v] => return .text (← Run.ofExcept (v.written Value.toLiteral))
  | plain, [v] => return .text (← Run.ofExcept (v.written Value.toPlain))
  | truth, [v] => return .bool v.isTruthy
  | equal, [v, w] => return .bool (v == w)
  | unequal, [v, w] => return .bool (v != w)
  | elements, [v] => return .list (← elementsOf v)
  | hashable, [v] =>
      unhashable [v]
      return .bool true
  | shape, [v] => return shapeOf v
  | setVariable, [.text name, .text content] =>
      changeSurroundings fun s =>
        { s with environment := assignVariable s.environment name (some content) }
  | setVariable, [.text name, .absent] =>
      changeSurroundings fun s => { s with environment := assignVariable s.environment name none }
  | setDotEnv, [.text content] => changeSurroundings fun s => { s with dotenv := content }
  | setClock, [.int seconds, .int micros] =>
      changeSurroundings fun s => { s with clock := .ofReading seconds micros }
  | _, _ => throw (.badCall "operation")

/-- Runs an operation on the arguments of a call. Some operations take any number of values, or
fields of any name. -/
def run (operation : Operation) (arguments : Arguments) : Run Value := do
  match operation with
  | combine => return (← Accrual.combine (← Run.ofExcept (arguments.row "combine"))).toValue
  | distinct =>
      unhashable arguments.positional
      return .int (Value.distinct arguments.positional).length
  | fault => return .fault (← Run.ofExcept (Fault.ofFields arguments.named))
  | violationRecord => return .violation (← Run.ofExcept (Violation.ofFields arguments.named))
  | getLogger =>
      let fields := Entries.ofTexts (arguments.named.filter fun argument => argument.1 != "name")
      match arguments.positional, arguments.byName? "name" with
      | [], name => return (← Accrual.getLogger (name.getD .absent) fields).toValue
      | [name], none => return (← Accrual.getLogger name fields).toValue
      | [_], some _ => throw (.givenTwice "get_logger" "name")
      | _, _ => throw (.badCall "get_logger")
  | _ =>
      let name := ((names.find? fun row => row.2 == operation).map Prod.fst).getD ""
      operation.perform call (← Run.ofExcept (arguments.take name operation.parameters))

end Operation

end Accrual
