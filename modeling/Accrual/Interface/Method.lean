import Accrual.Either
import Accrual.Interface.Arguments
import Accrual.Report
import Accrual.Stage

/-!
# Methods

The operations that are called on a value by name. Which methods there are depends on the kind of
value; a method that a value does not have is an error before any argument is looked at.
-/

namespace Accrual

inductive Method
  | isSuccess
  | isFailure
  | isEmpty
  | get
  | getError
  | getOrElse
  | getOrCompute
  | map
  | mapError
  | bimap
  | swap
  | fold
  | flatMap
  | filter
  | filterNot
  | peek
  | forEach
  | ap
  | apply
  | combine
  | toEither
  | isOk
  | isErr
  | unwrap
  | unwrapErr
  | render
  | bind
  | unbind
  | log
  | debug
  | info
  | warning
  | error
  deriving DecidableEq

namespace Method

def names : List (String × Method) :=
  [("is_success", isSuccess), ("is_failure", isFailure), ("is_empty", isEmpty), ("get", get),
    ("get_error", getError), ("get_or_else", getOrElse), ("get_or_else_get", getOrCompute),
    ("map", map), ("map_error", mapError), ("bimap", bimap), ("swap", swap), ("fold", fold),
    ("flat_map", flatMap), ("filter", filter), ("filter_not", filterNot), ("peek", peek),
    ("for_each", forEach), ("ap", ap), ("apply", apply), ("combine", combine),
    ("to_either", toEither), ("is_ok", isOk), ("is_err", isErr), ("unwrap", unwrap),
    ("unwrap_err", unwrapErr), ("render", render), ("bind", bind), ("unbind", unbind),
    ("log", log), ("debug", debug), ("info", info), ("warning", warning), ("error", error)]

def ofName? (name : String) : Option Method :=
  names.lookup name

/-- What a method does once its arguments are known. -/
abbrev Bound := Arguments → Run Value

def taking (name : String) (parameters : List String) (body : List Value → Run Value) : Bound :=
  fun arguments => do
    body (← Run.ofExcept (arguments.take name (parameters.map Parameter.required)))

def withNone (name : String) (body : Run Value) : Bound := taking name [] fun _ => body

def withOne (name parameter : String) (body : Value → Run Value) : Bound :=
  taking name [parameter] fun
    | [v] => body v
    | _ => throw (.badCall name)

def withTwo (name first second : String) (body : Value → Value → Run Value) : Bound :=
  taking name [first, second] fun
    | [v, w] => body v w
    | _ => throw (.badCall name)

def optional : Option Validation → Value
  | some v => v.toValue
  | none => .absent

variable (call : Calls)

def ofValidation (v : Validation) : Method → Option Bound
  | isSuccess => some <| withNone "is_success" <| return .bool v.isSuccess
  | isFailure => some <| withNone "is_failure" <| return .bool v.isFailure
  | isEmpty => some <| withNone "is_empty" <| return .bool v.isFailure
  | get => some <| withNone "get" v.get
  | getError => some <| withNone "get_error" v.getError
  | getOrElse => some <| withOne "get_or_else" "default" fun w => return v.getOrElse w
  | getOrCompute => some <| withOne "get_or_else_get" "f" fun f => v.getOrCompute call f
  | map => some <| withOne "map" "f" fun f => return (← v.map call f).toValue
  | mapError => some <| withOne "map_error" "f" fun f => return (← v.mapError call f).toValue
  | bimap => some <| withTwo "bimap" "error_fn" "value_fn" fun f g =>
      return (← v.bimap call f g).toValue
  | swap => some <| withNone "swap" <| return (← v.swap).toValue
  | fold => some <| withTwo "fold" "on_failure" "on_success" fun f g => v.fold call f g
  | flatMap => some <| withOne "flat_map" "f" fun f => return (← v.flatMap call f).toValue
  | filter => some <| withOne "filter" "predicate" fun p => return optional (← v.filter call p)
  | filterNot => some <| withOne "filter_not" "predicate" fun p =>
      return optional (← v.filterNot call p)
  | peek => some <| withOne "peek" "action" fun f => return (← v.peek call f).toValue
  | forEach => some <| withOne "for_each" "action" fun f => do
      v.forEach call f
      return .absent
  | ap => some <| withOne "ap" "other" fun w => v.ap call w
  | apply => some <| withOne "apply" "f" fun f => v.apply call f
  | combine => some <| withOne "combine" "other" fun w => return (← v.combine w).toValue
  | toEither => some <| withNone "to_either" <| return v.toEither.toValue
  | _ => none

def ofStage (stage : Stage) : Method → Option Bound
  | apply => some <| withOne "apply" "f" fun f => return (← stage.apply call f).toValue
  | combine =>
      if stage.isWidenable then
        some <| withOne "combine" ("v" ++ toString (stage.items.length + 1)) fun v =>
          return (← stage.combine v).toValue
      else none
  | _ => none

def ofEither (e : Either) : Method → Option Bound
  | isOk => some <| withNone "is_ok" <| return .bool e.isOk
  | isErr => some <| withNone "is_err" <| return .bool !e.isOk
  | unwrap => some <| withNone "unwrap" e.unwrap
  | unwrapErr => some <| withNone "unwrap_err" e.unwrapErr
  | _ => none

/-- Logs at a fixed level; the level cannot be given once more by name. -/
def logAt (name : String) (level : LevelName) (logger : Logger) : Bound := fun arguments => do
  let (values, fields) ←
    Run.ofExcept (arguments.split ("BoundLogger." ++ name) ["self"] ["event"])
  match values with
  | [event] =>
      if (fields.lookup (.text "level")).isSome then throw (.givenTwice "BoundLogger.log" "level")
      logger.log (.int level.number) event fields
      return .absent
  | _ => throw (.badCall name)

def ofLogger (logger : Logger) : Method → Option Bound
  | bind => some fun arguments => do
      let (_, fields) ← Run.ofExcept (arguments.split "BoundLogger.bind" ["self"] [])
      return (logger.bind fields).toValue
  | unbind => some fun arguments => do
      return (logger.unbind (← Run.ofExcept (arguments.row "BoundLogger.unbind"))).toValue
  | log => some fun arguments => do
      let (values, fields) ←
        Run.ofExcept (arguments.split "BoundLogger.log" ["self"] ["level", "event"])
      match values with
      | [level, event] =>
          logger.log level event fields
          return .absent
      | _ => throw (.badCall "log")
  | debug => some <| logAt "debug" .debug logger
  | info => some <| logAt "info" .info logger
  | warning => some <| logAt "warning" .warning logger
  | error => some <| logAt "error" .error logger
  | _ => none

/-- What a renderer asks a value for first, where it expects an entry. -/
def firstField : Renderer → Option String
  | .console _ colors showTimestamp =>
      some (if showTimestamp && !colors.isTruthy then "ts_human" else "level")
  | .json _ => some "ts_iso"
  | .silent => none

def ofRenderer (renderer : Renderer) : Method → Option Bound
  | render => some <| withOne "render" "entry" fun v =>
      match LogEntry.ofValue? v, firstField renderer with
      | some entry, _ => do
          renderer.render entry
          return .absent
      | none, some field => throw (.noAttribute v.typeName field)
      | none, none => return .absent
  | _ => none

def ofFault (fault : Fault) : Method → Option Bound
  | render => some <| withNone "render" <| return .text fault.render
  | _ => none

/-- The method of a value, if it has it. -/
def find? (v : Value) (method : Method) : Option Bound :=
  match v with
  | .success value => ofValidation call (.success value) method
  | .failure e => ofValidation call (.failure e) method
  | .stage id items => ofStage call ⟨id, items⟩ method
  | .ok value => ofEither (.ok value) method
  | .err e => ofEither (.err e) method
  | .logger context renderer threshold => ofLogger ⟨context, renderer, threshold⟩ method
  | .fault fault => ofFault fault method
  | v => (Renderer.ofValue? v).bind fun renderer => ofRenderer renderer method

end Method

namespace Value

/-- The content of a field that can be read from outside. -/
def field? : Value → String → Option (Except Error Value)
  | success value, "value" => some (.ok value)
  | failure error, "error" => some (.ok error)
  | code c, "name" => some (.ok (text c.text))
  | code c, "value" => some (.ok (text c.text))
  | exception _ f, "fault" => some (.ok (fault f))
  | exception _ f, "code" => some (.ok (code f.code))
  | logger context _ _, "context" => some (.ok (dictionary context))
  | consoleRenderer _ colors _, "colors" => some (.ok colors)
  | consoleRenderer _ _ showTimestamp, "show_timestamp" => some (.ok (bool showTimestamp))
  | consoleRenderer output _ _, "output" => some (.ok output)
  | jsonRenderer output, "output" => some (.ok output)
  | entry time level event context, "ts_iso" => some <|
      (fun cs => text (String.ofList cs)) <$> LogEntry.isoTime ⟨time, level, event, context⟩
  | entry time level event context, "ts_human" => some <|
      (fun cs => text (String.ofList cs)) <$> LogEntry.humanTime ⟨time, level, event, context⟩
  | entry _ level _ _, "level" => some (.ok (text level))
  | entry _ _ event _, "event" => some (.ok event)
  | entry _ _ _ context, "context" => some (.ok (dictionary context))
  | v, name => (v.recordFields?.bind fun fields => fields.lookup name).map .ok

def field (v : Value) (name : String) : Except Error Value :=
  (v.field? name).getD (.error (.noAttribute v.typeName name))

/-- The method of a value by name. A field that holds a value is called as a function. -/
def method (call : Calls) (v : Value) (name : String) : Run Method.Bound :=
  match (Method.ofName? name).bind (Method.find? call v), v.field? name with
  | some bound, _ => pure bound
  | none, some (.ok f) => pure fun arguments => invoke call f arguments.positional
  | none, some (.error error) => throw error
  | none, none => throw (.noAttribute v.typeName name)

end Value

end Accrual
