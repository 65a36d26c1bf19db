import Accrual.Log.Logger
import Accrual.Validation

/-!
# Reports

What becomes of accumulated errors: text with one error after the other, or a log record. A report
writes down how a validation came out and leaves the validation as it is.
-/

namespace Accrual

/-- A tuple or list of errors, or else a single error. -/
def errorItems : Value → List Value
  | .tuple items | .list items => items
  | error => [error]

/-- The errors, each behind a bullet, with a separator between them. -/
def renderErrors (errors bullet separator : Value) : Run String := do
  let settings := (← getSettings).report
  let bullet := if bullet.isAbsent then .text settings.bullet else bullet
  let separator := if separator.isAbsent then .text settings.separator else separator
  match separator.text? with
  | some text =>
      let parts ← Run.ofExcept <| (errorItems errors).mapM fun e => do
        return (← bullet.written Value.plain) ++ (← e.written Value.plain)
      return String.ofList (text.toList.intercalate parts)
  | none => throw (.noAttribute separator.typeName "join")

/-- The logger to report to: the given one, or one with the library's own name. -/
def reportLogger (log : Value) : Run Logger :=
  if log.isTruthy then
    match Logger.ofValue? log with
    | some logger => pure logger
    | none => throw (.noAttribute log.typeName "bind")
  else getLogger (.text "validcase") []

/-- Logs the outcome of a validation: a success for debugging, a failure with all its errors at the
level that the settings ask for. -/
def report (validation log operation : Value) : Run Value := do
  let logger := (← reportLogger log).bind (Entries.ofTexts [("operation", operation)])
  match Validation.ofValue? validation with
  | none => throw (.noAttribute validation.typeName "is_success")
  | some (.success _) => logger.log (.int LevelName.debug.number) (.text "validation passed") []
  | some (.failure error) =>
      let items := errorItems error
      let level := (← getSettings).report.level
      let texts ← Run.ofExcept (items.mapM (Value.written Value.toPlain))
      logger.log (.int level.number) (.text "validation failed")
        (Entries.ofTexts [("error_count", .int items.length),
          ("errors", .list (texts.map .text))])
  return validation

end Accrual
