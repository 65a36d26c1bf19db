import Accrual.Keyed
import Accrual.Log.Console
import Accrual.Log.Record
import Accrual.Settings.Load
import Accrual.Text.Casing
import Accrual.Value.Hash

/-!
# Loggers

A logger has a context, a threshold and possibly a renderer of its own. A call below the threshold
does nothing. Any other call hands one entry to one renderer: the logger's own, else the configured
one, which is built from the settings where there is none yet.
-/

namespace Accrual

namespace Renderer

def palette (colors : Value) : Console.Palette :=
  if colors.isTruthy then .colored else .plain

/-- Writes one line of text to an output, which has to be a stream. -/
def writeLine (output : Value) (line : List Char) : Run Unit :=
  match output with
  | .stream stream => Run.write stream (String.ofList (line ++ ['\n']))
  | other => throw (.noAttribute other.typeName "write")

/-- Writes one line, or nothing where the renderer is silent. The line is built before the output is
looked at. -/
def render (entry : LogEntry) : Renderer → Run Unit
  | console output colors showTimestamp =>
      match Console.line (palette colors) showTimestamp entry with
      | .ok line => writeLine output line
      | .error error => throw error
  | json output =>
      match LogRecord.line entry with
      | .ok line => writeLine output line
      | .error error => throw error
  | silent => pure ()

end Renderer

namespace Logging

/-! ## Levels -/

/-- What each level name stands for. Two of the names stand for no number: a layout, and a table of
layout styles. -/
def levelTable : List (String × Value) :=
  [("DEBUG", .int 10), ("INFO", .int 20), ("WARNING", .int 30), ("ERROR", .int 40),
    ("CRITICAL", .int 50), ("WARN", .int 30), ("FATAL", .int 50), ("NOTSET", .int 0),
    ("BASIC_FORMAT", .text "%(levelname)s:%(name)s:%(message)s"), ("_STYLES", .dictionary [])]

/-- The threshold that a level text asks for, in any letter case; an unknown text means `INFO`. -/
def thresholdOf (level : String) : Value :=
  (levelTable.lookup (Text.upper level)).getD (.int 20)

def numberNames : List (Int × String) :=
  [(0, "notset"), (10, "debug"), (20, "info"), (30, "warning"), (40, "error"), (50, "critical")]

def nameTexts : List String :=
  ["CRITICAL", "FATAL", "ERROR", "WARN", "WARNING", "INFO", "DEBUG", "NOTSET"]

/-- The text of a level without a name of its own. A tuple has to have one item, which stands for
the level; whatever follows the first item is found out once that is written. -/
def otherLevelText : Value → Except Error String
  | .tuple [] => .error .formatUnfilled
  | .tuple [v] => v.written Value.toPlain
  | .tuple (v :: _) => do
      v.checkWritable
      .error .formatOverfilled
  | v => v.written Value.toPlain

def levelName (level : Value) : Except Error String :=
  match level.unhashable?, level.toInt?.bind fun n => numberNames.lookup n with
  | some typeName, _ => .error (.unhashable typeName)
  | none, some name => .ok name
  | none, none =>
      if level.text?.any nameTexts.contains then .error (.noAttribute "int" "lower")
      else do return Text.lower ("Level " ++ (← otherLevelText level))

/-! ## Configuration -/

/-- The given value, or a fallback for one that counts as false. -/
def orElse (fallback v : Value) : Value := if v.isTruthy then v else fallback

def rendererFor (format output colors : Value) : Run Renderer :=
  match format with
  | .text "console" => pure (.console (orElse (.stream .stderr) output) colors true)
  | .text "json" => pure (.json (orElse (.stream .stdout) output))
  | .text "none" => pure .silent
  | other => do throw (.unknownFormat (← Run.ofExcept (other.written Value.toPlain)))

/-- Configures all logging; what is not given is taken from the settings. The threshold is set
before the format is looked at. -/
def configure (format level output colors : Value) : Run Renderer := do
  let settings ← getSettings
  let format := orElse (.text settings.logging.format.text) format
  let level := orElse (.text settings.logLevel.text) level
  let colors := if colors.isAbsent then .bool (settings.logging.colors.getD false) else colors
  match level.text? with
  | some s => modify fun store => { store with threshold := some (thresholdOf s) }
  | none => throw (.noAttribute level.typeName "upper")
  let renderer ← rendererFor format output colors
  modify fun store => { store with renderer := some renderer }
  return renderer

def reset : Run Unit := modify fun store => { store with renderer := none, threshold := none }

/-- The configured renderer, configured from the settings on first use. -/
def currentRenderer : Run Renderer := do
  match (← get).renderer with
  | some renderer => return renderer
  | none => configure .absent .absent .absent .absent

def currentThreshold : Run Value := do
  match (← get).threshold with
  | some threshold => return threshold
  | none => return .int (← getSettings).logLevel.number

end Logging

structure Logger where
  context : Entries
  renderer : Value
  threshold : Value

namespace Logger

def toValue (logger : Logger) : Value :=
  .logger logger.context logger.renderer logger.threshold

def ofValue? : Value → Option Logger
  | .logger context renderer threshold => some ⟨context, renderer, threshold⟩
  | _ => none

def bind (fields : Entries) (logger : Logger) : Logger :=
  { logger with context := Keyed.merge logger.context fields }

def unbind (keys : List Value) (logger : Logger) : Logger :=
  { logger with context := Keyed.erase keys logger.context }

/-- The renderer that an entry goes to. A renderer of the logger's own counts unless it counts as
false. -/
def activeRenderer (logger : Logger) : Run Renderer :=
  if logger.renderer.isTruthy then
    match Renderer.ofValue? logger.renderer with
    | some renderer => pure renderer
    | none => throw (.noAttribute logger.renderer.typeName "render")
  else Logging.currentRenderer

def log (level event : Value) (fields : Entries) (logger : Logger) : Run Unit := do
  match Value.lt level logger.threshold with
  | .error error => throw error
  | .ok true => return
  | .ok false =>
      let renderer ← logger.activeRenderer
      match Logging.levelName level with
      | .error error => throw error
      | .ok name =>
          let time := (← get).surroundings.clock
          renderer.render ⟨time, name, event, Keyed.merge logger.context fields⟩

end Logger

/-- A logger at the current threshold. A name is added to the context as `logger`. -/
def getLogger (name : Value) (context : Entries) : Run Logger := do
  let context := if name.isTruthy then Keyed.insert (.text "logger") name context else context
  return ⟨context, .absent, ← Logging.currentThreshold⟩

end Accrual
