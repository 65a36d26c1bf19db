import Accrual.Run
import Accrual.Settings.Files
import Accrual.Settings.ShortNames

/-!
# Loading the settings

Each field takes the first content found for it: as a single field of its group or in the
structured text of the group, first in the environment and then in the file `.env`; then under the
short name of the field; then the default. A group that no source gives is built from its short
names before the whole is checked, and fails under its own title.
-/

namespace Accrual

/-! ## Reading the content of a field -/

def LevelName.ofJson : Json → Except Problem.Cause LevelName
  | .text s =>
      match LevelName.all.find? fun level => level.text == Text.upper s with
      | some level => .ok level
      | none => .error (.notListed (LevelName.all.map LevelName.text))
  | .brokenText => .error .brokenText
  | _ => .error (.notListed (LevelName.all.map LevelName.text))

def LogFormat.ofJson : Json → Except Problem.Cause LogFormat
  | .text s =>
      match LogFormat.ofText? s with
      | some format => .ok format
      | none => .error (.notListed (LogFormat.all.map LogFormat.text))
  | .brokenText => .error .brokenText
  | _ => .error (.notListed (LogFormat.all.map LogFormat.text))

namespace Settings

def textOfJson : Json → Except Problem.Cause String
  | .text s => .ok s
  | .brokenText => .error .brokenText
  | _ => .error .notText

def trueTexts : List String := ["1", "on", "t", "true", "y", "yes"]

def falseTexts : List String := ["0", "off", "f", "false", "n", "no"]

/-- One and zero are truth values, and no other whole number of 64 bits reads as one. -/
def boolOfInt (n : Int) : Except Problem.Cause Bool :=
  if n = 0 then .ok false
  else if n = 1 then .ok true
  else if -9223372036854775808 ≤ n ∧ n ≤ 9223372036854775807 then .error .unreadableBool
  else .error .notBool

def boolOfReal (x : Float) : Except Problem.Cause Bool :=
  if x == 0.0 then .ok false
  else if x == 1.0 then .ok true
  else if x.floor == x && x.abs < 9223372036854775808.0 then .error .unreadableBool
  else .error .notBool

def boolOfJson : Json → Except Problem.Cause Bool
  | .bool b => .ok b
  | .int n => boolOfInt n
  | .real mantissa exponent => boolOfReal (Json.toFloat mantissa exponent)
  | .text s =>
      if trueTexts.contains (Text.lower s) then .ok true
      else if falseTexts.contains (Text.lower s) then .ok false
      else .error .unreadableBool
  | .brokenText => .error .brokenText
  | .null | .nonFinite _ _ | .array _ | .object _ => .error .notBool

def optionalBoolOfJson : Json → Except Problem.Cause (Option Bool)
  | .null => .ok none
  | j => some <$> boolOfJson j

/-- Reads a field, or takes the default where nothing is given. -/
def readField {α : Type} (fields : Json.Fields) (name : String) (fallback : α)
    (read : Json → Except Problem.Cause α) : Except Problem α :=
  match fields.lookup name with
  | none => .ok fallback
  | some content => (read content).mapError fun cause => ⟨cause, [name]⟩

def problemsOf {α ε : Type} : Except ε α → List ε
  | .ok _ => []
  | .error problem => [problem]

end Settings

open Settings

namespace LoggingSettings

def fieldNames : List String := ["level", "format", "colors"]

def ofFields (fields : Json.Fields) : Except (List Problem) LoggingSettings :=
  let level := readField fields "level" .info LevelName.ofJson
  let format := readField fields "format" .console LogFormat.ofJson
  let colors := readField fields "colors" none optionalBoolOfJson
  match level, format, colors with
  | .ok level, .ok format, .ok colors => .ok ⟨level, format, colors⟩
  | _, _, _ => .error (problemsOf level ++ problemsOf format ++ problemsOf colors)

end LoggingSettings

namespace ReportSettings

def fieldNames : List String := ["level", "separator", "bullet"]

def ofFields (fields : Json.Fields) : Except (List Problem) ReportSettings :=
  let level := readField fields "level" .warning LevelName.ofJson
  let separator := readField fields "separator" "\n" textOfJson
  let bullet := readField fields "bullet" "- " textOfJson
  match level, separator, bullet with
  | .ok level, .ok separator, .ok bullet => .ok ⟨level, separator, bullet⟩
  | _, _, _ => .error (problemsOf level ++ problemsOf separator ++ problemsOf bullet)

end ReportSettings

namespace Settings

/-- A kind of group: how it is titled and named, how its short names begin, and which fields it
has. -/
structure Group (α : Type) where
  title : String
  name : String
  beginning : String
  declared : List String
  read : Json.Fields → Except (List Problem) α

def Group.logging : Group LoggingSettings :=
  ⟨"LoggingSettings", "logging", "VALIDCASE_LOG_", LoggingSettings.fieldNames,
    LoggingSettings.ofFields⟩

def Group.report : Group ReportSettings :=
  ⟨"ReportSettings", "report", "VALIDCASE_REPORT_", ReportSettings.fieldNames,
    ReportSettings.ofFields⟩

/-- The sources given to a group come with what they start from. Nothing that can be given can be
asked for fields, so that there must not be any source. -/
def checkSources (given : Json) : Except Error Unit :=
  match given.parts? with
  | none => .error (.noParts given.typeName)
  | some [sources, _] =>
      if !sources.isTruthy then .ok ()
      else
        match sources.parts? with
        | none => .error (.notIterable sources.typeName)
        | some parts => .error (.notCallable ((parts.headD .null).typeName))
  | some parts =>
      .error (if parts.length < 2 then .tooFewParts 2 parts.length else .tooManyParts 2)

/-- A group looks for single fields only, so that names need not be bounded in parts. The bound has
to be a number nevertheless. -/
def checkBound (bound : Json) : Except Error Unit :=
  if bound.isTruthy && !bound.isNumber then .error (.notBound bound.typeName) else .ok ()

/-- No arguments of a command line are looked at, but they have to be a list. A truth value tells
whether there are any. -/
def checkArguments (arguments : Json) : Except Error Unit :=
  match arguments with
  | .bool _ | .array _ => .ok ()
  | other =>
      if other.isNumber && !other.isTruthy then .ok ()
      else .error (.notArgumentList other.typeName)

/-- The fields given to a group over those found under its short names. -/
def Group.fields {α : Type} (group : Group α) (surroundings : Surroundings)
    (given : Json.Fields) : Except Error Json.Fields := do
  let rule (name : String) : Option Json := ShortNames.given? given name
  (rule "_env_nested_max_split").forM checkBound
  let names ← ShortNames.ofFields group.beginning given
  let file ← Files.source (rule "_env_file") (rule "_env_file_encoding") surroundings.dotenv
  (rule "_cli_parse_args").forM checkArguments
  let found ← names.found (Source.ofEnvironment surroundings.environment) group.declared
  let foundInFile ← names.foundInFile file group.declared
  (rule "_secrets_dir").forM Files.checkDirectories
  return Json.overlay (Json.overlay foundInFile found) given

/-- The fields of a group. A group that is given its sources takes nothing from anywhere else. -/
def Group.complete {α : Type} (group : Group α) (surroundings : Surroundings)
    (given : Json.Fields) : Except Error Json.Fields := do
  match ShortNames.given? given "_build_sources" with
  | some sources => do
      checkSources sources
      return []
  | none => group.fields surroundings given

/-- A group of settings: as given, over its short names; or from its short names alone, in which
case a failure is final. -/
def Group.load {α : Type} (group : Group α) (surroundings : Surroundings) (given : Option Json) :
    Except Error (Except (List Problem) α) := do
  match given with
  | none =>
      match group.read (← group.complete surroundings []) with
      | .ok settings => return .ok settings
      | .error problems => throw (.invalid group.title problems)
  | some (.object fields) =>
      match group.complete surroundings fields with
      | .ok fields => return (group.read fields).mapError (·.map (Problem.under group.name))
      | .error error =>
          if error.blamesValue then return .error [⟨.refused error.message, [group.name]⟩]
          else throw error
  | some _ => return .error [⟨.notGroup group.title, [group.name]⟩]

/-- What both sources together give for a group. -/
def mergeGroup (file environment : Option Json) : Option Json :=
  match environment with
  | some content => some (Json.replace file content)
  | none => file

def load (surroundings : Surroundings) : Except Error Settings := do
  let environment := Source.ofEnvironment surroundings.environment
  let file := Source.ofDotEnv surroundings.dotenv
  let logging ← environment.group? "logging" LoggingSettings.fieldNames
  let report ← environment.group? "report" ReportSettings.fieldNames
  let fileLogging ← file.group? "logging" LoggingSettings.fieldNames
  let fileReport ← file.group? "report" ReportSettings.fieldNames
  let debugText := (environment.text? "debug").or (file.text? "debug")
  let debug := readField (debugText.toList.map fun s => ("debug", .text s)) "debug" false boolOfJson
  let logging ← Group.logging.load surroundings (mergeGroup fileLogging logging)
  let report ← Group.report.load surroundings (mergeGroup fileReport report)
  match debug, logging, report with
  | .ok debug, .ok logging, .ok report => return ⟨debug, logging, report⟩
  | _, _, _ =>
      throw (.invalid "ValidcaseSettings"
        (problemsOf debug ++ (problemsOf logging).flatten ++ (problemsOf report).flatten))

end Settings

/-- The settings in force. They are loaded once and kept; a failed load is not kept. -/
def getSettings : Run Settings := do
  match (← get).cached with
  | some settings => return settings
  | none =>
      match Settings.load (← get).surroundings with
      | .error error => throw error
      | .ok settings =>
          modify fun store => { store with cached := some settings }
          return settings

/-- Drops the settings in force, so that the next use loads them again. -/
def clearSettings : Run Unit := modify fun store => { store with cached := none }

end Accrual
