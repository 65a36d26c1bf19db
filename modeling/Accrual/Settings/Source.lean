import Accrual.Json.Parser
import Accrual.Settings.DotEnv
import Accrual.Error
import Accrual.Text.Casing

/-!
# Sources of settings

Settings come from two sources of named texts: the variables of the environment and the assignments
of the file `.env`. Letter case does not matter in names. A group of settings can be given as one
structured text under its own name, and field by field under longer names, with two underscores in
front of each part; the single fields win.
-/

namespace Accrual

structure Source where
  name : String
  /-- The content of each name as it is spelled; a name may be there without content. -/
  assigned : List (String × Option String)

namespace Source

/-- The first part of every name that means a setting. -/
def family : String := "validcase_"

def ofEnvironment (environment : List (String × String)) : Source :=
  ⟨"EnvSettingsSource", environment.map fun v => (v.1, some v.2)⟩

/-- The assignments of a file. A name that is assigned again takes the later content. -/
def ofAssignments (assignments : List DotEnv.Assignment) : Source :=
  ⟨"DotEnvSettingsSource", Keyed.ofList assignments⟩

def ofDotEnv (text : String) : Source := ofAssignments (DotEnv.assignments text)

/-- The content of each name in small letters. Of two names that differ in letter case only, the
later one counts. -/
def contents (source : Source) : List (String × Option String) :=
  Keyed.ofList (source.assigned.map fun a => (Text.lower a.1, a.2))

/-- The text given under a name of the family. -/
def text? (source : Source) (name : String) : Option String :=
  (source.contents.lookup (family ++ name)).join

/-- Splits a name at each pair of underscores. -/
def splitName : List Char → List Char → List (List Char)
  | part, '_' :: '_' :: rest => part.reverse :: splitName [] rest
  | part, c :: rest => splitName (c :: part) rest
  | part, [] => [part.reverse]

/-- Puts a content at a path of names. What is no object stays in the way of longer paths. -/
def putAt (fields : Json.Fields) (content : Json) : List String → Json.Fields
  | [] => fields
  | [name] => Keyed.insert name content fields
  | name :: path =>
      match fields.lookup name with
      | none => Keyed.insert name (.object (putAt [] content path)) fields
      | some (.object inner) => Keyed.insert name (.object (putAt inner content path)) fields
      | some _ => fields

/-- The part of a name after the group and two underscores. -/
def inGroup? (group name : String) : Option (List Char) :=
  let start := (family ++ group ++ "__").toList
  if start.isPrefixOf name.toList then some (name.toList.drop start.length) else none

/-- The fields of a group that are given one by one. -/
def singleFields (source : Source) (group : String) : Json.Fields :=
  source.contents.foldl (fun fields v =>
    match inGroup? group v.1 with
    | some rest =>
        putAt fields (v.2.elim .null .text) ((splitName [] rest).map String.ofList)
    | none => fields) []

/-- Fields under their declared names, whatever letter case they were given in. -/
def declare (declared : List String) (fields : Json.Fields) : Json.Fields :=
  Keyed.ofList (fields.map fun field =>
    (if declared.contains (Text.lower field.1) then Text.lower field.1 else field.1, field.2))

/-- A group as this source gives it. A structured text that is null counts as not given. -/
def group? (source : Source) (group : String) (declared : List String) :
    Except Error (Option Json) := do
  let single := source.singleFields group
  match source.text? group with
  | none => return if single.isEmpty then none else some (.object (declare declared single))
  | some text =>
      match Json.parse? text.toList with
      | none => throw (.unreadableSetting group source.name)
      | some (.object fields) =>
          return some (.object (declare declared (Json.overlay fields single)))
      | some .null => return none
      | some other => return some other

end Source

end Accrual
