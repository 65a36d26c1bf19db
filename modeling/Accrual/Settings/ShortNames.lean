import Accrual.Settings.Source

/-!
# Short names

A group of settings looks for the fields it is not given under short names: the beginning that all
names of the group share, followed by the name of the field. It looks in the environment, without
regard to letter case. Each of these rules can be changed by one of the contents given to the group
itself, under a name that starts with an underscore; a null changes nothing.
-/

namespace Accrual

/-- What short names begin with. -/
inductive Beginning
  | text (s : String)
  /-- Something that has a length, but that no name can begin with. -/
  | misfit (typeName : String) (isEmpty : Bool)

def Beginning.isEmpty : Beginning → Bool
  | text s => s == ""
  | misfit _ isEmpty => isEmpty

structure ShortNames where
  /-- The beginning of all short names of the group. -/
  beginning : Beginning
  /-- Whether the beginning stands in front of the names of fields. If not, these are the short
  names. -/
  isUsed : Bool := true
  /-- Whether a name has to be spelled as declared. -/
  spelled : Bool := false
  /-- Whether an empty text counts as not given. -/
  skipsEmpty : Bool := false
  /-- The text that stands for null. -/
  nullText : Option String := none

namespace ShortNames

/-- What is given for a rule, unless it is null. -/
def given? (fields : Json.Fields) (rule : String) : Option Json :=
  match fields.lookup rule with
  | none | some .null => none
  | some content => some content

/-- A text. A broken one, which nothing found can be equal to, is replaced by a mark. -/
def textOf? : Json → Option String
  | .text s => some s
  | .brokenText => some "\ufffd"
  | _ => none

/-- A beginning has to have a length. -/
def beginningOf (given : Json) : Except Error Beginning :=
  match given with
  | .text s => .ok (.text s)
  | .brokenText => .ok (.text "\ufffd")
  | .array items => .ok (.misfit given.typeName items.isEmpty)
  | .object fields => .ok (.misfit given.typeName fields.isEmpty)
  | _ => .error (.noLength given.typeName)

/-- Whether what the beginning is said to belong to takes in the names of fields. -/
def isTarget : Json → Bool
  | .text s => s == "variable" || s == "all"
  | _ => false

/-- The rules of a group with the given beginning, changed by what is given to the group. -/
def ofFields (beginning : String) (fields : Json.Fields) : Except Error ShortNames := do
  let beginning ← match given? fields "_env_prefix" with
    | none => pure (Beginning.text beginning)
    | some given => beginningOf given
  return {
    beginning
    isUsed := (given? fields "_env_prefix_target").all isTarget
    spelled := (given? fields "_case_sensitive").any Json.isTruthy
    skipsEmpty := (given? fields "_env_ignore_empty").any Json.isTruthy
    nullText := (given? fields "_env_parse_none_str").bind textOf? }

def spell (names : ShortNames) (name : String) : String :=
  if names.spelled then name else Text.lower name

/-- The short name of a field, if one can be put together. -/
def shortName? (names : ShortNames) (field : String) : Option String :=
  if names.isUsed then
    match names.beginning with
    | .text beginning => some (names.spell (beginning ++ field))
    | .misfit _ _ => none
  else some (names.spell field)

/-- What a source holds under each name. -/
def contents (names : ShortNames) (source : Source) : List (String × Option String) :=
  let assigned := source.assigned.filter fun a => !(names.skipsEmpty && a.2 == some "")
  Keyed.ofList (assigned.map fun a => (names.spell a.1, a.2))

/-- The fields that a source holds under short names. -/
def found (names : ShortNames) (source : Source) : List String → Except Error Json.Fields
  | [] => .ok []
  | field :: rest =>
      match names.shortName? field with
      | none => .error (.noShortName field source.name)
      | some name => do
          let others ← found names source rest
          match ((names.contents source).lookup name).join with
          | none => return others
          | some content =>
              return (field, if names.nullText = some content then .null else .text content) ::
                others

/-- The rest of a name behind a beginning, or all of it. -/
def behind (beginning name : String) : String :=
  if beginning.toList.isPrefixOf name.toList then
    String.ofList (name.toList.drop beginning.toList.length)
  else name

/-- In a file, a name that is no short name is taken for a field too: for the one whose name is left
of it behind the beginning. Its content takes the place of what was found for that field. -/
def addOther (names : ShortNames) (declared : List String) (fields : Json.Fields) :
    String × Option String → Except Error Json.Fields
  | (_, none) => .ok fields
  | (name, some content) =>
      if content == "" || (fields.lookup name).isSome ||
          !names.beginning.isEmpty && declared.contains name ||
          declared.any (fun field => names.shortName? field == some name) then .ok fields
      else
        match names.beginning with
        | .text beginning => .ok (Keyed.insert (behind beginning name) (.text content) fields)
        | .misfit typeName _ => .error (.notStart typeName)

/-- The fields that a file holds. -/
def foundInFile (names : ShortNames) (file : Source) (declared : List String) :
    Except Error Json.Fields := do
  (names.contents file).foldlM (names.addOther declared) (← names.found file declared)

end ShortNames

end Accrual
