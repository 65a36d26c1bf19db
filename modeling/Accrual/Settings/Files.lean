import Accrual.Json.Basic
import Accrual.Settings.Source
import Accrual.Text.Encoding
import Accrual.Text.Quoted

/-!
# Files of a group

A group of settings can be told to look into files and directories of its own. Of all the places
that a path may lead to, only the file `.env` holds settings; a place that does not exist is passed
over, but a path may also be refused.
-/

namespace Accrual.Files

inductive Place
  | dotenv
  /-- Any other place: it holds no settings, or does not exist. -/
  | elsewhere
  deriving DecidableEq

/-- The parts of a path that lead from one place to another. -/
def parts (path : String) : List String :=
  (path.splitOn "/").filter fun part => part != "" && part != "."

def isAbsolute (path : String) : Bool := path.toList.head? == some '/'

/-- Parts that stand for the home of a user. -/
def homes : List String := ["~", "~root"]

/-- Names of places are bounded, and so are paths. -/
def maxNameSize : Nat := 255

def maxPathSize : Nat := 4095

/-- Where a path leads, seen from the directory of the file `.env`. -/
def locate (path : String) : Except Error Place :=
  let normal := (if isAbsolute path then "/" else "") ++ "/".intercalate (parts path)
  let first := (parts path).head?.getD ""
  if normal.toList.head? == some '~' && !homes.contains first then .error .noHome
  else if maxNameSize < first.utf8ByteSize || maxPathSize < normal.utf8ByteSize then
    .error (.pathTooLong normal)
  else if normal == ".env" then .ok .dotenv
  else .ok .elsewhere

/-- Where something leads that should be a path. No place has a name that is not whole. -/
def locateGiven : Json → Except Error Place
  | .text path => locate path
  | .brokenText => .ok .elsewhere
  | other => .error (.notPath other.typeName)

/-- One path, or several of them. -/
def paths : Json → Except Error (List Json)
  | .text path => .ok [.text path]
  | given =>
      match given.parts? with
      | some paths => .ok paths
      | none => .error (.notIterable given.typeName)

/-! ## Reading -/

/-- The encoding that a file is read in. What counts as false means the usual one. -/
def encodingOf (given : Option Json) : Except Error Text.Encoding :=
  match given with
  | none => .ok (.utf8 false)
  | some (.text name) =>
      if name == "" then .ok (.utf8 false)
      else if name.toList.contains '\x00' then .error .nullInText
      else
        match Text.Encoding.ofName? name with
        | some encoding => .ok encoding
        | none =>
            .error (if Text.Encoding.isNoText name then .noTextEncoding name
              else .unknownEncoding name)
  | some other =>
      if other.isTruthy then .error (.notEncodingName other.typeName) else .ok (.utf8 false)

/-- The text of the file `.env` as it reads in the given encoding. -/
def reread (encoding : Option Json) (text : String) : Except Error String := do
  match (← encodingOf encoding).read text with
  | .ok chars => return String.ofList chars
  | .error reason => throw (.unreadableFile reason)

/-- The assignments of the files that the paths lead to. The text is that of the file `.env`. -/
def assignments (encoding : Option Json) (text : String) :
    List Json → Except Error (List (String × Option String))
  | [] => .ok []
  | path :: rest => do
      match ← locateGiven path with
      | .dotenv => do
          let first := DotEnv.assignments (← reread encoding text)
          return first ++ (← assignments encoding text rest)
      | .elsewhere => assignments encoding text rest

/-- What the files hold that a group is told to look into. -/
def source (files encoding : Option Json) (text : String) : Except Error Source := do
  match files with
  | none => return Source.ofAssignments []
  | some files => return Source.ofAssignments (← assignments encoding text (← paths files))

/-! ## Directories -/

/-- No directory that can be given holds a setting, and none of them may be a file. -/
def checkDirectories (directories : Json) : Except Error Unit := do
  let places ← (← paths directories).mapM locateGiven
  if places.contains .dotenv then throw .notDirectory

end Accrual.Files
