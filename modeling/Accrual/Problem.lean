/-!
# Problems of validated records

A record with declared fields (a violation, a fault, a group of settings) is refused with the list
of all its problems. A problem has a cause and the path of the field at which it was met.
-/

namespace Accrual

inductive Problem.Cause
  | missing
  | tooShort
  | notText
  /-- The value is a text, but not all its characters are whole. -/
  | brokenText
  | notDeclared
  /-- The value is none of the listed texts. -/
  | notListed (choices : List String)
  /-- The value is no member of the enumeration with the listed texts. -/
  | notMember (choices : List String)
  /-- The value has a type that can be read as a truth value, but it reads as none. -/
  | unreadableBool
  | notBool
  /-- The value is no group of the named kind of settings. -/
  | notGroup (kind : String)
  /-- The group of settings could not be built, for the given reason. -/
  | refused (reason : String)
  deriving DecidableEq

structure Problem where
  cause : Problem.Cause
  path : List String
  deriving DecidableEq

namespace Problem

/-- Quoted choices as an English enumeration: commas, and "or" before the last one. -/
def enumerate : List String → String
  | [] => ""
  | [choice] => "'" ++ choice ++ "'"
  | [first, last] => "'" ++ first ++ "' or '" ++ last ++ "'"
  | first :: rest => "'" ++ first ++ "', " ++ enumerate rest

def Cause.kind : Cause → String
  | missing => "missing"
  | tooShort => "string_too_short"
  | notText => "string_type"
  | brokenText => "string_unicode"
  | notDeclared => "extra_forbidden"
  | notListed _ => "literal_error"
  | notMember _ => "enum"
  | unreadableBool => "bool_parsing"
  | notBool => "bool_type"
  | notGroup _ => "model_type"
  | refused _ => "value_error"

def Cause.message : Cause → String
  | missing => "Field required"
  | tooShort => "String should have at least 1 character"
  | notText => "Input should be a valid string"
  | brokenText =>
      "Input should be a valid string, unable to parse raw data as a unicode string"
  | notDeclared => "Extra inputs are not permitted"
  | notListed choices => "Input should be " ++ enumerate choices
  | notMember choices => "Input should be " ++ enumerate choices
  | unreadableBool => "Input should be a valid boolean, unable to interpret input"
  | notBool => "Input should be a valid boolean"
  | notGroup kind => "Input should be a valid dictionary or instance of " ++ kind
  | refused reason => "Value error, " ++ reason

/-- The same problem seen from the record that holds the field `field`. -/
def under (field : String) (problem : Problem) : Problem :=
  { problem with path := field :: problem.path }

end Problem

end Accrual
