import Accrual.Error
import Accrual.Text.Blank

/-!
# Violations

A violation is a single failed rule on a named field: a ready-made payload for a failure. Its texts
are stripped of white space, after which field and message must not be empty.
-/

namespace Accrual

structure Violation where
  field : String
  message : String
  code : Option String
  deriving DecidableEq

namespace Violation

/-- A text as a violation keeps it, which must not be empty. -/
def readText (name text : String) : Except Problem String :=
  if Text.stripped text = "" then .error ⟨.tooShort, [name]⟩ else .ok (Text.stripped text)

/-- Field and message, and the code in brackets unless it is absent or empty. -/
def render (v : Violation) : String :=
  let code := match v.code with
    | none | some "" => ""
    | some code => " [" ++ code ++ "]"
  v.field ++ ": " ++ v.message ++ code

end Violation

end Accrual
