import Accrual.Validation
import Accrual.Value.Text

/-!
# Eithers

An either is the plain disjoint union that validations convert to and from. Its payload may be
absent, which no validation allows.
-/

namespace Accrual

inductive Either
  | ok (value : Value)
  | err (error : Value)

namespace Either

def toValue : Either → Value
  | ok value => .ok value
  | err error => .err error

def ofValue? : Value → Option Either
  | .ok value => some (ok value)
  | .err error => some (err error)
  | _ => none

def isOk : Either → Bool
  | ok _ => true
  | err _ => false

/-- The error of an operation that does not fit the branch, which it shows. -/
def refuse (operation : String) (e : Either) : Run Value := do
  Run.ofExcept e.toValue.checkWritable
  throw (.wrongBranch (operation ++ "() on " ++ e.toValue.toLiteral))

def unwrap (e : Either) : Run Value :=
  match e with
  | ok value => pure value
  | err _ => e.refuse "unwrap"

def unwrapErr (e : Either) : Run Value :=
  match e with
  | ok _ => e.refuse "unwrap_err"
  | err error => pure error

end Either

namespace Validation

def toEither : Validation → Either
  | success value => .ok value
  | failure error => .err error

def ofEither : Either → Run Validation
  | .ok value => succeed value
  | .err error => fail error

end Validation

end Accrual
