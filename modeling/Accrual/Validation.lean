import Accrual.Run

/-!
# Validations

A validation is a success with a value or a failure with an error; neither payload is ever absent.
Unlike an either, validations that do not depend on each other are combined without stopping at the
first failure. `Validation.ap` says how two of them combine, `Gathered` how a whole row does.
-/

namespace Accrual

inductive Validation
  | success (value : Value)
  | failure (error : Value)

namespace Validation

def toValue : Validation → Value
  | success value => .success value
  | failure error => .failure error

def ofValue? : Value → Option Validation
  | .success value => some (success value)
  | .failure error => some (failure error)
  | _ => none

@[simp]
theorem ofValue?_toValue (v : Validation) : ofValue? v.toValue = some v := by
  cases v <;> rfl

/-- A success with a value that is not absent. -/
def succeed (value : Value) : Run Validation := do
  require value "value" "success"
  return success value

/-- A failure with an error that is not absent. -/
def fail (error : Value) : Run Validation := do
  require error "error" "failure"
  return failure error

def isSuccess : Validation → Bool
  | success _ => true
  | failure _ => false

def isFailure (v : Validation) : Bool := !v.isSuccess

/-! ## Taking the payload out -/

def get : Validation → Run Value
  | success value => pure value
  | failure _ => throw (.misuse ⟨.emptyValue, "get() on Failure", "get"⟩)

def getError : Validation → Run Value
  | success _ => throw (.misuse ⟨.illegalState, "get_error() on Success", "get_error"⟩)
  | failure error => pure error

def getOrElse (fallback : Value) : Validation → Value
  | success value => value
  | failure _ => fallback

variable (call : Calls)

def getOrCompute (f : Value) (v : Validation) : Run Value := do
  require f "f" "get_or_else_get"
  match v with
  | success value => return value
  | failure error => invoke call f [error]

def fold (onFailure onSuccess : Value) (v : Validation) : Run Value := do
  require onFailure "on_failure" "fold"
  require onSuccess "on_success" "fold"
  match v with
  | success value => invoke call onSuccess [value]
  | failure error => invoke call onFailure [error]

/-! ## Changing the payload -/

def map (f : Value) (v : Validation) : Run Validation := do
  require f "f" "map"
  match v with
  | success value => succeed (← invoke call f [value])
  | failure error => return failure error

def mapError (f : Value) (v : Validation) : Run Validation := do
  require f "f" "map_error"
  match v with
  | success value => return success value
  | failure error => fail (← invoke call f [error])

def bimap (errorFn valueFn : Value) (v : Validation) : Run Validation := do
  require errorFn "error_fn" "bimap"
  require valueFn "value_fn" "bimap"
  match v with
  | success value => succeed (← invoke call valueFn [value])
  | failure error => fail (← invoke call errorFn [error])

/-- Exchanges the two channels. -/
def swap : Validation → Run Validation
  | success value => fail value
  | failure error => succeed error

/-! ## Going on from a success -/

/-- Goes on with the validation that `f` makes of the value; nothing is accumulated. -/
def flatMap (f : Value) (v : Validation) : Run Validation := do
  require f "f" "flat_map"
  match v with
  | failure error => return failure error
  | success value =>
      let result ← invoke call f [value]
      match ofValue? result with
      | some next => return next
      | none => throw (.misuse ⟨.unexpectedResult,
          "mapper returned " ++ result.typeName ++ ", expected Validation", "flat_map"⟩)

/-- Keeps a failure, and a success whose value passes. -/
def filterBy (passes : Value → Run Bool) : Validation → Run (Option Validation)
  | failure error => return some (failure error)
  | success value => return if ← passes value then some (success value) else none

def filter (predicate : Value) (v : Validation) : Run (Option Validation) := do
  require predicate "predicate" "filter"
  v.filterBy fun value => return (← invoke call predicate [value]).isTruthy

def filterNot (predicate : Value) (v : Validation) : Run (Option Validation) := do
  require predicate "predicate" "filter_not"
  v.filterBy fun value => return !(← invoke call predicate [value]).isTruthy

/-- Calls `action` with the value of a success, for its effects. -/
def peek (action : Value) (v : Validation) : Run Validation := do
  require action "action" "peek"
  match v with
  | success value => discard (invoke call action [value])
  | failure _ => pure ()
  return v

def forEach (action : Value) (v : Validation) : Run Unit := discard (v.peek call action)

/-! ## Accumulation -/

/-- Applies a validated function to this value. Errors add up in order: those of the function, which
are the elements of its payload, come before the error of this validation. -/
def ap (other : Value) (v : Validation) : Run Value := do
  require other "other" "ap"
  match v, other with
  | success value, .success f => return (← succeed (← invoke call f [value])).toValue
  | success _, .failure _ | success _, .err _ => return other
  | success _, .ok _ => throw (.noAttribute other.typeName "value")
  | failure error, .success _ | failure error, .ok _ => return .failure (.tuple [error])
  | failure error, .failure errors =>
      match errors.elements? with
      | some found => return .failure (.tuple (found ++ [error]))
      | none => throw (.notSpreadable errors.typeName)
  | failure _, .err _ => throw (.noAttribute other.typeName "error")
  | _, _ => throw (.noAttribute other.typeName "_is_ok")

/-- Applies a function of one argument; the error of a failure becomes a row of one. -/
def apply (f : Value) (v : Validation) : Run Value := do
  require f "f" "apply"
  v.ap call (.success f)

end Validation

/-- What a row of validations has come to so far: something made of all the values or, from the
first failure on, all the errors in order. -/
inductive Gathered (α : Type)
  | values (made : α)
  | errors (found : List Value)

namespace Gathered

variable {α : Type}

/-- Takes in the next item of the row. A value is fed only while there are no errors. -/
def add (feed : α → Value → Run α) (gathered : Gathered α) (item : Value) : Run (Gathered α) :=
  match Validation.ofValue? item, gathered with
  | some (.success value), values made => values <$> feed made value
  | some (.success _), errors found => pure (errors found)
  | some (.failure error), values _ => pure (errors [error])
  | some (.failure error), errors found => pure (errors (found ++ [error]))
  | none, _ => throw (.noAttribute item.typeName "ap")

/-- The validation that a row comes to: a success with what was made, or a failure with the tuple of
all errors. -/
def toValidation (toValue : α → Value) : Gathered α → Validation
  | values made => .success (toValue made)
  | errors found => .failure (.tuple found)

end Gathered

end Accrual
