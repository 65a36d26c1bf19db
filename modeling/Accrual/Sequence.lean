import Accrual.Validation

/-!
# Sequences of validations

Accumulation over a row of any length: a success with the tuple of all values, or a failure with the
tuple of all errors. Traversing validates each item of a row and takes in the result before it turns
to the next item.
-/

namespace Accrual

def collect (values : List Value) (value : Value) : Run (List Value) := pure (values ++ [value])

/-- The elements of a value that can be gone through. -/
def elementsOf (items : Value) : Run (List Value) :=
  match items.elements? with
  | some elements => pure elements
  | none => throw (.notIterable items.typeName)

def sequence (validations : Value) : Run Validation := do
  require validations "validations" "sequence"
  let elements ← elementsOf validations
  return (← elements.foldlM (Gathered.add collect) (.values [])).toValidation .tuple

def visit (call : Calls) (f : Value) (gathered : Gathered (List Value)) (item : Value) :
    Run (Gathered (List Value)) := do
  gathered.add collect (← invoke call f [item])

def traverse (call : Calls) (items f : Value) : Run Validation := do
  require f "f" "traverse"
  let elements ← elementsOf items
  return (← elements.foldlM (visit call f) (.values [])).toValidation .tuple

end Accrual
