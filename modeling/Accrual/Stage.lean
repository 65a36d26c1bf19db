import Accrual.Validation

/-!
# Stages

A stage holds two to eight validations that do not depend on each other. It can be widened by one
more, which evaluates nothing, or be applied to a function of as many arguments: the function is
called once with all the values, or else every error is collected in order.
-/

namespace Accrual

/-- A function that takes its arguments one by one, or the result of its call. -/
inductive Curried
  | waiting (f : Value) (missing : Nat) (collected : List Value)
  | result (value : Value)

namespace Curried

/-- Calls a function, whose result must not be absent. -/
def finish (call : Calls) (f : Value) (arguments : List Value) : Run Curried := do
  let v ← invoke call f arguments
  require v "value" "success"
  return result v

/-- Hands over one more argument. The last one calls the function; to wait for yet another one, it
has to be a function. -/
def feed (call : Calls) (curried : Curried) (value : Value) : Run Curried :=
  match curried with
  | waiting f missing collected =>
      if missing ≤ 1 then finish call f (collected ++ [value])
      else if f.isCallable then pure (waiting f (missing - 1) (collected ++ [value]))
      else throw .nothingToApply
  | result f => finish call f [value]

/-- The result, or the function as long as it has not been called. -/
def value : Curried → Value
  | waiting f _ _ => f
  | result v => v

end Curried

structure Stage where
  id : Nat
  items : List Value

namespace Stage

def minArity : Nat := 2

def maxArity : Nat := 8

def toValue (stage : Stage) : Value := .stage stage.id stage.items

/-- A new stage, in which no item is absent. -/
def ofList (items : List Value) : Run Stage :=
  match items.findIdx? Value.isAbsent with
  | some i => throw (.nullArgument ("validation" ++ toString (i + 1)) "combine")
  | none => return ⟨← Run.freshId, items⟩

/-- Only a stage below the largest arity can be widened. -/
def isWidenable (stage : Stage) : Bool := stage.items.length < maxArity

def combine (next : Value) (stage : Stage) : Run Stage := ofList (stage.items ++ [next])

def apply (call : Calls) (f : Value) (stage : Stage) : Run Validation := do
  require f "f" "apply"
  let waiting := Curried.waiting f stage.items.length []
  return (← stage.items.foldlM (Gathered.add (Curried.feed call)) (.values waiting)).toValidation
    Curried.value

end Stage

/-- The stage of two to eight given validations. -/
def combine (items : List Value) : Run Stage :=
  if Stage.minArity ≤ items.length ∧ items.length ≤ Stage.maxArity then Stage.ofList items
  else throw (.misuse ⟨.arityOutOfRange,
    "expected " ++ toString Stage.minArity ++ " to " ++ toString Stage.maxArity ++
      " validations, got " ++ toString items.length, "combine"⟩)

/-- Starts a stage with this validation and another one. -/
def Validation.combine (other : Value) (v : Validation) : Run Stage := do
  require other "other" "combine"
  Stage.ofList [v.toValue, other]

end Accrual
