import Accrual.Interface.Method
import Accrual.Value.Equality

/-!
# The meaning of callbacks

What a callback does with its arguments, given the meaning of the functions it calls. These may be
functions that it holds or functions that it is given, so nothing but a bound on the depth keeps
calls from going on for ever.
-/

namespace Accrual.Callback

def withArgument (name : String) (arguments : List Value) (body : Value → Run Value) : Run Value :=
  match arguments with
  | [x] => body x
  | _ => throw (.argumentCount name arguments.length)

def integer (name : String) : Value → Run Int
  | .int n => pure n
  | _ => throw (.notInteger name)

/-- The number of characters of a text, or of elements of a collection. -/
def lengthOf : Value → Except Error Nat
  | .text s => .ok s.length
  | .code c => .ok c.text.length
  | .list items | .tuple items => .ok items.length
  | .dictionary entries => .ok entries.length
  | v => .error (.noLength v.typeName)

def written (text : Value → String) (v : Value) : Run String := Run.ofExcept (v.written text)

/-- The sign and the digits of a text that consists of nothing else. -/
def numeral? (s : String) : Option (Bool × List Char) :=
  let unsigned (negative : Bool) (cs : List Char) : Option (Bool × List Char) :=
    if !cs.isEmpty && cs.all Char.isDigit then some (negative, cs) else none
  match s.toList with
  | '-' :: cs => unsigned true cs
  | cs => unsigned false cs

def readNumeral (negative : Bool) (digits : List Char) : Except Error Int :=
  if digits.length ≤ Error.maxDigits then
    .ok (if negative then -(Text.ofDecimal digits : Int) else Text.ofDecimal digits)
  else .error (.numeralTooLong digits.length)

def parsed (x : Value) : Run Validation := do
  match x.text?.bind numeral? with
  | some (negative, digits) =>
      Validation.succeed (.int (← Run.ofExcept (readNumeral negative digits)))
  | none => Validation.fail (.text ("invalid: " ++ (← written Value.toPlain x)))

variable (call : Calls)

def apply (callback : Callback Value) (arguments : List Value) : Run Value :=
  let one := withArgument callback.name arguments
  let number := integer callback.name
  match callback with
  | identity => one fun x => return x
  | constant v => return v
  | tuple => return .tuple arguments
  | list => return .list arguments
  | literal => one fun x => return .text (← written Value.toLiteral x)
  | plain => one fun x => return .text (← written Value.toPlain x)
  | join separator => do
      let parts ← arguments.mapM (written Value.toPlain)
      return .text (separator.intercalate parts)
  | enclose before after => one fun x =>
      return .text (before ++ (← written Value.toPlain x) ++ after)
  | add n => one fun x => return .int ((← number x) + n)
  | multiply n => one fun x => return .int ((← number x) * n)
  | sum => return .int ((← arguments.mapM number).foldr (· + ·) 0)
  | greaterThan n => one fun x => return .bool (n < (← number x))
  | isEven => one fun x => return .bool ((← number x) % 2 == 0)
  | equals v => one fun x => return .bool (x == v)
  | length => one fun x => return .int (← Run.ofExcept (lengthOf x))
  | nonblank => one fun x => return .bool (x.text?.any fun s => s.toList.any (· != ' '))
  | success => one fun x => return (← Validation.succeed x).toValue
  | failure => one fun x => return (← Validation.fail x).toValue
  | parseInt => one fun x => return (← parsed x).toValue
  | check predicate error => one fun x => do
      if (← invoke call predicate [x]).isTruthy then return (← Validation.succeed x).toValue
      else return (← Validation.fail error).toValue
  | stop message => throw (.raised message)
  | stopIf predicate message => one fun x => do
      if (← invoke call predicate [x]).isTruthy then throw (.raised message) else return x
  | compose functions => one fun x => functions.foldlM (fun y f => invoke call f [y]) x
  | method name values => one fun x => do (← x.method call name) ⟨values, []⟩
  | curry missing inner collected => one fun x =>
      if missing ≤ 1 then invoke call inner (collected ++ [x])
      else Run.define (curry (missing - 1) inner (collected ++ [x]))
  | trace tag inner => do
      Run.noteCall tag arguments
      invoke call inner arguments

/-- Calls are nested up to this depth. -/
def maxDepth : Nat := 1000

/-- The meaning of all functions, with calls nested up to a bound. -/
def meaning : Nat → Calls
  | 0, _, _ => throw .tooManyCalls
  | bound + 1, f, arguments => do
      match (← get).callbacks[f.id]? with
      | some callback => callback.apply (meaning bound) arguments
      | none => throw (.undefined f.name)

def calls : Calls := meaning maxDepth

end Accrual.Callback
