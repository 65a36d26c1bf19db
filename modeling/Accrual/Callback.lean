/-!
# Callbacks

The functions that callers hand to the library, written in a small language of callbacks. The things
that a callback holds, other functions among them, are of any type: terms while it is only written
down, values once it is defined. The functions held by a defined callback were defined before it.
-/

namespace Accrual

inductive Callback (α : Type)
  | identity
  | constant (value : α)
  | tuple
  | list
  | literal
  | plain
  | join (separator : String)
  /-- Puts the text of its argument between two fixed texts. -/
  | enclose (before after : String)
  | add (n : Int)
  | multiply (n : Int)
  | sum
  | greaterThan (n : Int)
  | isEven
  | equals (value : α)
  | length
  /-- Whether its argument is a text that holds more than plain spaces. -/
  | nonblank
  | success
  | failure
  | parseInt
  /-- A success if the predicate holds, else a failure with the given error. -/
  | check (predicate error : α)
  | stop (message : String)
  | stopIf (predicate : α) (message : String)
  /-- Applies the functions from first to last. -/
  | compose (functions : List α)
  /-- Calls the named method of its argument. -/
  | method (name : String) (arguments : List α)
  /-- Collects single arguments, one a call, until the inner function has as many as it needs. -/
  | curry (missing : Nat) (inner : α) (collected : List α)
  /-- Takes down its arguments and passes them on to the inner function. -/
  | trace (tag : String) (inner : α)

namespace Callback

variable {α : Type}

def name : Callback α → String
  | identity => "id"
  | constant _ => "const"
  | tuple => "tuple"
  | list => "list"
  | literal => "repr"
  | plain => "str"
  | join _ => "join"
  | enclose _ _ => "format"
  | add _ => "add"
  | multiply _ => "mul"
  | sum => "sum"
  | greaterThan _ => "gt"
  | isEven => "is_even"
  | equals _ => "eq"
  | length => "len"
  | nonblank => "nonblank"
  | success => "success"
  | failure => "failure"
  | parseInt => "parse_int"
  | check _ _ => "check"
  | stop _ => "raise"
  | stopIf _ _ => "raise_if"
  | compose _ => "compose"
  | method _ _ => "call"
  | curry _ _ _ => "curry"
  | trace _ _ => "trace"

/-- Whether some arguments are collected already. -/
def isStarted : Callback α → Bool
  | curry _ _ collected => !collected.isEmpty
  | _ => false

end Callback

end Accrual
