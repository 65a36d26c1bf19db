import Accrual.Callback
import Accrual.Value

/-!
# Runs

An operation may stop with an error, and it may read and change the store: the surroundings it runs
in, the settings loaded so far, the logging in force, and the record of what was written and called.
A change made before an error stays.

Functions are tokens whose meaning is a parameter of every operation that calls one. What is proved
of such an operation holds for all callbacks, whatever they return or change and however they fail.
-/

namespace Accrual

/-- What a program finds around it: its variables, the text of the file `.env`, and the time
since the start of 1970. -/
structure Surroundings where
  environment : List (String × String) := []
  dotenv : String := ""
  clock : Seconds := .zero

structure Store where
  surroundings : Surroundings := {}
  /-- The settings loaded last, unless they were dropped since. -/
  cached : Option Settings := none
  renderer : Option Renderer := none
  /-- The threshold that new loggers start with. -/
  threshold : Option Value := none
  /-- The texts written so far, each with its stream. -/
  written : List (Stream × String) := []
  /-- The calls that tracing callbacks took down. -/
  calls : List (String × List Value) := []
  /-- The callbacks defined so far; the number of a function is its place among them. -/
  callbacks : List (Callback Value) := []
  /-- The number of the next stage or exception. -/
  nextId : Nat := 0

abbrev Run := EStateM Error Store

/-- The meaning of all functions. -/
abbrev Calls := FunctionRef → List Value → Run Value

def invoke (call : Calls) (f : Value) (arguments : List Value) : Run Value :=
  match f with
  | .function f => call f arguments
  | other => throw (.notCallable other.typeName)

def Error.nullArgument (name operation : String) : Error :=
  .misuse ⟨.nullArgument, name ++ " is None", operation⟩

def require (argument : Value) (name operation : String) : Run Unit :=
  if argument.isAbsent then throw (.nullArgument name operation) else pure ()

namespace Run

/-- Goes on with the result of a pure step, or stops with its error. -/
def ofExcept {α : Type} : Except Error α → Run α
  | .ok a => pure a
  | .error error => throw error

def write (stream : Stream) (text : String) : Run Unit :=
  modify fun store => { store with written := store.written ++ [(stream, text)] }

def noteCall (tag : String) (arguments : List Value) : Run Unit :=
  modify fun store => { store with calls := store.calls ++ [(tag, arguments)] }

def freshId : Run Nat :=
  modifyGet fun store => (store.nextId, { store with nextId := store.nextId + 1 })

def define (callback : Callback Value) : Run Value :=
  modifyGet fun store =>
    (.function ⟨store.callbacks.length, callback.name, callback.isStarted⟩,
      { store with callbacks := store.callbacks ++ [callback] })

end Run

end Accrual
