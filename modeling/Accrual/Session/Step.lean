import Accrual.Callback.Meaning
import Accrual.Interface.Operation
import Accrual.Session.Term

/-!
# Sessions

A session is a row of steps over one store. A step calls an operation, calls a method of a value or
reads a field of it; its result can be kept in a register for later steps. A step that fails leaves
its register as it was, and the session goes on.
-/

namespace Accrual

inductive Target
  | operation (name : String)
  | method (on : Term) (name : String)
  | field (on : Term) (name : String)

structure Step where
  target : Target
  positional : List Term := []
  named : List (String × Term) := []
  register : Option String := none

/-- What a step comes to: its result, and what was called and written during the step. -/
structure Answer where
  result : Except Error Value
  calls : List (String × List Value)
  written : List (Stream × String)

structure Session where
  registers : Registers := []
  store : Store := {}

namespace Step

variable (call : Calls) (registers : Registers)

def evalNamed : List (String × Term) → Run (List (String × Value))
  | [] => return []
  | (name, term) :: rest => do
      let v ← term.eval registers
      return (name, v) :: (← evalNamed rest)

def arguments (step : Step) : Run Arguments := do
  let positional ← Term.evalAll registers step.positional
  return ⟨positional, ← evalNamed registers step.named⟩

/-- Runs a step. What is called is found before the arguments are built. -/
def run (step : Step) : Run Value :=
  match step.target with
  | .operation name =>
      match Operation.ofName? name with
      | some operation => do operation.run call (← step.arguments registers)
      | none => throw (.undefined name)
  | .method on name => do
      let bound ← (← on.eval registers).method call name
      bound (← step.arguments registers)
  | .field on name => do
      Run.ofExcept ((← on.eval registers).field name)

end Step

namespace Session

def start (surroundings : Surroundings) : Session := ⟨[], { surroundings }⟩

def keep (registers : Registers) (name : Option String) (v : Value) : Registers :=
  match name with
  | some name => (name, v) :: registers
  | none => registers

def step (call : Calls) (session : Session) (step : Step) : Answer × Session :=
  match step.run call session.registers { session.store with calls := [], written := [] } with
  | .ok v store => (⟨.ok v, store.calls, store.written⟩,
      ⟨keep session.registers step.register v, store⟩)
  | .error error store => (⟨.error error, store.calls, store.written⟩, { session with store })

def run (call : Calls) (session : Session) : List Step → List Answer
  | [] => []
  | s :: rest => (session.step call s).1 :: run call (session.step call s).2 rest

def after (call : Calls) (session : Session) (steps : List Step) : Session :=
  steps.foldl (fun session step => (session.step call step).2) session

end Session

/-- The answers of a session whose functions are callbacks. -/
def runSession (surroundings : Surroundings) (steps : List Step) : List Answer :=
  Session.run Callback.calls (.start surroundings) steps

end Accrual
