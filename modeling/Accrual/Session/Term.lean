import Accrual.Keyed
import Accrual.Record
import Accrual.Validation
import Accrual.Value.Hash

/-!
# Terms

A term writes down how a value is built: from constants, from constructors, which may refuse their
arguments, from callbacks, and from the registers of a session.
-/

namespace Accrual

inductive Term
  | absent
  | bool (b : Bool)
  | int (n : Int)
  | text (s : String)
  | list (items : List Term)
  | tuple (items : List Term)
  | dictionary (entries : List (Term × Term))
  | success (value : Term)
  | failure (error : Term)
  | ok (value : Term)
  | err (error : Term)
  | violation (field message code : Term)
  | callback (callback : Callback Term)
  /-- A renderer whose output is the buffer. -/
  | consoleRenderer (colors : Term) (showTimestamp : Bool)
  | jsonRenderer
  | silentRenderer
  | logger (context : List (Term × Term)) (renderer threshold : Term)
  | entry (time : Seconds) (level : String) (event : Term) (context : List (Term × Term))
  | stream (stream : Stream)
  | register (name : String)

abbrev Registers := List (String × Value)

namespace Term

/-- Without a choice, there are no colours: no stream is a terminal. -/
def colorsOf (choice : Value) : Value := if choice.isAbsent then .bool false else choice

variable (registers : Registers)

mutual

/-- Builds the value of a term, from left to right. -/
def eval : Term → Run Value
  | absent => return .absent
  | bool b => return .bool b
  | int n => return .int n
  | text s => return .text s
  | list items => return .list (← evalAll items)
  | tuple items => return .tuple (← evalAll items)
  | dictionary entries => return .dictionary (← evalEntries [] entries)
  | success v => return (← Validation.succeed (← eval v)).toValue
  | failure v => return (← Validation.fail (← eval v)).toValue
  | ok v => return .ok (← eval v)
  | err v => return .err (← eval v)
  | violation field message code => do
      let field ← eval field
      let message ← eval message
      let code ← eval code
      return .violation (← Run.ofExcept (Accrual.violation field message code))
  | callback c => do Run.define (← evalCallback c)
  | consoleRenderer colors showTimestamp => do
      return .consoleRenderer (.stream .buffer) (colorsOf (← eval colors)) showTimestamp
  | jsonRenderer => return .jsonRenderer (.stream .buffer)
  | silentRenderer => return .silentRenderer
  | logger context r threshold => do
      let context ← evalEntries [] context
      let r ← eval r
      return .logger context r (← eval threshold)
  | entry time level event context => do
      let event ← eval event
      return .entry time level event (← evalEntries [] context)
  | stream s => return .stream s
  | register name =>
      match registers.lookup name with
      | some v => return v
      | none => throw (.unbound name)
termination_by structural term => term

def evalAll : List Term → Run (List Value)
  | [] => return []
  | term :: rest => do
      let v ← eval term
      return v :: (← evalAll rest)
termination_by structural terms => terms

/-- Adds entries one by one; a key has to be hashable. -/
def evalEntries : Entries → List (Term × Term) → Run Entries
  | entries, [] => return entries
  | entries, (key, content) :: rest => do
      let key ← eval key
      let content ← eval content
      match key.unhashable? with
      | some typeName => throw (.unhashable typeName)
      | none => evalEntries (Keyed.insert key content entries) rest
termination_by structural _ terms => terms

def evalCallback : Callback Term → Run (Callback Value)
  | .identity => return .identity
  | .constant v => return .constant (← eval v)
  | .tuple => return .tuple
  | .list => return .list
  | .literal => return .literal
  | .plain => return .plain
  | .join separator => return .join separator
  | .enclose before after => return .enclose before after
  | .add n => return .add n
  | .multiply n => return .multiply n
  | .sum => return .sum
  | .greaterThan n => return .greaterThan n
  | .isEven => return .isEven
  | .equals v => return .equals (← eval v)
  | .length => return .length
  | .nonblank => return .nonblank
  | .success => return .success
  | .failure => return .failure
  | .parseInt => return .parseInt
  | .check predicate error => do
      let predicate ← eval predicate
      return .check predicate (← eval error)
  | .stop message => return .stop message
  | .stopIf predicate message => return .stopIf (← eval predicate) message
  | .compose functions => return .compose (← evalAll functions)
  | .method name arguments => return .method name (← evalAll arguments)
  | .curry missing inner collected => do
      let inner ← eval inner
      return .curry missing inner (← evalAll collected)
  | .trace tag inner => return .trace tag (← eval inner)
termination_by structural callback => callback

end

end Term

end Accrual
