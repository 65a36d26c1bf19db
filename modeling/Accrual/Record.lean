import Accrual.Run
import Accrual.Value.Text

/-!
# Records from named fields

Violations and faults are built from named fields of any value. All problems are found: first those
of the declared fields in their order, then, where no other fields are allowed, the fields that are
not declared.
-/

namespace Accrual

def Problem.ofExcept {α : Type} : Except Problem α → List Problem
  | .ok _ => []
  | .error problem => [problem]

namespace Record

abbrev Fields := List (String × Value)

def requiredText (fields : Fields) (name : String) : Except Problem String :=
  match fields.lookup name with
  | none => .error ⟨.missing, [name]⟩
  | some v => v.text?.elim (.error ⟨.notText, [name]⟩) .ok

end Record

open Record

namespace Violation

def readCode (fields : Record.Fields) : Except Problem (Option String) :=
  match fields.lookup "code" with
  | none | some .absent => .ok none
  | some v => v.text?.elim (.error ⟨.notText, ["code"]⟩) fun s => .ok (some (Text.stripped s))

def ofFields (fields : Record.Fields) : Except Error Violation :=
  let field := requiredText fields "field" >>= readText "field"
  let message := requiredText fields "message" >>= readText "message"
  let code := readCode fields
  let other := fields.filter fun f => !(["field", "message", "code"].contains f.1)
  match field, message, code, other with
  | .ok field, .ok message, .ok code, [] => .ok ⟨field, message, code⟩
  | _, _, _, _ => .error (.invalid "Violation"
      (Problem.ofExcept field ++ Problem.ofExcept message ++ Problem.ofExcept code ++
        other.map fun f => ⟨.notDeclared, [f.1]⟩))

end Violation

def violation (field message code : Value) : Except Error Violation :=
  Violation.ofFields [("field", field), ("message", message), ("code", code)]

namespace Fault

def readCode (fields : Record.Fields) : Except Problem Fault.Code :=
  let refused : Except Problem Fault.Code :=
    .error ⟨.notMember (Fault.Code.all.map Fault.Code.text), ["code"]⟩
  match fields.lookup "code" with
  | none => .error ⟨.missing, ["code"]⟩
  | some v => (v.text?.bind Fault.Code.ofText?).elim refused .ok

def readOperation (fields : Record.Fields) : Except Problem String :=
  match fields.lookup "operation" with
  | none => .ok ""
  | some v => v.text?.elim (.error ⟨.notText, ["operation"]⟩) .ok

/-- Fields that are not declared are ignored. -/
def ofFields (fields : Record.Fields) : Except Error Fault :=
  let code := readCode fields
  let message := requiredText fields "message"
  let operation := readOperation fields
  match code, message, operation with
  | .ok code, .ok message, .ok operation => .ok ⟨code, message, operation⟩
  | _, _, _ => .error (.invalid "Fault"
      (Problem.ofExcept code ++ Problem.ofExcept message ++ Problem.ofExcept operation))

def create (code : Fault.Code) (message operation : Value) : Except Error Fault :=
  ofFields [("code", .text code.text), ("message", message), ("operation", operation)]

end Fault

/-- Refuses an absent argument that goes by any name, in an operation of any name. -/
def requireNamed (argument name operation : Value) : Except Error Unit :=
  if argument.isAbsent then do
    let message := (← name.written Value.toPlain) ++ " is None"
    throw (.misuse (← Fault.create .nullArgument (.text message) operation))
  else .ok ()

end Accrual
