/-!
# Faults

A fault describes a misuse of the library: an absent argument, an access to the wrong channel, a
mapper with an unexpected result, a bad number of validations. Errors of the validated domain are no
faults; they are plain data inside a failure.
-/

namespace Accrual

inductive Fault.Code
  | nullArgument
  | emptyValue
  | illegalState
  | unexpectedResult
  | arityOutOfRange
  deriving DecidableEq

namespace Fault.Code

def all : List Fault.Code :=
  [nullArgument, emptyValue, illegalState, unexpectedResult, arityOutOfRange]

def text : Fault.Code → String
  | nullArgument => "NULL_ARGUMENT"
  | emptyValue => "EMPTY_VALUE"
  | illegalState => "ILLEGAL_STATE"
  | unexpectedResult => "UNEXPECTED_RESULT"
  | arityOutOfRange => "ARITY_OUT_OF_RANGE"

def ofText? (s : String) : Option Fault.Code := all.find? (fun code => code.text == s)

/-- The class of the exception that carries a fault with this code. -/
def errorName : Fault.Code → String
  | nullArgument => "NullArgumentError"
  | emptyValue => "EmptyValueError"
  | illegalState => "IllegalStateError"
  | unexpectedResult => "UnexpectedResultError"
  | arityOutOfRange => "ArityError"

def ofErrorName? (s : String) : Option Fault.Code := all.find? (fun code => code.errorName == s)

/-- The general error class that each exception also belongs to. -/
def family : Fault.Code → String
  | nullArgument => "ValueError"
  | emptyValue => "LookupError"
  | illegalState => "RuntimeError"
  | unexpectedResult => "TypeError"
  | arityOutOfRange => "ValueError"

/-- All classes above the exception of a code, in alphabetical order. -/
def ancestors (code : Fault.Code) : List String :=
  ["BaseException", "Exception"] ++
    if code.family < "ValidcaseError" then [code.family, "ValidcaseError"]
    else ["ValidcaseError", code.family]

end Fault.Code

structure Fault where
  code : Fault.Code
  message : String
  operation : String
  deriving DecidableEq

/-- The fault in one line: its code, the operation if one is named, the message. -/
def Fault.render (fault : Fault) : String :=
  let place := if fault.operation = "" then " " else " " ++ fault.operation ++ ": "
  "[" ++ fault.code.text ++ "]" ++ place ++ fault.message

end Accrual
