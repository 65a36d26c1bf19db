import Accrual.Run
import Accrual.Value.Equality

/-!
# Arguments

The arguments of a call are given by position and by name. They are brought into the order of the
parameters, or are sorted into parameters and further fields where a function takes any names.
-/

namespace Accrual

structure Arguments where
  positional : List Value
  named : List (String × Value)

structure Parameter where
  name : String
  fallback : Option Value := none
  byNameOnly : Bool := false

namespace Parameter

def required (name : String) : Parameter := ⟨name, none, false⟩

def optional (name : String) (fallback : Value) : Parameter := ⟨name, some fallback, false⟩

/-- An optional parameter that cannot be given by position. -/
def option (name : String) (fallback : Value) : Parameter := ⟨name, some fallback, true⟩

end Parameter

namespace Arguments

/-- The arguments of a function that takes any number of them, but none by name. -/
def row (function : String) (arguments : Arguments) : Except Error (List Value) :=
  if arguments.named.isEmpty then .ok arguments.positional else .error (.badCall function)

def byName? (arguments : Arguments) (name : String) : Option Value := arguments.named.lookup name

def assign (function : String) (arguments : Arguments) :
    List Parameter → List Value → Except Error (List Value)
  | [], [] => .ok []
  | [], _ :: _ => .error (.badCall function)
  | p :: ps, vs =>
      match p.byNameOnly, vs with
      | false, v :: vs =>
          if (arguments.byName? p.name).isSome then .error (.givenTwice function p.name)
          else (v :: ·) <$> assign function arguments ps vs
      | _, vs =>
          match (arguments.byName? p.name).or p.fallback with
          | some v => (v :: ·) <$> assign function arguments ps vs
          | none => .error (.badCall function)

def take (function : String) (parameters : List Parameter) (arguments : Arguments) :
    Except Error (List Value) :=
  if arguments.named.all fun argument => parameters.any fun p => p.name == argument.1 then
    assign function arguments parameters arguments.positional
  else .error (.badCall function)

/-- The values of the parameters and the further named fields. The receiver, if the function has
one, cannot be given by name. -/
def split (function : String) (receiver parameters : List String) (arguments : Arguments) :
    Except Error (List Value × Entries) :=
  let filled := receiver ++ parameters.take arguments.positional.length
  match arguments.named.find? fun argument => filled.contains argument.1 with
  | some argument => .error (.givenTwice function argument.1)
  | none =>
      if parameters.length < arguments.positional.length then .error (.badCall function)
      else
        let left := (parameters.drop arguments.positional.length).map arguments.byName?
        if left.all Option.isSome then
          .ok (arguments.positional ++ left.filterMap id,
            Entries.ofTexts
              (arguments.named.filter fun argument => !parameters.contains argument.1))
        else .error (.badCall function)

end Arguments

end Accrual
