import Accrual.Value.Equality

/-!
# Hashing

Lists, dictionaries, settings and the records of logging cannot be hashed, nor can anything built on
them. The hash of the other values respects equality, so that a set may compare hashes first.
-/

namespace Accrual.Value

mutual

/-- The type of the first value met that cannot be hashed, going from the inside out. -/
def unhashable? : Value → Option String
  | list _ => some "list"
  | dictionary _ => some "dict"
  | tuple items => firstUnhashable? items
  | success v | failure v | ok v | err v => unhashable? v
  | logger _ _ _ => some "BoundLogger"
  | consoleRenderer _ _ _ => some "ConsoleRenderer"
  | jsonRenderer _ => some "JsonRenderer"
  | silentRenderer => some "NoOpRenderer"
  | entry _ _ _ _ => some "LogEntry"
  | settings _ => some "ValidcaseSettings"
  | loggingSettings _ => some "LoggingSettings"
  | reportSettings _ => some "ReportSettings"
  | _ => none
termination_by structural v => v

def firstUnhashable? : List Value → Option String
  | [] => none
  | v :: rest =>
      match unhashable? v with
      | some typeName => some typeName
      | none => firstUnhashable? rest
termination_by structural vs => vs

end

mutual

/-- The hash of a value that can be hashed; equal values agree, numbers and truth values among them.
-/
def hashCode : Value → UInt64
  | bool b => hash (if b then 1 else 0 : Int)
  | int n => hash n
  | text s => hash s
  | code c => hash c.text
  | tuple items => mixHash 2 (hashCodes items)
  | success v => mixHash 3 (hashCode v)
  | failure v => mixHash 5 (hashCode v)
  | ok v => mixHash 7 (hashCode v)
  | err v => mixHash 11 (hashCode v)
  | violation v => mixHash (hash v.field) (mixHash (hash v.message) (hash v.code))
  | stage id _ => mixHash 13 (hash id)
  | function f => mixHash 17 (hash f.id)
  | fault f => mixHash (hash f.code.text) (mixHash (hash f.message) (hash f.operation))
  | exception id _ => mixHash 19 (hash id)
  | _ => 23
termination_by structural v => v

def hashCodes : List Value → UInt64
  | [] => 29
  | v :: rest => mixHash (hashCode v) (hashCodes rest)
termination_by structural vs => vs

end

/-- Two values are the same element of a set. -/
def sameElement (a b : Value) : Bool := a.hashCode == b.hashCode && a == b

/-- The elements of the set of the given values, each at its first place. -/
def distinct (values : List Value) : List Value :=
  values.foldl (fun found v => if found.any (sameElement v) then found else found ++ [v]) []

end Accrual.Value
