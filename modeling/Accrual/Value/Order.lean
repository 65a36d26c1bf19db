import Accrual.Value.Equality

/-!
# Order of values

Numbers, texts, and lists or tuples of such values can be compared; texts by code point, sequences
by their first difference. A comparison of any other two values is an error.
-/

namespace Accrual.Value

mutual

def lt : Value → Value → Except Error Bool
  | int a, int b => .ok (a < b)
  | int a, bool b => .ok (a < if b then 1 else 0)
  | bool a, int b => .ok ((if a then 1 else 0) < b)
  | bool a, bool b => .ok (!a && b)
  | text a, text b => .ok (a < b)
  | text a, code b => .ok (a < b.text)
  | code a, text b => .ok (a.text < b)
  | code a, code b => .ok (a.text < b.text)
  | tuple as, tuple bs => ltList as bs
  | list as, list bs => ltList as bs
  | a, b => .error (.notOrdered a.typeName b.typeName)
termination_by structural v => v

/-- Compares at the first difference; a proper beginning comes first. -/
def ltList : List Value → List Value → Except Error Bool
  | _, [] => .ok false
  | [], _ :: _ => .ok true
  | a :: as, b :: bs => if beq a b then ltList as bs else lt a b
termination_by structural vs => vs

end

end Accrual.Value
