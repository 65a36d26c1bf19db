import Accrual.Value

/-!
# Equality of values

Values are equal by structure. A truth value equals the number it counts as and a fault code its
text, a dictionary does not depend on the order of its entries, and functions, stages and exceptions
are equal only to themselves.
-/

namespace Accrual.Value

mutual

def beq : Value → Value → Bool
  | absent, absent => true
  | bool a, bool b => a == b
  | bool a, int b => (if a then 1 else 0) == b
  | int a, bool b => a == if b then 1 else 0
  | int a, int b => a == b
  | text a, text b => a == b
  | text a, code b => a == b.text
  | code a, text b => a.text == b
  | code a, code b => a == b
  | list as, list bs => beqList as bs
  | tuple as, tuple bs => beqList as bs
  | dictionary as, dictionary bs => as.length == bs.length && isPart as bs
  | success a, success b => beq a b
  | failure a, failure b => beq a b
  | ok a, ok b => beq a b
  | err a, err b => beq a b
  | violation a, violation b => a == b
  | stage a _, stage b _ => a == b
  | function a, function b => a.id == b.id
  | logger as r t, logger bs r' t' =>
      as.length == bs.length && isPart as bs && beq r r' && beq t t'
  | consoleRenderer a c s, consoleRenderer a' c' s' => beq a a' && beq c c' && s == s'
  | jsonRenderer a, jsonRenderer b => beq a b
  | silentRenderer, silentRenderer => true
  | entry t l e as, entry t' l' e' bs =>
      t == t' && l == l' && beq e e' && as.length == bs.length && isPart as bs
  | fault a, fault b => a == b
  | exception a _, exception b _ => a == b
  | settings a, settings b => a == b
  | loggingSettings a, loggingSettings b => a == b
  | reportSettings a, reportSettings b => a == b
  | stream a, stream b => a == b
  | _, _ => false
termination_by structural v => v

def beqList : List Value → List Value → Bool
  | [], [] => true
  | a :: as, b :: bs => beq a b && beqList as bs
  | _, _ => false
termination_by structural vs => vs

/-- Every entry of the first dictionary is one of the second. -/
def isPart : List (Value × Value) → List (Value × Value) → Bool
  | [], _ => true
  | (key, value) :: rest, bs =>
      bs.any (fun entry => beq key entry.1 && beq value entry.2) && isPart rest bs
termination_by structural entries => entries

end

instance : BEq Value := ⟨beq⟩

end Accrual.Value
