import Accrual.Either
import Accrual.Proofs.Stage

/-!
# Operations that wrap a payload

The constructors, the conversion from an either, the swap, the maps and the
applications all put a payload into a new validation: a value they are given, or
what a function returns.  `Wrapping` lists them, and `Wrapping.run_of_payload`
says for all of them at once what becomes of the payload: an absent one is
refused by the constructor of the channel it was meant for, any other one is
wrapped.
-/

namespace Accrual

open Value

/-- The operations that wrap a payload, with what they are given. -/
inductive Wrapping
  | success (value : Value)
  | failure (error : Value)
  | convert (e : Either)
  | swap (v : Validation)
  | map (f value : Value)
  | mapError (f error : Value)
  | bimap (errorFn valueFn : Value) (v : Validation)
  | ap (f value : Value)
  | apply (f value : Value)
  /-- A stage of successes that is applied to a function. -/
  | collapse (id : Nat) (f : FunctionRef) (values : List Value)

namespace Wrapping

def isError : Wrapping → Bool
  | failure _ | convert (.err _) | swap (.success _) | mapError _ _
  | bimap _ _ (.failure _) => true
  | _ => false

/-- The functions are present, and a stage holds something. -/
def Fits : Wrapping → Prop
  | map f _ | mapError f _ | ap f _ | apply f _ => f.isAbsent = false
  | bimap f g _ => f.isAbsent = false ∧ g.isAbsent = false
  | collapse _ _ values => values ≠ []
  | _ => True

variable (call : Calls)

def payload : Wrapping → Run Value
  | success v | failure v | convert (.ok v) | convert (.err v) | swap (.success v)
  | swap (.failure v) => return v
  | map f v | mapError f v | ap f v | apply f v => invoke call f [v]
  | bimap _ g (.success v) => invoke call g [v]
  | bimap f _ (.failure v) => invoke call f [v]
  | collapse _ f values => call f values

def run : Wrapping → Run Value
  | success v => return (← Validation.succeed v).toValue
  | failure v => return (← Validation.fail v).toValue
  | convert e => return (← Validation.ofEither e).toValue
  | swap v => return (← v.swap).toValue
  | map f v => return (← (Validation.success v).map call f).toValue
  | mapError f v => return (← (Validation.failure v).mapError call f).toValue
  | bimap f g v => return (← v.bimap call f g).toValue
  | ap f v => (Validation.success v).ap call (.success f)
  | apply f v => (Validation.success v).apply call f
  | collapse id f values =>
      return (← Stage.apply call (.function f) ⟨id, values.map .success⟩).toValue

def wrap (w : Wrapping) (p : Value) : Run Value := do
  if w.isError then return (← Validation.fail p).toValue
  else return (← Validation.succeed p).toValue

def refusal (w : Wrapping) : Error :=
  if w.isError then .nullArgument "error" "failure" else .nullArgument "value" "success"

theorem kind_refusal (w : Wrapping) : w.refusal.kind = "NullArgumentError" := by
  unfold refusal
  split <;> rfl

theorem wrap_eq (w : Wrapping) (p : Value) :
    w.wrap p = if p.isAbsent then throw w.refusal
      else pure (if w.isError then .failure p else .success p) := by
  cases he : w.isError <;> cases hp : p.isAbsent <;>
    simp [wrap, refusal, he, hp, Validation.fail, Validation.succeed, require, Validation.toValue]

/-- **An operation is its payload, wrapped.** -/
theorem run_eq {w : Wrapping} (hw : w.Fits) :
    w.run call = (do w.wrap (← w.payload call)) := by
  cases w with
  | success v => rfl
  | failure v => rfl
  | convert e => cases e <;> rfl
  | swap v => cases v <;> rfl
  | map f v => simp [run, payload, wrap, isError, Validation.map, require_of_present hw]
  | mapError f v => simp [run, payload, wrap, isError, Validation.mapError, require_of_present hw]
  | bimap f g v =>
      cases v <;>
        simp [run, payload, wrap, isError, Validation.bimap, require_of_present hw.1,
          require_of_present hw.2]
  | ap f v => rfl
  | apply f v =>
      rw [run, Validation.apply, require_of_present hw]
      rfl
  | collapse id f values =>
      have hitems : values.map Value.success = (values.map Validation.success).map
          Validation.toValue := by simp [Validation.toValue]
      rw [run, Stage.apply_successes call hw hitems]
      simp [payload, wrap, isError, Validation.succeed]

/-- **No absent payload is wrapped**: the operation is refused, and nothing changes after the
payload was come to. Any other payload is wrapped as it is. -/
theorem run_of_payload {w : Wrapping} (hw : w.Fits) {p : Value} {s t : Store}
    (h : w.payload call s = .ok p t) :
    w.run call s =
      if p.isAbsent then .error w.refusal t
      else .ok (if w.isError then .failure p else .success p) t := by
  rw [run_eq call hw]
  change EStateM.bind (w.payload call) w.wrap s = _
  unfold EStateM.bind
  rw [h]
  change w.wrap p t = _
  rw [wrap_eq]
  cases p.isAbsent <;> rfl

end Wrapping

end Accrual
