import Accrual.Interface.Method
import Accrual.Proofs.Run

/-!
# Methods called by name

A caller knows a method by its name and gives it arguments by position or by
name (`Value.send`).  Once these are brought into the order of the parameters,
what is left is the body of the method (`Method.withOne_of_take`,
`Method.withTwo_of_take`).
-/

namespace Accrual

def Value.send (call : Calls) (name : String) (arguments : Arguments) (v : Value) : Run Value :=
  v.method call name >>= fun bound => bound arguments

namespace Arguments

theorem length_of_assign {function : String} {arguments : Arguments} {ps : List Parameter}
    {vs ws : List Value} (h : arguments.assign function ps vs = .ok ws) :
    ws.length = ps.length := by
  induction ps generalizing vs ws with
  | nil =>
      cases vs with
      | nil =>
          cases h
          rfl
      | cons v rest => cases h
  | cons p rest ih =>
      have hcons : ∀ (w : Value) (others : List Value),
          (w :: ·) <$> arguments.assign function rest others = .ok ws →
            ws.length = (p :: rest).length := by
        intro w others hw
        cases hrest : arguments.assign function rest others with
        | error error =>
            rw [hrest] at hw
            cases hw
        | ok us =>
            rw [hrest] at hw
            cases hw
            rw [List.length_cons, List.length_cons, ih hrest]
      unfold assign at h
      split at h
      · split at h
        · cases h
        · exact hcons _ _ h
      · split at h
        · exact hcons _ _ h
        · cases h

/-- There is one value for each parameter. -/
theorem length_of_take {function : String} {arguments : Arguments} {ps : List Parameter}
    {ws : List Value} (h : arguments.take function ps = .ok ws) : ws.length = ps.length := by
  unfold take at h
  split at h
  · exact length_of_assign h
  · cases h

end Arguments

namespace Method

def label (method : Method) : String :=
  ((names.find? fun row => row.2 == method).map Prod.fst).getD ""

theorem ofName?_label (method : Method) : ofName? method.label = some method := by
  cases method <;> rfl

variable {call : Calls}

theorem send_of_find {v : Value} {method : Method} {bound : Bound}
    (h : find? call v method = some bound) (arguments : Arguments) :
    v.send call method.label arguments = bound arguments := by
  have hfind : (ofName? method.label).bind (find? call v) = some bound := by
    rw [ofName?_label]
    exact h
  simp only [Value.send, Value.method, hfind, pure_bind]

theorem withOne_of_take {name parameter : String} {arguments : Arguments} {v : Value}
    (h : arguments.take name [.required parameter] = .ok [v]) (body : Value → Run Value) :
    withOne name parameter body arguments = body v := by
  simp only [withOne, taking, List.map_cons, List.map_nil, h]
  rfl

theorem withTwo_of_take {name first second : String} {arguments : Arguments} {v w : Value}
    (h : arguments.take name [.required first, .required second] = .ok [v, w])
    (body : Value → Value → Run Value) :
    withTwo name first second body arguments = body v w := by
  simp only [withTwo, taking, List.map_cons, List.map_nil, h]
  rfl

end Method

end Accrual
