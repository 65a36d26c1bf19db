import Accrual.Proofs.Access.Basic
import Accrual.Proofs.Chaining
import Accrual.Proofs.Sending

/-!
# Which function an operation calls

Eleven operations on a validation take functions (`Method.calling`).  Each of
the functions is for the payload of one channel (`Method.callbacks`).  If one of
them is absent, the operation is refused before anything is called
(`send_of_absent`).  Otherwise it is the one call of the function for the
channel that the validation has, on its payload, and a pure step on the result;
without a function for that channel it calls nothing (`send_functions`).  What
an operation makes of a result is given by `Method.outcome`, and what it comes
to without a call by `Method.uncalled`.
-/

namespace Accrual

inductive Channel
  | value
  | error
  deriving DecidableEq

namespace Validation

def channel : Validation → Channel
  | success _ => .value
  | failure _ => .error

def payload : Validation → Value
  | success value => value
  | failure error => error

/-- A new validation of a channel, whose payload must not be absent. -/
def settle : Channel → Value → Except Error Value
  | .value, y => if y.isAbsent then .error (.nullArgument "value" "success") else .ok (.success y)
  | .error, y => if y.isAbsent then .error (.nullArgument "error" "failure") else .ok (.failure y)

theorem succeed_bind_toValue (y : Value) :
    (succeed y >>= fun w => pure w.toValue) = Run.ofExcept (settle .value y) := by
  cases y <;> rfl

theorem fail_bind_toValue (y : Value) :
    (fail y >>= fun w => pure w.toValue) = Run.ofExcept (settle .error y) := by
  cases y <;> rfl

end Validation

namespace Method

/-- The functions that an operation takes, in the order of its parameters: the name of each, and the
channel whose payload it is for. -/
def callbacks : Method → List (String × Channel)
  | getOrCompute | mapError => [("f", .error)]
  | map | flatMap | apply => [("f", .value)]
  | bimap => [("error_fn", .error), ("value_fn", .value)]
  | fold => [("on_failure", .error), ("on_success", .value)]
  | filter | filterNot => [("predicate", .value)]
  | peek | forEach => [("action", .value)]
  | _ => []

def calling : List Method :=
  [getOrCompute, map, mapError, bimap, fold, flatMap, filter, filterNot, peek, forEach, apply]

/-- The operation that the fault about an absent function names: acting on each value is peeking. -/
def checkedAs : Method → String
  | forEach => peek.label
  | method => method.label

def chosen (method : Method) (v : Validation) (gs : List FunctionRef) : Option FunctionRef :=
  ((method.callbacks.zip gs).find? fun given => given.1.2 == v.channel).map Prod.snd

def outcome (method : Method) (v : Validation) (y : Value) : Except Error Value :=
  match method with
  | map | apply => Validation.settle .value y
  | mapError => Validation.settle .error y
  | bimap => Validation.settle v.channel y
  | flatMap => (Validation.ofValue? y).elim (.error (.unexpectedResult y)) fun w => .ok w.toValue
  | filter => .ok (if y.isTruthy then v.toValue else .absent)
  | filterNot => .ok (if y.isTruthy then .absent else v.toValue)
  | peek => .ok v.toValue
  | forEach => .ok .absent
  | _ => .ok y

def uncalled (method : Method) (v : Validation) : Value :=
  match method with
  | getOrCompute => v.payload
  | forEach => .absent
  | apply => .failure (.tuple [v.payload])
  | _ => v.toValue

def parameters (method : Method) : List Parameter :=
  method.callbacks.map fun callback => .required callback.1

variable {call : Calls} {v : Validation} {method : Method} {arguments : Arguments}

theorem send_validation {bound : Bound} (h : ofValidation call v method = some bound)
    (arguments : Arguments) : v.toValue.send call method.label arguments = bound arguments := by
  refine send_of_find ?_ arguments
  rw [← h]
  cases v <;> rfl

section Fitting

variable {fs : List Value} (ha : arguments.take method.label method.parameters = .ok fs)
include ha

/-- An operation with one function is its body on that function. -/
theorem send_one {name : String} {c : Channel} {body : Value → Run Value}
    (hc : method.callbacks = [(name, c)])
    (hbody : ofValidation call v method = some (withOne method.label name body)) :
    ∃ f, fs = [f] ∧ v.toValue.send call method.label arguments = body f := by
  have hlen := Arguments.length_of_take ha
  rw [parameters, hc] at ha hlen
  obtain ⟨f, rfl⟩ := List.length_eq_one_iff.mp hlen
  refine ⟨f, rfl, ?_⟩
  rw [send_validation hbody, withOne_of_take ha]

/-- An operation with two functions is its body on these. -/
theorem send_two {first second : String} {c d : Channel} {body : Value → Value → Run Value}
    (hc : method.callbacks = [(first, c), (second, d)])
    (hbody : ofValidation call v method = some (withTwo method.label first second body)) :
    ∃ f g, fs = [f, g] ∧ v.toValue.send call method.label arguments = body f g := by
  have hlen := Arguments.length_of_take ha
  rw [parameters, hc] at ha hlen
  obtain ⟨f, g, rfl⟩ : ∃ f g, fs = [f, g] := by
    rcases fs with _ | ⟨f, _ | ⟨g, _ | _⟩⟩ <;> simp at hlen ⊢
  refine ⟨f, g, rfl, ?_⟩
  rw [send_validation hbody, withTwo_of_take ha]

end Fitting

/-! ### Absent functions -/

theorem eq_absent_of_isAbsent {f : Value} (h : f.isAbsent = true) : f = .absent := by
  cases f <;> first | rfl | cases h

/-- **An absent function is refused** before anything is called; of several, the first one is. -/
theorem send_of_absent (hm : method ∈ calling) {fs : List Value}
    (ha : arguments.take method.label method.parameters = .ok fs) {i : Nat}
    (hi : fs.findIdx? Value.isAbsent = some i) :
    ∃ c, method.callbacks[i]? = some c ∧ v.toValue.send call method.label arguments =
      throw (.nullArgument c.1 method.checkedAs) := by
  -- what is left to see is that the body of each operation looks at its functions first
  have hone : ∀ {name c} {body : Value → Run Value}, method.callbacks = [(name, c)] →
      ofValidation call v method = some (withOne method.label name body) →
      body .absent = throw (.nullArgument name method.checkedAs) →
      ∃ c, method.callbacks[i]? = some c ∧ v.toValue.send call method.label arguments =
        throw (.nullArgument c.1 method.checkedAs) := by
    intro name c body hc hbody hrefused
    obtain ⟨f, rfl, hsend⟩ := send_one ha hc hbody
    rw [List.findIdx?_cons] at hi
    split at hi
    next hf =>
      cases hi
      rw [hc, hsend, eq_absent_of_isAbsent hf]
      exact ⟨_, rfl, hrefused⟩
    next => cases hi
  have htwo : ∀ {first second c d} {body : Value → Value → Run Value},
      method.callbacks = [(first, c), (second, d)] →
      ofValidation call v method = some (withTwo method.label first second body) →
      (∀ g, body .absent g = throw (.nullArgument first method.checkedAs)) →
      (∀ f, f.isAbsent = false →
        body f .absent = throw (.nullArgument second method.checkedAs)) →
      ∃ c, method.callbacks[i]? = some c ∧ v.toValue.send call method.label arguments =
        throw (.nullArgument c.1 method.checkedAs) := by
    intro first second c d body hc hbody hfirst hsecond
    obtain ⟨f, g, rfl, hsend⟩ := send_two ha hc hbody
    rw [hc, hsend]
    cases hf : f.isAbsent with
    | true =>
        rw [List.findIdx?_cons, hf] at hi
        cases hi
        rw [eq_absent_of_isAbsent hf]
        exact ⟨_, rfl, hfirst g⟩
    | false =>
        cases hg : g.isAbsent with
        | true =>
            simp [List.findIdx?_cons, hf, hg] at hi
            subst hi
            rw [eq_absent_of_isAbsent hg]
            exact ⟨_, rfl, hsecond f hf⟩
        | false => simp [List.findIdx?_cons, hf, hg] at hi
  simp only [calling, List.mem_cons, List.not_mem_nil, or_false] at hm
  rcases hm with rfl | rfl | rfl | rfl | rfl | rfl | rfl | rfl | rfl | rfl | rfl
  case inr.inr.inr.inl =>
    refine htwo rfl rfl (fun _ => rfl) fun f hf => ?_
    simp only [Validation.bimap, require_of_present hf]
    rfl
  case inr.inr.inr.inr.inl =>
    refine htwo rfl rfl (fun _ => rfl) fun f hf => ?_
    simp only [Validation.fold, require_of_present hf]
    rfl
  all_goals exact hone rfl rfl rfl

/-! ### One call -/

def calls (call : Calls) (method : Method) (v : Validation) (g : FunctionRef) : Run Value :=
  call g [v.payload] >>= fun y => Run.ofExcept (method.outcome v y)

theorem chosen_one {name : String} {c : Channel} (hc : method.callbacks = [(name, c)])
    (v : Validation) (g : FunctionRef) :
    method.chosen v [g] = if c = v.channel then some g else none := by
  rw [chosen, hc]
  by_cases h : c = v.channel <;> simp [h]

theorem chosen_two {first second : String}
    (hc : method.callbacks = [(first, .error), (second, .value)]) (v : Validation)
    (f g : FunctionRef) :
    method.chosen v [f, g] = if v.channel = .error then some f else some g := by
  rw [chosen, hc]
  cases v <;> rfl

section Bodies

variable (call) (g : FunctionRef) (value : Value)

theorem body_map : ((Validation.success value).map call (.function g) >>= fun w => pure w.toValue) =
    calls call map (.success value) g := by
  rw [Validation.map_success_eq, bind_assoc]
  exact bind_congr Validation.succeed_bind_toValue

theorem body_mapError (error : Value) :
    ((Validation.failure error).mapError call (.function g) >>= fun w => pure w.toValue) =
      calls call mapError (.failure error) g := by
  rw [Validation.mapError_failure, bind_assoc]
  exact bind_congr Validation.fail_bind_toValue

theorem body_bimap (v : Validation) (f : FunctionRef) :
    (v.bimap call (.function f) (.function g) >>= fun w => pure w.toValue) =
      calls call bimap v (if v.channel = .error then f else g) := by
  cases v with
  | success value =>
      rw [Validation.bimap_success, bind_assoc]
      exact bind_congr Validation.succeed_bind_toValue
  | failure error =>
      rw [Validation.bimap_failure, bind_assoc]
      exact bind_congr Validation.fail_bind_toValue

theorem body_flatMap :
    ((Validation.success value).flatMap call (.function g) >>= fun w => pure w.toValue) =
      calls call flatMap (.success value) g := by
  have hflat : (Validation.success value).flatMap call (.function g) = (call g [value] >>= fun y =>
      (Validation.ofValue? y).elim (throw (.unexpectedResult y)) pure) := by
    funext s
    cases h : call g [value] s with
    | error error t => exact (Run.bind_of_error h _).trans (Run.bind_of_error h _).symm
    | ok y t =>
        refine (Run.bind_of_ok h _).trans (Eq.trans ?_ (Run.bind_of_ok h _).symm)
        cases Validation.ofValue? y <;> rfl
  rw [hflat, bind_assoc]
  refine bind_congr fun y => ?_
  show _ = Run.ofExcept ((Validation.ofValue? y).elim (.error (.unexpectedResult y))
    fun w => .ok w.toValue)
  cases Validation.ofValue? y <;> rfl

theorem body_filter (keeps : Bool → Bool) :
    ((Validation.success value).filterBy (fun x => do
        return keeps (← invoke call (.function g) [x]).isTruthy) >>= fun w => pure (optional w)) =
      (call g [value] >>= fun y =>
        pure (if keeps y.isTruthy then (Validation.success value).toValue else .absent)) := by
  have hfilter : (Validation.success value).filterBy (fun x => do
      return keeps (← invoke call (.function g) [x]).isTruthy) =
      ((call g [value] >>= fun y => pure (keeps y.isTruthy)) >>= fun b =>
        pure (if b then some (Validation.success value) else none)) := rfl
  rw [hfilter, bind_assoc, bind_assoc]
  refine bind_congr fun y => ?_
  rw [pure_bind, pure_bind]
  cases keeps y.isTruthy <;> rfl

theorem body_peek :
    ((Validation.success value).peek call (.function g) >>= fun w => pure w.toValue) =
      calls call peek (.success value) g := by
  have hpeek : (Validation.success value).peek call (.function g) =
      ((fun _ => ()) <$> call g [value] >>= fun _ => pure (.success value)) := rfl
  rw [hpeek, map_eq_pure_bind, bind_assoc, bind_assoc]
  exact bind_congr fun y => rfl

theorem body_forEach :
    ((Validation.success value).forEach call (.function g) >>= fun _ =>
        (pure .absent : Run Value)) = calls call forEach (.success value) g := by
  have heach : (Validation.success value).forEach call (.function g) =
      (fun _ => ()) <$> ((fun _ => ()) <$> call g [value] >>= fun _ =>
        pure (Validation.success value)) := rfl
  rw [heach, map_eq_pure_bind, map_eq_pure_bind, bind_assoc, bind_assoc, bind_assoc]
  exact bind_congr fun y => rfl

theorem body_apply : (Validation.success value).apply call (.function g) =
    calls call apply (.success value) g := by
  have happly : (Validation.success value).apply call (.function g) =
      (call g [value] >>= fun y => Validation.succeed y >>= fun w => pure w.toValue) := rfl
  rw [happly]
  exact bind_congr Validation.succeed_bind_toValue

end Bodies

/-- **An operation is one call**: of the function for the channel that the validation has, on its
payload, or of nothing where there is no such function. -/
theorem send_functions (hm : method ∈ calling) {gs : List FunctionRef}
    (ha : arguments.take method.label method.parameters = .ok (gs.map .function)) :
    v.toValue.send call method.label arguments =
      match method.chosen v gs with
      | some g => calls call method v g
      | none => pure (method.uncalled v) := by
  have hone : ∀ {name c} {body : Value → Run Value}, method.callbacks = [(name, c)] →
      ofValidation call v method = some (withOne method.label name body) →
      (∀ g, body (.function g) =
        if c = v.channel then calls call method v g else pure (method.uncalled v)) →
      v.toValue.send call method.label arguments =
        match method.chosen v gs with
        | some g => calls call method v g
        | none => pure (method.uncalled v) := by
    intro name c body hc hbody hcall
    obtain ⟨f, hf, hsend⟩ := send_one ha hc hbody
    obtain ⟨g, rfl, rfl⟩ := List.map_eq_singleton_iff.mp hf
    rw [hsend, hcall, chosen_one hc]
    by_cases h : c = v.channel
    · rw [if_pos h, if_pos h]
    · rw [if_neg h, if_neg h]
  have htwo : ∀ {first second} {body : Value → Value → Run Value},
      method.callbacks = [(first, .error), (second, .value)] →
      ofValidation call v method = some (withTwo method.label first second body) →
      (∀ f g, body (.function f) (.function g) =
        calls call method v (if v.channel = .error then f else g)) →
      v.toValue.send call method.label arguments =
        match method.chosen v gs with
        | some g => calls call method v g
        | none => pure (method.uncalled v) := by
    intro first second body hc hbody hcall
    obtain ⟨x, y, hxy, hsend⟩ := send_two ha hc hbody
    obtain ⟨f, g, rfl, rfl, rfl⟩ : ∃ f g, gs = [f, g] ∧ x = .function f ∧ y = .function g := by
      rcases gs with _ | ⟨f, _ | ⟨g, _ | _⟩⟩ <;> cases hxy
      exact ⟨f, g, rfl, rfl, rfl⟩
    rw [hsend, hcall, chosen_two hc]
    by_cases h : v.channel = .error
    · rw [if_pos h, if_pos h]
    · rw [if_neg h, if_neg h]
  simp only [calling, List.mem_cons, List.not_mem_nil, or_false] at hm
  rcases hm with rfl | rfl | rfl | rfl | rfl | rfl | rfl | rfl | rfl | rfl | rfl
  · refine hone rfl rfl fun g => ?_
    cases v with
    | success value => rfl
    | failure error => exact (bind_pure _).symm
  · refine hone rfl rfl fun g => ?_
    cases v with
    | success value => exact body_map call g value
    | failure error => rfl
  · refine hone rfl rfl fun g => ?_
    cases v with
    | success value => rfl
    | failure error => exact body_mapError call g error
  · exact htwo rfl rfl fun f g => body_bimap call g v f
  · refine htwo rfl rfl fun f g => ?_
    cases v with
    | success value => exact (bind_pure _).symm
    | failure error => exact (bind_pure _).symm
  · refine hone rfl rfl fun g => ?_
    cases v with
    | success value => exact body_flatMap call g value
    | failure error => rfl
  · refine hone rfl rfl fun g => ?_
    cases v with
    | success value => exact body_filter call g value id
    | failure error => rfl
  · refine hone rfl rfl fun g => ?_
    cases v with
    | success value =>
        refine (body_filter call g value not).trans (bind_congr fun y => ?_)
        cases hy : y.isTruthy <;> simp only [outcome, hy] <;> rfl
    | failure error => rfl
  · refine hone rfl rfl fun g => ?_
    cases v with
    | success value => exact body_peek call g value
    | failure error => rfl
  · refine hone rfl rfl fun g => ?_
    cases v with
    | success value => exact body_forEach call g value
    | failure error => rfl
  · refine hone rfl rfl fun g => ?_
    cases v with
    | success value => exact body_apply call g value
    | failure error => rfl

theorem chosen_eq_none_iff {gs : List FunctionRef}
    (ha : arguments.take method.label method.parameters = .ok (gs.map .function)) :
    method.chosen v gs = none ↔ ∀ c ∈ method.callbacks, c.2 ≠ v.channel := by
  have hlen : gs.length = method.callbacks.length := by
    simpa [parameters] using Arguments.length_of_take ha
  rw [chosen, Option.map_eq_none_iff, List.find?_eq_none]
  constructor
  · intro h c hc hchannel
    obtain ⟨j, hj, rfl⟩ := List.mem_iff_getElem.mp hc
    have hzip : j < (method.callbacks.zip gs).length := by
      rw [List.length_zip]
      omega
    refine h (method.callbacks[j], gs[j]) ?_ (beq_iff_eq.mpr hchannel)
    exact List.mem_iff_getElem.mpr ⟨j, hzip, List.getElem_zip⟩
  · intro h given hgiven hchannel
    exact h _ (List.of_mem_zip hgiven).1 (beq_iff_eq.mp hchannel)

end Method

/-- The run is one call, and a pure step on its result: it stops where the call stops, with the same
error, and does nothing to the store but what the call does. -/
def Run.IsOneCall (run called : Run Value) (outcome : Value → Except Error Value) : Prop :=
  ∀ s, (∀ error t, called s = .error error t → run s = .error error t) ∧
    ∀ y t, called s = .ok y t → run s = Run.ofExcept (outcome y) t

namespace Method

theorem isOneCall_calls (call : Calls) (method : Method) (v : Validation) (g : FunctionRef) :
    (calls call method v g).IsOneCall (call g [v.payload]) (method.outcome v) := by
  intro s
  constructor
  · intro error t h
    exact Run.bind_of_error h _
  · intro y t h
    exact Run.bind_of_ok h _

/-- **One callback runs, and runs once.**  Where a function that an operation takes is absent, the
operation is refused with the name of the first such parameter, and nothing is called.  Where all
are functions, the operation is the one call of the function for the channel of the validation, on
its payload, and calls nothing where it has no such function; neither the other functions nor what
any function does with anything else have a part in it.  A success that the one of `filter` and
`filter_not` keeps the other one drops, as the answer of the predicate counts as true or as false;
a failure is kept by both. -/
theorem one_callback_runs (call : Calls) (v : Validation) :
    (∀ method ∈ calling, ∀ (arguments : Arguments) (fs : List Value),
      arguments.take method.label method.parameters = .ok fs →
      (∀ i, fs.findIdx? Value.isAbsent = some i → ∃ c, method.callbacks[i]? = some c ∧
        ∀ s, v.toValue.send call method.label arguments s =
          .error (.nullArgument c.1 method.checkedAs) s) ∧
      ∀ gs : List FunctionRef, fs = gs.map .function →
        (method.chosen v gs = none ↔ ∀ c ∈ method.callbacks, c.2 ≠ v.channel) ∧
        (method.chosen v gs = none → ∀ s,
          v.toValue.send call method.label arguments s = .ok (method.uncalled v) s) ∧
        (∀ g, method.chosen v gs = some g →
          (v.toValue.send call method.label arguments).IsOneCall (call g [v.payload])
            (method.outcome v)) ∧
        ∀ (call' : Calls) (arguments' : Arguments) (gs' : List FunctionRef),
          arguments'.take method.label method.parameters = .ok (gs'.map .function) →
          method.chosen v gs' = method.chosen v gs →
          (∀ g, method.chosen v gs = some g → call' g [v.payload] = call g [v.payload]) →
          v.toValue.send call' method.label arguments' =
            v.toValue.send call method.label arguments) ∧
    (∀ value, v = .success value → ∀ (p : FunctionRef) (y : Value) (s s' t t' : Store),
      call p [value] s = .ok y t → call p [value] s' = .ok y t' →
      v.toValue.send call filter.label ⟨[.function p], []⟩ s =
          .ok (if y.isTruthy then v.toValue else .absent) t ∧
        v.toValue.send call filterNot.label ⟨[.function p], []⟩ s' =
          .ok (if y.isTruthy then .absent else v.toValue) t') ∧
    (∀ payload : Value, payload.failure.isTruthy = false ∧ payload.err.isTruthy = false) ∧
    ∀ error, v = .failure error → ∀ (p : FunctionRef) (s : Store),
      v.toValue.send call filter.label ⟨[.function p], []⟩ s = .ok v.toValue s ∧
        v.toValue.send call filterNot.label ⟨[.function p], []⟩ s = .ok v.toValue s := by
  refine ⟨?_, ?_, fun payload => ⟨rfl, rfl⟩, ?_⟩
  · intro method hm arguments fs ha
    refine ⟨fun i hi => ?_, ?_⟩
    · obtain ⟨c, hc, hsend⟩ := send_of_absent hm ha hi
      refine ⟨c, hc, fun s => ?_⟩
      rw [hsend]
      rfl
    · rintro gs rfl
      have hsend : v.toValue.send call method.label arguments = _ := send_functions hm ha
      refine ⟨chosen_eq_none_iff ha, ?_, ?_, ?_⟩
      · intro hnone s
        rw [hsend, hnone]
        rfl
      · intro g hg
        rw [hsend, hg]
        exact isOneCall_calls call method v g
      · intro call' arguments' gs' ha' hchosen hcall
        rw [send_functions hm ha', hsend, hchosen]
        cases hg : method.chosen v gs with
        | none => rfl
        | some g =>
            show calls call' method v g = calls call method v g
            rw [calls, calls, hcall g hg]
  · rintro value rfl p y s s' t t' hs hs'
    have htake : ∀ method ∈ [filter, filterNot],
        Arguments.take method.label method.parameters ⟨[.function p], []⟩ =
          .ok ([p].map .function) :=
      List.forall_mem_cons.mpr ⟨rfl, List.forall_mem_singleton.mpr rfl⟩
    have hfilter : (Validation.success value).toValue.send call filter.label ⟨[.function p], []⟩ =
        _ := send_functions (by decide) (htake filter (by decide))
    have hnot : (Validation.success value).toValue.send call filterNot.label ⟨[.function p], []⟩ =
        _ := send_functions (by decide) (htake filterNot (by decide))
    rw [hfilter, hnot]
    exact ⟨(isOneCall_calls call filter _ p s).2 y t hs,
      (isOneCall_calls call filterNot _ p s').2 y t' hs'⟩
  · rintro error rfl p s
    exact ⟨rfl, rfl⟩

/-- Functions that take down their calls and wrap their arguments in a failure.  Mapping both
channels of a failure, with one of the functions given by name, calls the one for the error; folding
it without a function for the value calls nothing; and since a failure counts as false, a success is
dropped by `filter` and kept by `filter_not`. -/
theorem one_callback_runs_wrapped :
    let call : Calls := fun r arguments => do
      Run.noteCall r.name arguments
      return .failure (.tuple arguments)
    let f : FunctionRef := ⟨0, "f", false⟩
    let g : FunctionRef := ⟨1, "g", false⟩
    let both : Arguments := ⟨[.function f], [("value_fn", .function g)]⟩
    let one : Arguments := ⟨[.function f, .absent], []⟩
    let bad := Validation.failure (.text "bad")
    let good := Validation.success (.int 1)
    bimap ∈ calling ∧ fold ∈ calling ∧
      both.take bimap.label bimap.parameters = .ok [.function f, .function g] ∧
      one.take fold.label fold.parameters = .ok [.function f, .absent] ∧
      bimap.chosen bad [f, g] = some f ∧
      bad.toValue.send call bimap.label both {} =
        .ok (.failure (.failure (.tuple [.text "bad"]))) { calls := [("f", [.text "bad"])] } ∧
      bad.toValue.send call fold.label one {} = .error (.nullArgument "on_success" "fold") {} ∧
      good.toValue.send call filter.label ⟨[.function f], []⟩ {} =
        .ok .absent { calls := [("f", [.int 1])] } ∧
      good.toValue.send call filterNot.label ⟨[.function f], []⟩ {} =
        .ok good.toValue { calls := [("f", [.int 1])] } := by
  intro call f g both one bad good
  have hbimap : bimap ∈ calling := by decide
  have hfold : fold ∈ calling := by decide
  have hboth : both.take bimap.label bimap.parameters = .ok [.function f, .function g] := rfl
  have hone : one.take fold.label fold.parameters = .ok [.function f, .absent] := rfl
  obtain ⟨hbad, -⟩ := one_callback_runs call bad
  obtain ⟨-, hgood, -⟩ := one_callback_runs call good
  obtain ⟨-, hcalled⟩ := hbad bimap hbimap both _ hboth
  obtain ⟨-, -, hcall, -⟩ := hcalled [f, g] rfl
  obtain ⟨hrefused, -⟩ := hbad fold hfold one _ hone
  obtain ⟨_, hc, hsend⟩ := hrefused 1 rfl
  cases hc
  obtain ⟨hdropped, hkept⟩ := hgood (.int 1) rfl f (.failure (.tuple [.int 1])) {} {}
    { calls := [("f", [.int 1])] } { calls := [("f", [.int 1])] } rfl rfl
  exact ⟨hbimap, hfold, hboth, hone, rfl, (hcall f rfl {}).2 _ _ rfl, hsend {}, hdropped, hkept⟩

end Method

end Accrual
