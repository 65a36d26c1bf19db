import Accrual.Interface.Method
import Accrual.Proofs.Channels

/-!
# Mapping and chaining

The laws of mapping and chaining hold for functions that may fail, with the
calls they make counted in: both sides of a law are the same run.  A law says
where its two sides part, too.  Mapping twice is mapping once with the
composition unless the first result is absent, which stops the first map before
the second function is called (`map_map`, `map_map_absent`).  Chaining is
associative as long as the functions return validations (`flatMap_flatMap`); a
function that returns anything else stops the chain (`flatMap_of_misfit`).
-/

namespace Accrual

open Validation

def Error.unexpectedResult (result : Value) : Error :=
  .misuse ⟨.unexpectedResult, "mapper returned " ++ result.typeName ++ ", expected Validation",
    "flat_map"⟩

/-- `h` calls `f`, and puts the result into a success. -/
def Calls.Succeeds (call : Calls) (f h : FunctionRef) : Prop :=
  ∀ x, call h [x] = toValue <$> (call f [x] >>= succeed)

/-- `h` calls `f`, and chains `g` to the result. -/
def Calls.Chains (call : Calls) (f g h : FunctionRef) : Prop :=
  ∀ x, call h [x] = call f [x] >>= fun y =>
    y.method call "flat_map" >>= fun bound => bound ⟨[.function g], []⟩

namespace Validation

variable (call : Calls) (f g : FunctionRef)

/-! ### Chaining a function to a validation -/

theorem flatMap_failure (error : Value) :
    (failure error).flatMap call (.function f) = pure (failure error) := rfl

variable {call f}

theorem flatMap_of_error {value : Value} {s t : Store} {error : Error}
    (h : call f [value] s = .error error t) :
    (success value).flatMap call (.function f) s = .error error t :=
  Run.bind_of_error h _

theorem flatMap_of_ok {value : Value} {s t : Store} {w : Validation}
    (h : call f [value] s = .ok w.toValue t) :
    (success value).flatMap call (.function f) s = .ok w t := by
  refine (Run.bind_of_ok h _).trans ?_
  rw [ofValue?_toValue]
  rfl

/-- **A function that returns the validation of a run** is chained as that run. -/
theorem flatMap_of_map {value : Value} {s t : Store} {run : Run Validation}
    (h : call f [value] s = (toValue <$> run) t) :
    (success value).flatMap call (.function f) s = run t := by
  have hmap : (toValue <$> run) t = EStateM.map toValue run t := rfl
  rw [hmap, EStateM.map] at h
  cases hrun : run t with
  | ok w u =>
      rw [hrun] at h
      exact flatMap_of_ok h
  | error error u =>
      rw [hrun] at h
      exact flatMap_of_error h

theorem flatMap_of_misfit {value result : Value} {s t : Store} (h : call f [value] s = .ok result t)
    (hr : ∀ w : Validation, result ≠ w.toValue) :
    (success value).flatMap call (.function f) s = .error (.unexpectedResult result) t := by
  have hnone : ofValue? result = none :=
    Option.eq_none_iff_forall_ne_some.mpr fun w hw => hr w (toValue_eq_of_ofValue? hw).symm
  refine (Run.bind_of_ok h _).trans ?_
  rw [hnone]
  rfl

variable (call f)

/-- The method that chains is found on every validation. -/
theorem method_flatMap (v : Validation) :
    (v.toValue.method call "flat_map" >>= fun bound => bound ⟨[.function g], []⟩) =
      toValue <$> v.flatMap call (.function g) := by
  cases v <;> rfl

/-! ### The laws -/

section Laws

variable {call f g} {v : Validation}

/-- **Mapping a function that gives back its argument** changes nothing. -/
theorem map_identity {i : FunctionRef} (hi : ∀ x, call i [x] = pure x)
    (hv : ¬v.toValue.IsHollow) : v.map call (.function i) = pure v := by
  cases v with
  | success value =>
      rw [map_success_eq, hi, pure_bind, succeed_of_present (present_of_success hv)]
  | failure error => rw [map_failure_function]

/-- **Mapping twice** is mapping the composition, unless the first result is absent. -/
theorem map_map {h : FunctionRef} (hh : call.Composes f g h) {s : Store}
    (hpresent : ∀ value t, v = success value → call g [value] s ≠ .ok .absent t) :
    (v.map call (.function g) >>= map call (.function f)) s = v.map call (.function h) s := by
  cases v with
  | failure error => rw [map_failure_function, pure_bind, map_failure_function,
      map_failure_function]
  | success value =>
      rw [map_success_eq, map_success_eq, hh, bind_assoc, bind_assoc]
      cases hcall : call g [value] s with
      | error error t => rw [Run.bind_of_error hcall, Run.bind_of_error hcall]
      | ok y t =>
          have hy : y.isAbsent = false := isAbsent_eq_false fun he =>
            hpresent value t rfl (he ▸ hcall)
          rw [Run.bind_of_ok hcall, Run.bind_of_ok hcall, succeed_of_present hy, pure_bind,
            map_success_eq]

/-- An absent first result stops the first map, and the second function is not called. -/
theorem map_map_absent {value : Value} {s t : Store} (h : call g [value] s = .ok .absent t) :
    ((success value).map call (.function g) >>= map call (.function f)) s =
      .error (.nullArgument "value" "success") t := by
  rw [map_success_eq, bind_assoc, Run.bind_of_ok h]
  rfl

/-- **Mapping is chaining** what puts its result into a success. -/
theorem map_eq_flatMap {h : FunctionRef} (hh : call.Succeeds f h) (v : Validation) :
    v.map call (.function f) = v.flatMap call (.function h) := by
  cases v with
  | failure error => rw [map_failure_function, flatMap_failure]
  | success value =>
      funext s
      rw [map_success_eq, flatMap_of_map (congrFun (hh value) s)]

/-- **Chaining the making of a success** changes nothing. -/
theorem flatMap_succeed {u : FunctionRef} (hu : ∀ x, call u [x] = toValue <$> succeed x)
    (hv : ¬v.toValue.IsHollow) : v.flatMap call (.function u) = pure v := by
  cases v with
  | failure error => rw [flatMap_failure]
  | success value =>
      funext s
      rw [flatMap_of_map (congrFun (hu value) s), succeed_of_present (present_of_success hv)]

/-- **Chaining is associative** where the first function returns a validation or fails. -/
theorem flatMap_flatMap {h : FunctionRef} (hh : call.Chains f g h) {s : Store}
    (hreturns : ∀ value result t, v = success value → call f [value] s = .ok result t →
      ∃ w : Validation, result = w.toValue) :
    (v.flatMap call (.function f) >>= flatMap call (.function g)) s =
      v.flatMap call (.function h) s := by
  cases v with
  | failure error => rw [flatMap_failure, pure_bind, flatMap_failure, flatMap_failure]
  | success value =>
      cases hcall : call f [value] s with
      | error error t =>
          have hstop : call h [value] s = .error error t := by
            rw [hh, Run.bind_of_error hcall]
          rw [Run.bind_of_error (flatMap_of_error hcall), flatMap_of_error hstop]
      | ok result t =>
          obtain ⟨w, rfl⟩ := hreturns value result t rfl hcall
          have hnext : call h [value] s = (toValue <$> w.flatMap call (.function g)) t := by
            rw [hh, Run.bind_of_ok hcall, method_flatMap]
          rw [Run.bind_of_ok (flatMap_of_ok hcall), flatMap_of_map hnext]

/-- **Chaining to a success** is calling the function, where it returns a validation or fails. -/
theorem succeed_bind_flatMap {x : Value} (hx : x.isAbsent = false) {s : Store}
    (hreturns : ∀ result t, call f [x] s = .ok result t → ∃ w : Validation, result = w.toValue) :
    (toValue <$> (succeed x >>= flatMap call (.function f))) s = call f [x] s := by
  rw [succeed_of_present hx, pure_bind, map_eq_pure_bind]
  cases hcall : call f [x] s with
  | error error t => rw [Run.bind_of_error (flatMap_of_error hcall)]
  | ok result t =>
      obtain ⟨w, rfl⟩ := hreturns result t hcall
      rw [Run.bind_of_ok (flatMap_of_ok hcall)]
      rfl

theorem succeed_bind_flatMap_misfit {x result : Value} (hx : x.isAbsent = false) {s t : Store}
    (h : call f [x] s = .ok result t) (hr : ∀ w : Validation, result ≠ w.toValue) :
    (succeed x >>= flatMap call (.function f)) s = .error (.unexpectedResult result) t := by
  rw [succeed_of_present hx, pure_bind, flatMap_of_misfit h hr]

end Laws

/-- **The laws of mapping and chaining**, for functions that return anything and fail in any way.
Both sides of each law are the same run, with the same calls: mapping the identity, mapping twice,
mapping as chaining, chaining to a success, chaining the making of a success, and chaining twice.
Where the first of two maps comes to nothing, it stops with that fault before the second function
is called; and a function that returns no validation stops the chain. -/
theorem mapping_and_chaining (call : Calls) (f g : FunctionRef) {v : Validation}
    (hv : ¬v.toValue.IsHollow) {x : Value} (hx : x.isAbsent = false) :
    (∀ i, (∀ y, call i [y] = pure y) → v.map call (.function i) = pure v) ∧
    (∀ h, call.Composes f g h → ∀ s,
      ((∀ value t, v = success value → call g [value] s ≠ .ok .absent t) →
        (v.map call (.function g) >>= map call (.function f)) s = v.map call (.function h) s) ∧
      ∀ value t, v = success value → call g [value] s = .ok .absent t →
        (v.map call (.function g) >>= map call (.function f)) s =
          .error (.nullArgument "value" "success") t) ∧
    (∀ h, call.Succeeds f h → v.map call (.function f) = v.flatMap call (.function h)) ∧
    (∀ s, (∀ result t, call f [x] s = .ok result t → ∃ w : Validation, result = w.toValue) →
      (toValue <$> (succeed x >>= flatMap call (.function f))) s = call f [x] s) ∧
    (∀ u, (∀ y, call u [y] = toValue <$> succeed y) → v.flatMap call (.function u) = pure v) ∧
    (∀ h, call.Chains f g h → ∀ s,
      (∀ value result t, v = success value → call f [value] s = .ok result t →
        ∃ w : Validation, result = w.toValue) →
      (v.flatMap call (.function f) >>= flatMap call (.function g)) s =
        v.flatMap call (.function h) s) ∧
    ∀ s result t, call f [x] s = .ok result t → (∀ w : Validation, result ≠ w.toValue) →
      (succeed x >>= flatMap call (.function f)) s = .error (.unexpectedResult result) t := by
  refine ⟨fun i hi => map_identity hi hv, fun h hh s => ⟨map_map hh, ?_⟩,
    fun h hh => map_eq_flatMap hh v, fun s => succeed_bind_flatMap hx,
    fun u hu => flatMap_succeed hu hv, fun h hh s => flatMap_flatMap hh,
    fun s result t => succeed_bind_flatMap_misfit hx⟩
  rintro value t rfl hcall
  exact map_map_absent hcall

/-- Functions that take down their calls: `f` wraps its argument in a tuple inside a success, `g`
returns nothing.  Chained twice, `f` is called twice; mapped after `g`, it is not called; and `g`
stops a chain. -/
theorem mapping_and_chaining_wrapped :
    let base : Calls := fun r arguments => do
      Run.noteCall r.name arguments
      return if r.id = 0 then .success (.tuple arguments) else .absent
    let f : FunctionRef := ⟨0, "f", false⟩
    let g : FunctionRef := ⟨1, "g", false⟩
    let twice : FunctionRef := ⟨2, "twice", false⟩
    let both : FunctionRef := ⟨3, "both", false⟩
    let call : Calls := fun r arguments =>
      if r.id = 2 then base f arguments >>= fun y =>
        y.method base "flat_map" >>= fun bound => bound ⟨[.function f], []⟩
      else if r.id = 3 then base g arguments >>= fun y => base f [y]
      else base r arguments
    let v := success (.int 1)
    ¬v.toValue.IsHollow ∧ (Value.int 1).isAbsent = false ∧
      call.Chains f f twice ∧ call.Composes f g both ∧
      (v.flatMap call (.function f) >>= flatMap call (.function f)) {} =
        v.flatMap call (.function twice) {} ∧
      v.flatMap call (.function twice) {} =
        .ok (success (.tuple [.tuple [.int 1]]))
          { calls := [("f", [.int 1]), ("f", [.tuple [.int 1]])] } ∧
      (v.map call (.function g) >>= map call (.function f)) {} =
        .error (.nullArgument "value" "success") { calls := [("g", [.int 1])] } ∧
      (succeed (.int 1) >>= flatMap call (.function g)) {} =
        .error (.unexpectedResult .absent) { calls := [("g", [.int 1])] } := by
  intro base f g twice both call v
  have hv : ¬(success (.int 1)).toValue.IsHollow := by
    rintro (he | he) <;> cases he
  have htwice : call.Chains f f twice := fun _ => rfl
  have hboth : call.Composes f g both := fun _ => rfl
  obtain ⟨-, hmap, -, -, -, -, -⟩ :=
    mapping_and_chaining call f g hv (show (Value.int 1).isAbsent = false from rfl)
  obtain ⟨-, -, -, -, -, htwo, -⟩ :=
    mapping_and_chaining call f f hv (show (Value.int 1).isAbsent = false from rfl)
  obtain ⟨-, -, -, -, -, -, hmisfit⟩ :=
    mapping_and_chaining call g g hv (show (Value.int 1).isAbsent = false from rfl)
  have hreturns : ∀ value result t, success (.int 1) = success value →
      call f [value] {} = .ok result t → ∃ w : Validation, result = w.toValue := by
    rintro _ result t ⟨⟩ hcall
    cases hcall
    exact ⟨success (.tuple [.int 1]), rfl⟩
  exact ⟨hv, rfl, htwice, hboth, htwo twice htwice {} hreturns, rfl,
    (hmap both hboth {}).2 _ _ rfl rfl, hmisfit {} .absent _ rfl fun w => by cases w <;> nofun⟩

end Validation

end Accrual
