import Accrual.Either
import Accrual.Proofs.Access.Basic
import Accrual.Sequence
import Accrual.Stage

/-!
# How validations get at the store

Operations on validations leave the store to the functions they call, so that
they use whatever these use.  The only access of their own is the number that a
new stage takes.
-/

namespace Accrual

variable {call : Calls} {allowed : List Access.Kind}

namespace Validation

theorem uses_succeed (value : Value) : (succeed value).Uses allowed :=
  (Run.Uses.require value "value" "success").bind fun _ => .pure _

theorem uses_fail (error : Value) : (fail error).Uses allowed :=
  (Run.Uses.require error "error" "failure").bind fun _ => .pure _

theorem uses_get (v : Validation) : v.get.Uses allowed := by
  cases v with
  | success value => exact .pure value
  | failure error => exact .throw _

theorem uses_getError (v : Validation) : v.getError.Uses allowed := by
  cases v with
  | success value => exact .throw _
  | failure error => exact .pure error

theorem uses_swap (v : Validation) : v.swap.Uses allowed := by
  cases v with
  | success value => exact uses_fail value
  | failure error => exact uses_succeed error

section

variable (hc : ∀ f arguments, (call f arguments).Uses allowed)
include hc

theorem uses_getOrCompute (f : Value) (v : Validation) : (v.getOrCompute call f).Uses allowed := by
  refine (Run.Uses.require f "f" "get_or_else_get").bind fun _ => ?_
  cases v with
  | success value => exact .pure value
  | failure error => exact uses_invoke hc f [error]

theorem uses_fold (onFailure onSuccess : Value) (v : Validation) :
    (v.fold call onFailure onSuccess).Uses allowed := by
  refine (Run.Uses.require onFailure "on_failure" "fold").bind fun _ => ?_
  refine (Run.Uses.require onSuccess "on_success" "fold").bind fun _ => ?_
  cases v with
  | success value => exact uses_invoke hc onSuccess [value]
  | failure error => exact uses_invoke hc onFailure [error]

theorem uses_map (f : Value) (v : Validation) : (v.map call f).Uses allowed := by
  refine (Run.Uses.require f "f" "map").bind fun _ => ?_
  cases v with
  | success value => exact (uses_invoke hc f [value]).bind uses_succeed
  | failure error => exact .pure _

theorem uses_mapError (f : Value) (v : Validation) : (v.mapError call f).Uses allowed := by
  refine (Run.Uses.require f "f" "map_error").bind fun _ => ?_
  cases v with
  | success value => exact .pure _
  | failure error => exact (uses_invoke hc f [error]).bind uses_fail

theorem uses_bimap (errorFn valueFn : Value) (v : Validation) :
    (v.bimap call errorFn valueFn).Uses allowed := by
  refine (Run.Uses.require errorFn "error_fn" "bimap").bind fun _ => ?_
  refine (Run.Uses.require valueFn "value_fn" "bimap").bind fun _ => ?_
  cases v with
  | success value => exact (uses_invoke hc valueFn [value]).bind uses_succeed
  | failure error => exact (uses_invoke hc errorFn [error]).bind uses_fail

theorem uses_flatMap (f : Value) (v : Validation) : (v.flatMap call f).Uses allowed := by
  refine (Run.Uses.require f "f" "flat_map").bind fun _ => ?_
  cases v with
  | failure error => exact .pure _
  | success value =>
      refine (uses_invoke hc f [value]).bind fun result => ?_
      cases ofValue? result with
      | some next => exact .pure next
      | none => exact .throw _

omit hc in
theorem uses_filterBy {passes : Value → Run Bool} (hp : ∀ value, (passes value).Uses allowed)
    (v : Validation) : (v.filterBy passes).Uses allowed := by
  cases v with
  | failure error => exact .pure _
  | success value => exact (hp value).bind fun _ => .pure _

theorem uses_filter (predicate : Value) (v : Validation) :
    (v.filter call predicate).Uses allowed := by
  refine (Run.Uses.require predicate "predicate" "filter").bind fun _ => ?_
  exact uses_filterBy (fun value => (uses_invoke hc predicate [value]).bind fun _ => .pure _) v

theorem uses_filterNot (predicate : Value) (v : Validation) :
    (v.filterNot call predicate).Uses allowed := by
  refine (Run.Uses.require predicate "predicate" "filter_not").bind fun _ => ?_
  exact uses_filterBy (fun value => (uses_invoke hc predicate [value]).bind fun _ => .pure _) v

theorem uses_peek (action : Value) (v : Validation) : (v.peek call action).Uses allowed := by
  refine (Run.Uses.require action "action" "peek").bind fun _ => ?_
  cases v with
  | success value =>
      exact ((uses_invoke hc action [value]).map fun _ => PUnit.unit).bind fun _ => .pure _
  | failure error => exact .pure _

theorem uses_forEach (action : Value) (v : Validation) : (v.forEach call action).Uses allowed :=
  (uses_peek hc action v).map fun _ => PUnit.unit

theorem uses_ap (other : Value) (v : Validation) : (v.ap call other).Uses allowed := by
  refine (Run.Uses.require other "other" "ap").bind fun _ => ?_
  cases v with
  | success value =>
      cases other with
      | success f =>
          refine (uses_invoke hc f [value]).bind fun result => ?_
          exact (uses_succeed result).bind fun _ => .pure _
      | failure errors => exact .pure _
      | err error => exact .pure _
      | _ => exact .throw _
  | failure error =>
      cases other with
      | success f => exact .pure _
      | ok f => exact .pure _
      | failure errors =>
          cases hs : errors.elements? with
          | some found =>
              simp only [hs]
              exact .pure _
          | none =>
              simp only [hs]
              exact .throw _
      | _ => exact .throw _

theorem uses_apply (f : Value) (v : Validation) : (v.apply call f).Uses allowed :=
  (Run.Uses.require f "f" "apply").bind fun _ => uses_ap hc (.success f) v

end

theorem uses_ofEither (e : Either) : (ofEither e).Uses allowed := by
  cases e with
  | ok value => exact uses_succeed value
  | err error => exact uses_fail error

end Validation

namespace Either

theorem uses_refuse (operation : String) (e : Either) : (e.refuse operation).Uses allowed :=
  (Run.Uses.ofExcept _).bind fun _ => .throw _

theorem uses_unwrap (e : Either) : e.unwrap.Uses allowed := by
  cases e with
  | ok value => exact .pure value
  | err error => exact uses_refuse _ _

theorem uses_unwrapErr (e : Either) : e.unwrapErr.Uses allowed := by
  cases e with
  | ok value => exact uses_refuse _ _
  | err error => exact .pure error

end Either

/-! ### Rows -/

theorem Gathered.uses_add {α : Type} {feed : α → Value → Run α}
    (hfeed : ∀ made value, (feed made value).Uses allowed) (gathered : Gathered α) (item : Value) :
    (gathered.add feed item).Uses allowed := by
  cases item with
  | success value =>
      cases gathered with
      | values made => exact (hfeed made value).map _
      | errors found => exact .pure _
  | failure error =>
      cases gathered with
      | values made => exact .pure _
      | errors found => exact .pure _
  | _ => exact .throw _

theorem uses_elementsOf (items : Value) : (elementsOf items).Uses allowed := by
  unfold elementsOf
  cases items.elements? with
  | some elements => exact .pure elements
  | none => exact .throw _

theorem uses_sequence (validations : Value) : (sequence validations).Uses allowed := by
  refine (Run.Uses.require validations "validations" "sequence").bind fun _ => ?_
  refine (uses_elementsOf validations).bind fun elements => ?_
  refine (Run.Uses.foldlM (fun g item => ?_) elements _).bind fun _ => .pure _
  exact g.uses_add (fun made value => .pure _) item

theorem Stage.uses_ofList (hid : .freshId ∈ allowed) (items : List Value) :
    (ofList items).Uses allowed := by
  unfold ofList
  cases items.findIdx? Value.isAbsent with
  | some i => exact .throw _
  | none => exact (Run.Uses.access .freshId hid).bind fun _ => .pure _

theorem uses_combine (hid : .freshId ∈ allowed) (items : List Value) :
    (combine items).Uses allowed := by
  unfold combine
  split
  · exact Stage.uses_ofList hid items
  · exact .throw _

theorem Validation.uses_combine (hid : .freshId ∈ allowed) (other : Value) (v : Validation) :
    (v.combine other).Uses allowed :=
  (Run.Uses.require other "other" "combine").bind fun _ => Stage.uses_ofList hid _

section

variable (hc : ∀ f arguments, (call f arguments).Uses allowed)
include hc

theorem uses_traverse (items f : Value) : (traverse call items f).Uses allowed := by
  refine (Run.Uses.require f "f" "traverse").bind fun _ => ?_
  refine (uses_elementsOf items).bind fun elements => ?_
  refine (Run.Uses.foldlM (fun g item => ?_) elements _).bind fun _ => .pure _
  exact (uses_invoke hc f [item]).bind fun result => g.uses_add (fun made value => .pure _) result

theorem Curried.uses_finish (f : Value) (arguments : List Value) :
    (finish call f arguments).Uses allowed := by
  refine (uses_invoke hc f arguments).bind fun v => ?_
  exact (Run.Uses.require v "value" "success").bind fun _ => .pure _

theorem Curried.uses_feed (curried : Curried) (value : Value) :
    (feed call curried value).Uses allowed := by
  cases curried with
  | waiting f missing collected =>
      simp only [feed]
      split
      · exact uses_finish hc f _
      · split
        · exact .pure _
        · exact .throw _
  | result f => exact uses_finish hc f [value]

theorem Stage.uses_apply (f : Value) (stage : Stage) : (stage.apply call f).Uses allowed := by
  refine (Run.Uses.require f "f" "apply").bind fun _ => ?_
  refine (Run.Uses.foldlM (fun g item => ?_) stage.items _).bind fun _ => .pure _
  exact g.uses_add (Curried.uses_feed hc) item

end

end Accrual
