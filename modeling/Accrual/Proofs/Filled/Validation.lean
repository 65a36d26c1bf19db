import Accrual.Either
import Accrual.Proofs.Filled.Run
import Accrual.Proofs.Gathered
import Accrual.Sequence
import Accrual.Stage

/-!
# Combining filled validations

Every operation on validations keeps a store filled and comes to filled values
if it starts from them, whatever its functions do, as long as they come to
filled values themselves.  The two places where a payload is put into a
validation are `Validation.succeed` and `Validation.fail`, which refuse an
absent one; a swap or a conversion goes through them as well.

A row is gathered under one more invariant (`Gathered.Sound`): no entry of the
errors found so far is absent.  So the tuple of errors of a sequence, a stage or
a single application has no absent entry (`Validation.Collected`).
-/

namespace Accrual

open Value

namespace Validation

/-- A payload gets into a success only if it is present. -/
theorem keeps_succeed_eq (value : Value) :
    (succeed value).Keeps fun v => v = success value ∧ value.isAbsent = false :=
  (keeps_require value "value" "success").bind fun _ hp => Run.keeps_pure ⟨rfl, hp⟩

theorem keeps_fail_eq (error : Value) :
    (fail error).Keeps fun v => v = failure error ∧ error.isAbsent = false :=
  (keeps_require error "error" "failure").bind fun _ hp => Run.keeps_pure ⟨rfl, hp⟩

theorem keeps_succeed {value : Value} (h : value.Filled) :
    (succeed value).Keeps fun v => v.toValue.Filled := by
  refine (keeps_succeed_eq value).mono ?_
  rintro _ ⟨rfl, hp⟩
  exact filled_success.mpr ⟨hp, h⟩

theorem keeps_fail {error : Value} (h : error.Filled) :
    (fail error).Keeps fun v => v.toValue.Filled := by
  refine (keeps_fail_eq error).mono ?_
  rintro _ ⟨rfl, hp⟩
  exact filled_failure.mpr ⟨hp, h⟩

theorem filled_payload_success {value : Value} (h : (success value).toValue.Filled) :
    value.Filled := (filled_success.mp h).2

theorem filled_payload_failure {error : Value} (h : (failure error).toValue.Filled) :
    error.Filled := (filled_failure.mp h).2

/-! ### Operations on one validation -/

theorem keeps_get {v : Validation} (h : v.toValue.Filled) : v.get.Keeps Filled := by
  cases v with
  | success value => exact Run.keeps_pure (filled_payload_success h)
  | failure error => exact Run.keeps_throw _

theorem keeps_getError {v : Validation} (h : v.toValue.Filled) : v.getError.Keeps Filled := by
  cases v with
  | success value => exact Run.keeps_throw _
  | failure error => exact Run.keeps_pure (filled_payload_failure h)

theorem filled_getOrElse {v : Validation} (h : v.toValue.Filled) {fallback : Value}
    (hf : fallback.Filled) : (v.getOrElse fallback).Filled := by
  cases v with
  | success value => exact filled_payload_success h
  | failure error => exact hf

theorem keeps_swap {v : Validation} (h : v.toValue.Filled) :
    v.swap.Keeps fun w => w.toValue.Filled := by
  cases v with
  | success value => exact keeps_fail (filled_payload_success h)
  | failure error => exact keeps_succeed (filled_payload_failure h)

section

variable {call : Calls} (hc : call.KeepFilled)
include hc

theorem keeps_getOrCompute (f : Value) {v : Validation} (h : v.toValue.Filled) :
    (v.getOrCompute call f).Keeps Filled := by
  refine (keeps_require f "f" "get_or_else_get").bind fun _ _ => ?_
  cases v with
  | success value => exact Run.keeps_pure (filled_payload_success h)
  | failure error => exact keeps_invoke hc f (filledRow_single (filled_payload_failure h))

theorem keeps_fold (onFailure onSuccess : Value) {v : Validation} (h : v.toValue.Filled) :
    (v.fold call onFailure onSuccess).Keeps Filled := by
  refine (keeps_require onFailure "on_failure" "fold").bind fun _ _ => ?_
  refine (keeps_require onSuccess "on_success" "fold").bind fun _ _ => ?_
  cases v with
  | success value => exact keeps_invoke hc onSuccess (filledRow_single (filled_payload_success h))
  | failure error => exact keeps_invoke hc onFailure (filledRow_single (filled_payload_failure h))

theorem keeps_map (f : Value) {v : Validation} (h : v.toValue.Filled) :
    (v.map call f).Keeps fun w => w.toValue.Filled := by
  refine (keeps_require f "f" "map").bind fun _ _ => ?_
  cases v with
  | success value =>
      refine (keeps_invoke hc f (filledRow_single (filled_payload_success h))).bind fun _ hr => ?_
      exact keeps_succeed hr
  | failure error => exact Run.keeps_pure h

theorem keeps_mapError (f : Value) {v : Validation} (h : v.toValue.Filled) :
    (v.mapError call f).Keeps fun w => w.toValue.Filled := by
  refine (keeps_require f "f" "map_error").bind fun _ _ => ?_
  cases v with
  | success value => exact Run.keeps_pure h
  | failure error =>
      refine (keeps_invoke hc f (filledRow_single (filled_payload_failure h))).bind fun _ hr => ?_
      exact keeps_fail hr

theorem keeps_bimap (errorFn valueFn : Value) {v : Validation} (h : v.toValue.Filled) :
    (v.bimap call errorFn valueFn).Keeps fun w => w.toValue.Filled := by
  refine (keeps_require errorFn "error_fn" "bimap").bind fun _ _ => ?_
  refine (keeps_require valueFn "value_fn" "bimap").bind fun _ _ => ?_
  cases v with
  | success value =>
      refine (keeps_invoke hc valueFn (filledRow_single (filled_payload_success h))).bind
        fun _ hr => ?_
      exact keeps_succeed hr
  | failure error =>
      refine (keeps_invoke hc errorFn (filledRow_single (filled_payload_failure h))).bind
        fun _ hr => ?_
      exact keeps_fail hr

theorem keeps_flatMap (f : Value) {v : Validation} (h : v.toValue.Filled) :
    (v.flatMap call f).Keeps fun w => w.toValue.Filled := by
  refine (keeps_require f "f" "flat_map").bind fun _ _ => ?_
  cases v with
  | failure error => exact Run.keeps_pure h
  | success value =>
      refine (keeps_invoke hc f (filledRow_single (filled_payload_success h))).bind fun r hr => ?_
      cases hv : ofValue? r with
      | none => exact Run.keeps_throw _
      | some next =>
          rw [← toValue_eq_of_ofValue? hv] at hr
          exact Run.keeps_pure hr

omit hc in
theorem keeps_filterBy {passes : Value → Run Bool}
    (hp : ∀ value : Value, value.Filled → (passes value).Keeps fun _ => True) {v : Validation}
    (h : v.toValue.Filled) : (v.filterBy passes).Keeps fun w => ∀ u ∈ w, u.toValue.Filled := by
  cases v with
  | failure error => exact Run.keeps_pure fun u hu => Option.mem_some.mp hu ▸ h
  | success value =>
      refine (hp value (filled_payload_success h)).bind fun passed _ => ?_
      refine Run.keeps_pure fun u hu => ?_
      cases passed with
      | true => exact Option.mem_some.mp hu ▸ h
      | false => cases hu

theorem keeps_filter (predicate : Value) {v : Validation} (h : v.toValue.Filled) :
    (v.filter call predicate).Keeps fun w => ∀ u ∈ w, u.toValue.Filled := by
  refine (keeps_require predicate "predicate" "filter").bind fun _ _ => ?_
  refine keeps_filterBy (fun value hv => ?_) h
  exact (keeps_invoke hc predicate (filledRow_single hv)).bind fun _ _ => Run.keeps_pure trivial

theorem keeps_filterNot (predicate : Value) {v : Validation} (h : v.toValue.Filled) :
    (v.filterNot call predicate).Keeps fun w => ∀ u ∈ w, u.toValue.Filled := by
  refine (keeps_require predicate "predicate" "filter_not").bind fun _ _ => ?_
  refine keeps_filterBy (fun value hv => ?_) h
  exact (keeps_invoke hc predicate (filledRow_single hv)).bind fun _ _ => Run.keeps_pure trivial

theorem keeps_peek (action : Value) {v : Validation} (h : v.toValue.Filled) :
    (v.peek call action).Keeps fun w => w.toValue.Filled := by
  refine (keeps_require action "action" "peek").bind fun _ _ => ?_
  cases v with
  | success value =>
      refine Run.Keeps.bind (P := fun _ => True) ?_ fun _ _ => Run.keeps_pure h
      exact (keeps_invoke hc action (filledRow_single (filled_payload_success h))).map
        fun _ _ => trivial
  | failure error => exact Run.keeps_pure h

theorem keeps_forEach (action : Value) {v : Validation} (h : v.toValue.Filled) :
    (v.forEach call action).Keeps fun _ => True :=
  (keeps_peek hc action h).map fun _ _ => trivial

end

end Validation

/-! ### Elements -/

namespace Value

theorem filled_recordFields {v : Value} {fields : List (String × Value)}
    (h : v.recordFields? = some fields) : ∀ f ∈ fields, f.2.Filled := by
  have hcode : ∀ c : Option String, (ofOptionText c).Filled := by
    rintro (_ | c)
    · exact filled_absent
    · exact filled_text c
  have hcolors : ∀ c : Option Bool, (c.elim absent bool).Filled := by
    rintro (_ | c)
    · exact filled_absent
    · exact filled_bool c
  cases v with
  | violation v => cases h; simp [hcode]
  | fault f => cases h; simp
  | settings s =>
      cases h
      simp [filled_of_parts_nil (v := .loggingSettings s.logging) rfl,
        filled_of_parts_nil (v := .reportSettings s.report) rfl]
  | loggingSettings s => cases h; simp [hcolors]
  | reportSettings s => cases h; simp
  | _ => cases h

/-- What a filled value yields when it is gone through is filled. -/
theorem filled_elements {v : Value} (hv : v.Filled) {items : List Value}
    (h : v.elements? = some items) : FilledRow items := by
  have hchars : ∀ s : String, FilledRow (characters s) := by
    intro s w hw
    obtain ⟨c, _, rfl⟩ := List.mem_map.mp hw
    exact filled_text _
  have hfields : v.recordFields?.map (fun fields => fields.map fun f => ofField f.1 f.2) =
      some items → FilledRow items := by
    intro hr w hw
    obtain ⟨fields, hfields, rfl⟩ := Option.map_eq_some_iff.mp hr
    obtain ⟨f, hf, rfl⟩ := List.mem_map.mp hw
    exact filled_tuple.mpr
      (.cons (filled_text _) (filledRow_single (filled_recordFields hfields f hf)))
  cases v with
  | text s => cases h; exact hchars s
  | code c => cases h; exact hchars c.text
  | list items => cases h; exact filled_list.mp hv
  | tuple items => cases h; exact filled_tuple.mp hv
  | dictionary entries =>
      cases h
      intro w hw
      obtain ⟨e, he, rfl⟩ := List.mem_map.mp hw
      exact (filled_dictionary.mp hv e he).1
  | success value =>
      cases h
      exact filledRow_single (filled_success.mp hv).2
  | failure error => cases h; exact filledRow_nil
  | _ => exact hfields h

end Value

theorem keeps_elementsOf {items : Value} (h : items.Filled) :
    (elementsOf items).Keeps FilledRow := by
  unfold elementsOf
  cases he : items.elements? with
  | none => exact Run.keeps_throw _
  | some elements => exact Run.keeps_pure (filled_elements h he)

/-! ### Accumulation -/

namespace Validation

/-- A filled validation whose error, if it is a failure, is a tuple without an absent entry. -/
structure Collected (v : Validation) : Prop where
  filled : v.toValue.Filled
  errors : ∀ error, v = failure error →
    ∃ found : List Value, error = .tuple found ∧ ∀ e ∈ found, e.isAbsent = false

theorem collected_success {value : Value} (hp : value.isAbsent = false) (h : value.Filled) :
    (success value).Collected := ⟨filled_success.mpr ⟨hp, h⟩, fun _ he => by cases he⟩

theorem collected_failure {found : List Value} (h : ∀ e ∈ found, e.isAbsent = false ∧ e.Filled) :
    (failure (.tuple found)).Collected := by
  refine ⟨filled_failure.mpr ⟨rfl, filled_tuple.mpr fun e he => (h e he).2⟩, ?_⟩
  intro error he
  cases he
  exact ⟨found, rfl, fun e he => (h e he).1⟩

variable {call : Calls} (hc : call.KeepFilled)
include hc

theorem keeps_ap {other : Value} (ho : other.Filled) {v : Validation} (h : v.toValue.Filled) :
    (v.ap call other).Keeps Filled := by
  refine (keeps_require other "other" "ap").bind fun _ _ => ?_
  cases v with
  | success value =>
      cases other with
      | success f =>
          refine (keeps_invoke hc f (filledRow_single (filled_payload_success h))).bind
            fun _ hr => ?_
          exact (keeps_succeed hr).bind fun _ hv => Run.keeps_pure hv
      | failure errors => exact Run.keeps_pure ho
      | err error => exact Run.keeps_pure ho
      | _ => exact Run.keeps_throw _
  | failure error =>
      have he : error.isAbsent = false ∧ error.Filled := filled_failure.mp h
      have hone := collected_failure (List.forall_mem_singleton.mpr he)
      cases other with
      | success f => exact Run.keeps_pure hone.filled
      | ok f => exact Run.keeps_pure hone.filled
      | failure errors =>
          cases hs : errors.elements? with
          | none =>
              simp only [hs]
              exact Run.keeps_throw _
          | some found =>
              simp only [hs]
              have hfound := filled_elements (filled_failure.mp ho).2 hs
              exact Run.keeps_pure (filled_failure.mpr
                ⟨rfl, filled_tuple.mpr (hfound.append (filledRow_single he.2))⟩)
      | _ => exact Run.keeps_throw _

/-- The single application comes to a filled value, with a tuple of one error that is not absent if
it comes to a failure. -/
theorem keeps_apply (f : Value) {v : Validation} (h : v.toValue.Filled) :
    (v.apply call f).Keeps fun r => r.Filled ∧
      ∀ error, r = .failure error → (failure error).Collected := by
  refine (keeps_require f "f" "apply").bind fun _ _ => ?_
  refine (keeps_require (.success f) "other" "ap").bind fun _ _ => ?_
  cases v with
  | success value =>
      refine (keeps_invoke hc f (filledRow_single (filled_payload_success h))).bind
        fun result hr => ?_
      refine (keeps_succeed_eq result).bind ?_
      rintro _ ⟨rfl, hp⟩
      exact Run.keeps_pure ⟨filled_success.mpr ⟨hp, hr⟩, fun _ he => by cases he⟩
  | failure error =>
      have hone := collected_failure (List.forall_mem_singleton.mpr (filled_failure.mp h))
      exact Run.keeps_pure ⟨hone.filled, fun _ he => by cases he; exact hone⟩

end Validation

namespace Gathered

open Validation

variable {α : Type} {P : α → Prop}

/-- What has been made of the values has the property `P`, and no error is absent. -/
def Sound (P : α → Prop) : Gathered α → Prop
  | values made => P made
  | errors found => ∀ e ∈ found, e.isAbsent = false ∧ e.Filled

theorem keeps_add {feed : α → Value → Run α}
    (hfeed : ∀ made value, P made → value.Filled → (feed made value).Keeps P)
    {gathered : Gathered α} (hg : gathered.Sound P) {item : Value} (hi : item.Filled) :
    (gathered.add feed item).Keeps (Sound P) := by
  cases item with
  | success value =>
      have hvalue := (filled_success.mp hi).2
      cases gathered with
      | values made => exact (hfeed made value hg hvalue).map fun _ h => h
      | errors found => exact Run.keeps_pure hg
  | failure error =>
      have herror := filled_failure.mp hi
      cases gathered with
      | values made =>
          exact Run.keeps_pure (List.forall_mem_singleton.mpr herror)
      | errors found =>
          exact Run.keeps_pure
            (List.forall_mem_append.mpr ⟨hg, List.forall_mem_singleton.mpr herror⟩)
  | _ => exact Run.keeps_throw _

theorem collected_toValidation {toValue : α → Value}
    (hv : ∀ made, P made → (toValue made).isAbsent = false ∧ (toValue made).Filled)
    {gathered : Gathered α} (hg : gathered.Sound P) :
    (gathered.toValidation toValue).Collected := by
  cases gathered with
  | values made => exact collected_success (hv made hg).1 (hv made hg).2
  | errors found => exact collected_failure hg

end Gathered

theorem keeps_collect (made : List Value) (value : Value) (hm : FilledRow made)
    (hv : value.Filled) : (collect made value).Keeps FilledRow :=
  Run.keeps_pure (hm.append (filledRow_single hv))

theorem collected_tuple {gathered : Gathered (List Value)} (h : gathered.Sound FilledRow) :
    (gathered.toValidation .tuple).Collected :=
  Gathered.collected_toValidation (fun _ hm => ⟨rfl, filled_tuple.mpr hm⟩) h

/-- A sequence over filled values comes to a filled validation, without an absent error. -/
theorem keeps_sequence {row : Value} (h : row.Filled) :
    (sequence row).Keeps Validation.Collected := by
  refine (keeps_require row "validations" "sequence").bind fun _ _ => ?_
  refine (keeps_elementsOf h).bind fun items hitems => ?_
  have hnil : (Gathered.values []).Sound FilledRow := filledRow_nil
  refine (Run.keeps_foldlM items (fun g item hi hg => ?_) hnil).bind
    fun gathered hg => Run.keeps_pure (collected_tuple hg)
  exact Gathered.keeps_add keeps_collect hg (hitems item hi)

section

variable {call : Calls} (hc : call.KeepFilled)
include hc

theorem keeps_traverse {items : Value} (h : items.Filled) (f : Value) :
    (traverse call items f).Keeps Validation.Collected := by
  refine (keeps_require f "f" "traverse").bind fun _ _ => ?_
  refine (keeps_elementsOf h).bind fun items hitems => ?_
  have hnil : (Gathered.values []).Sound FilledRow := filledRow_nil
  refine (Run.keeps_foldlM items (fun g item hi hg => ?_) hnil).bind
    fun gathered hg => Run.keeps_pure (collected_tuple hg)
  refine (keeps_invoke hc f (filledRow_single (hitems item hi))).bind fun r hr => ?_
  exact Gathered.keeps_add keeps_collect hg hr

/-! ### Stages -/

def Curried.Filled : Curried → Prop
  | waiting f _ collected => f.isAbsent = false ∧ f.Filled ∧ FilledRow collected
  | result value => value.isAbsent = false ∧ value.Filled

theorem Curried.keeps_finish (f : Value) {arguments : List Value} (h : FilledRow arguments) :
    (finish call f arguments).Keeps Curried.Filled := by
  refine (keeps_invoke hc f h).bind fun v hv => ?_
  exact (keeps_require v "value" "success").bind fun _ hp => Run.keeps_pure ⟨hp, hv⟩

theorem Curried.keeps_feed (curried : Curried) (value : Value) (h : curried.Filled)
    (hv : value.Filled) : (feed call curried value).Keeps Curried.Filled := by
  cases curried with
  | waiting f missing collected =>
      obtain ⟨hp, hf, hcollected⟩ := h
      have hmore := hcollected.append (filledRow_single hv)
      simp only [feed]
      split
      · exact keeps_finish hc f hmore
      · split
        · exact Run.keeps_pure ⟨hp, hf, hmore⟩
        · exact Run.keeps_throw _
  | result f => exact keeps_finish hc f (filledRow_single hv)

omit hc in
theorem Curried.filled_value {curried : Curried} (h : curried.Filled) :
    curried.value.isAbsent = false ∧ curried.value.Filled := by
  cases curried with
  | waiting f missing collected => exact ⟨h.1, h.2.1⟩
  | result value => exact h

/-- A stage of filled values comes to a filled validation, without an absent error. -/
theorem Stage.keeps_apply {f : Value} (hf : f.Filled) {stage : Stage} (h : stage.toValue.Filled) :
    (stage.apply call f).Keeps Validation.Collected := by
  refine (keeps_require f "f" "apply").bind fun _ hp => ?_
  have hstart : (Gathered.values (Curried.waiting f stage.items.length [])).Sound Curried.Filled :=
    ⟨hp, hf, filledRow_nil⟩
  refine (Run.keeps_foldlM stage.items (fun g item hi hg => ?_) hstart).bind fun gathered hg => ?_
  · exact Gathered.keeps_add (Curried.keeps_feed hc) hg (filled_stage.mp h item hi)
  · exact Run.keeps_pure (Gathered.collected_toValidation (fun _ => Curried.filled_value) hg)

end

theorem Stage.keeps_ofList {items : List Value} (h : FilledRow items) :
    (ofList items).Keeps fun stage => stage.toValue.Filled := by
  unfold ofList
  cases items.findIdx? isAbsent with
  | some i => exact Run.keeps_throw _
  | none => exact Run.keeps_freshId.bind fun _ _ => Run.keeps_pure (filled_stage.mpr h)

theorem Stage.keeps_combine {next : Value} (hn : next.Filled) {stage : Stage}
    (h : stage.toValue.Filled) : (stage.combine next).Keeps fun stage => stage.toValue.Filled :=
  keeps_ofList ((filled_stage.mp h).append (filledRow_single hn))

theorem keeps_combine {items : List Value} (h : FilledRow items) :
    (combine items).Keeps fun stage => stage.toValue.Filled := by
  unfold combine
  split
  · exact Stage.keeps_ofList h
  · exact Run.keeps_throw _

theorem Validation.keeps_combine {other : Value} (ho : other.Filled) {v : Validation}
    (h : v.toValue.Filled) : (v.combine other).Keeps fun stage => stage.toValue.Filled := by
  refine (keeps_require other "other" "combine").bind fun _ _ => ?_
  exact Stage.keeps_ofList (.cons h (filledRow_single ho))

/-! ### Eithers -/

theorem Validation.filled_toEither {v : Validation} (h : v.toValue.Filled) :
    v.toEither.toValue.Filled := by
  cases v with
  | success value => exact filled_ok.mpr (filled_payload_success h)
  | failure error => exact filled_err.mpr (filled_payload_failure h)

/-- The payload of an either may be absent, but it does not get into a validation then. -/
theorem Validation.keeps_ofEither {e : Either} (h : e.toValue.Filled) :
    (Validation.ofEither e).Keeps fun v => v.toValue.Filled := by
  cases e with
  | ok value => exact keeps_succeed (filled_ok.mp h)
  | err error => exact keeps_fail (filled_err.mp h)

theorem Either.keeps_refuse (operation : String) (e : Either) :
    (e.refuse operation).Keeps Filled :=
  (Run.keeps_ofExcept_any _).bind fun _ _ => Run.keeps_throw _

theorem Either.keeps_unwrap {e : Either} (h : e.toValue.Filled) : e.unwrap.Keeps Filled := by
  cases e with
  | ok value => exact Run.keeps_pure (filled_ok.mp h)
  | err error => exact keeps_refuse _ _

theorem Either.keeps_unwrapErr {e : Either} (h : e.toValue.Filled) :
    e.unwrapErr.Keeps Filled := by
  cases e with
  | ok value => exact keeps_refuse _ _
  | err error => exact Run.keeps_pure (filled_err.mp h)

end Accrual
