import Accrual.Interface.Operation
import Accrual.Proofs.Filled.Method

/-!
# Operations on filled values

The operations that belong to no value.  Each comes to a filled value from
filled arguments; those that change the surroundings, the settings or the
logging in force keep the store filled.
-/

namespace Accrual

open Value

namespace Operation

theorem filled_fallback (operation : Operation) :
    ∀ p ∈ operation.parameters, ∀ v ∈ p.fallback, v.Filled := by
  cases operation <;>
    simp [parameters, Parameter.required, Parameter.optional, Parameter.option]

theorem keeps_changeSurroundings (change : Surroundings → Surroundings) :
    (changeSurroundings change).Keeps Filled := by
  refine (Run.keeps_modify fun s hs => ?_).bind fun _ _ => Run.keeps_pure filled_absent
  exact ⟨hs.renderer, hs.threshold, hs.calls, hs.callbacks⟩

theorem keeps_unhashable (values : List Value) : (unhashable values).Keeps fun _ => True := by
  unfold unhashable
  cases firstUnhashable? values with
  | some typeName => exact Run.keeps_throw _
  | none => exact Run.keeps_pure trivial

theorem filled_shapeOf {v : Value} (h : v.Filled) : (shapeOf v).Filled := by
  have hpair : ∀ (s : String) {w : Value}, w.Filled → (list [text s, w]).Filled :=
    fun s w hw => filled_list.mpr (.cons (filled_text s) (filledRow_single hw))
  unfold shapeOf
  split
  · exact hpair _ (filled_success.mp h).2
  · exact hpair _ (filled_failure.mp h).2
  · exact hpair _ (filled_ok.mp h)
  · exact hpair _ (filled_err.mp h)
  · exact filled_list.mpr (filledRow_single (filled_text _))

/-- The two sides of a conversion: what is no either is refused. -/
theorem keeps_fromEither {v : Value} (h : v.Filled) :
    (do
      Accrual.require v "result" "from_either"
      match Either.ofValue? v with
      | some e => return (← Validation.ofEither e).toValue
      | none => throw (.noAttribute v.typeName "is_ok") : Run Value).Keeps Filled := by
  refine (keeps_require v _ _).bind fun _ _ => ?_
  cases v with
  | ok value => exact (Validation.keeps_ofEither (e := .ok value) h).bind fun _ => Run.keeps_pure
  | err error => exact (Validation.keeps_ofEither (e := .err error) h).bind fun _ => Run.keeps_pure
  | _ => exact Run.keeps_throw _

variable {call : Calls} (hc : call.KeepFilled)
include hc

theorem keeps_perform (operation : Operation) {values : List Value} (h : FilledRow values) :
    (operation.perform call values).Keeps Filled := by
  unfold perform
  -- the cases stand in the order of the rows of the definition; what fits none is refused
  split
  next => exact (Validation.keeps_succeed h.head).bind fun _ => Run.keeps_pure
  next => exact (Validation.keeps_fail h.head).bind fun _ => Run.keeps_pure
  next => exact keeps_fromEither h.head
  next => exact (keeps_sequence h.head).bind fun _ hv => Run.keeps_pure hv.filled
  next => exact (keeps_traverse hc h.head _).bind fun _ hv => Run.keeps_pure hv.filled
  next => exact Run.keeps_pure (filled_ok.mpr h.head)
  next => exact Run.keeps_pure (filled_err.mpr h.head)
  next => exact (Run.keeps_ofExcept_any _).bind fun _ _ => Run.keeps_pure filled_absent
  next =>
    exact (Run.keeps_ofExcept_any _).bind fun _ _ => Run.keeps_pure (filled_of_parts_nil rfl)
  next =>
    exact (keeps_renderErrors _ _ _).bind fun _ _ => Run.keeps_pure (filled_text _)
  next => exact keeps_report h.head h.tail.head _
  next => exact keeps_getSettings.bind fun _ _ => Run.keeps_pure (filled_of_parts_nil rfl)
  next => exact keeps_clearSettings.bind fun _ _ => Run.keeps_pure filled_absent
  next =>
    exact (Logging.keeps_configure _ _ h.tail.tail.head h.tail.tail.tail.head).bind
      fun _ => Run.keeps_pure
  next => exact Logging.keeps_reset.bind fun _ _ => Run.keeps_pure filled_absent
  next =>
    split
    · refine (Run.keeps_ofExcept_any _).bind fun _ _ => Run.keeps_freshId.bind fun _ _ => ?_
      exact Run.keeps_pure (filled_of_parts_nil rfl)
    · exact Run.keeps_throw _
  next => exact (Run.keeps_ofExcept_any _).bind fun _ _ => Run.keeps_pure (filled_text _)
  next => exact (Run.keeps_ofExcept_any _).bind fun _ _ => Run.keeps_pure (filled_text _)
  next => exact Run.keeps_pure (filled_bool _)
  next => exact Run.keeps_pure (filled_bool _)
  next => exact Run.keeps_pure (filled_bool _)
  next => exact (keeps_elementsOf h.head).bind fun _ hv => Run.keeps_pure (filled_list.mpr hv)
  next => exact (keeps_unhashable _).bind fun _ _ => Run.keeps_pure (filled_bool _)
  next => exact Run.keeps_pure (filled_shapeOf h.head)
  next => exact keeps_changeSurroundings _
  next => exact keeps_changeSurroundings _
  next => exact keeps_changeSurroundings _
  next => exact keeps_changeSurroundings _
  next => exact Run.keeps_throw _

/-- **Every operation** comes to a filled value from filled arguments. -/
theorem keeps_run (operation : Operation) {arguments : Arguments} (h : arguments.Filled) :
    (operation.run call arguments).Keeps Filled := by
  have hperform : ∀ name : String,
      (do operation.perform call
            (← Run.ofExcept (arguments.take name operation.parameters))).Keeps Filled := by
    intro name
    refine (Run.keeps_ofExcept fun vs hv => ?_).bind fun vs hvs => keeps_perform hc operation hvs
    exact h.filled_take (filled_fallback operation) hv
  unfold run
  split
  · refine (Run.keeps_ofExcept fun _ hr => h.filled_row hr).bind fun vs hv => ?_
    exact (keeps_combine hv).bind fun _ => Run.keeps_pure
  · exact (keeps_unhashable _).bind fun _ _ => Run.keeps_pure (filled_int _)
  · exact (Run.keeps_ofExcept_any _).bind fun _ _ => Run.keeps_pure (filled_of_parts_nil rfl)
  · exact (Run.keeps_ofExcept_any _).bind fun _ _ => Run.keeps_pure (filled_of_parts_nil rfl)
  · have hfields : Entries.Filled (Entries.ofTexts
        (arguments.named.filter fun argument => argument.1 != "name")) :=
      Entries.filled_ofTexts fun f hf => h.named f (List.mem_filter.mp hf).1
    split
    next =>
      refine (keeps_getLogger ?_ hfields).bind fun _ => Run.keeps_pure
      cases hn : arguments.byName? "name" with
      | none => exact filled_absent
      | some v => exact h.byName hn
    next name hp _ =>
      refine (keeps_getLogger ?_ hfields).bind fun _ => Run.keeps_pure
      exact (hp ▸ h.positional).head
    next => exact Run.keeps_throw _
    next => exact Run.keeps_throw _
  · exact hperform _

end Operation

end Accrual
