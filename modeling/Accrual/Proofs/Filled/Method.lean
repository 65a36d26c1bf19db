import Accrual.Interface.Method
import Accrual.Proofs.Filled.Logging

/-!
# Methods of filled values

The arguments of a call are brought into the order of the parameters, and no
value is made on the way.  So a method of a filled value, called with filled
arguments, comes to a filled value (`Method.keeps_find`), and the same holds of
a field that is called as a function (`Value.keeps_method`).
-/

namespace Accrual

open Value

/-! ### Arguments -/

namespace Arguments

structure Filled (arguments : Arguments) : Prop where
  positional : FilledRow arguments.positional
  named : ∀ argument ∈ arguments.named, argument.2.Filled

theorem Filled.byName {arguments : Arguments} (h : arguments.Filled) {name : String} {v : Value}
    (hv : arguments.byName? name = some v) : v.Filled :=
  h.named (name, v) (mem_of_lookup hv)

theorem filled_assign {function : String} {arguments : Arguments} (h : arguments.Filled) :
    ∀ (parameters : List Parameter) (vs : List Value),
      (∀ p ∈ parameters, ∀ v ∈ p.fallback, v.Filled) → FilledRow vs →
      ∀ {ws : List Value}, arguments.assign function parameters vs = .ok ws → FilledRow ws := by
  intro parameters
  induction parameters with
  | nil =>
      intro vs _ _ ws ha
      cases vs with
      | nil => cases ha; exact filledRow_nil
      | cons v vs => cases ha
  | cons p ps ih =>
      intro vs hp hvs ws ha
      obtain ⟨hfallback, hps⟩ := List.forall_mem_cons.mp hp
      have hcons : ∀ {v : Value} {vs : List Value}, v.Filled → FilledRow vs →
          ∀ {ws : List Value}, (v :: ·) <$> assign function arguments ps vs = .ok ws →
            FilledRow ws := by
        intro v vs hv hvs ws hw
        cases hrest : assign function arguments ps vs with
        | error error => rw [hrest] at hw; cases hw
        | ok rest =>
            rw [hrest] at hw
            cases hw
            exact .cons hv (ih vs hps hvs hrest)
      unfold assign at ha
      split at ha
      next v vs _ =>
        obtain ⟨hv, hvs⟩ := List.forall_mem_cons.mp hvs
        split at ha
        · cases ha
        · exact hcons hv hvs ha
      next =>
        split at ha
        next v hv =>
          refine hcons ?_ hvs ha
          rcases Option.or_eq_some_iff.mp hv with hv | ⟨_, hv⟩
          · exact h.byName hv
          · exact hfallback v hv
        next => cases ha

theorem Filled.filled_take {function : String} {arguments : Arguments} (h : arguments.Filled)
    {parameters : List Parameter} (hp : ∀ p ∈ parameters, ∀ v ∈ p.fallback, v.Filled)
    {ws : List Value} (ht : arguments.take function parameters = .ok ws) : FilledRow ws := by
  unfold take at ht
  split at ht
  · exact filled_assign h parameters _ hp h.positional ht
  · cases ht

theorem Filled.filled_row {function : String} {arguments : Arguments} (h : arguments.Filled)
    {vs : List Value} (hr : arguments.row function = .ok vs) : FilledRow vs := by
  unfold row at hr
  split at hr
  · cases hr
    exact h.positional
  · cases hr

theorem Filled.filled_split {function : String} {receiver parameters : List String}
    {arguments : Arguments} (h : arguments.Filled) {values : List Value} {fields : Entries}
    (hs : arguments.split function receiver parameters = .ok (values, fields)) :
    FilledRow values ∧ Entries.Filled fields := by
  simp only [split] at hs
  split at hs
  · cases hs
  split at hs
  · cases hs
  split at hs
  · cases hs
    refine ⟨h.positional.append ?_, Entries.filled_ofTexts ?_⟩
    · intro v hv
      simp only [List.mem_filterMap, List.mem_map, id] at hv
      obtain ⟨_, ⟨name, _, rfl⟩, hv⟩ := hv
      exact h.byName hv
    · intro f hf
      exact h.named f (List.mem_filter.mp hf).1
  · cases hs

end Arguments

/-! ### Bound methods -/

namespace Method

def Bound.KeepsFilled (bound : Bound) : Prop :=
  ∀ arguments : Arguments, arguments.Filled → (bound arguments).Keeps Filled

theorem keeps_taking {name : String} {parameters : List String} {body : List Value → Run Value}
    (hb : ∀ vs, FilledRow vs → (body vs).Keeps Filled) :
    Bound.KeepsFilled (taking name parameters body) := by
  intro arguments h
  refine (Run.keeps_ofExcept fun vs hv => h.filled_take ?_ hv).bind hb
  intro p hp v hv
  obtain ⟨_, _, rfl⟩ := List.mem_map.mp hp
  cases hv

theorem keeps_withNone {name : String} {body : Run Value} (hb : body.Keeps Filled) :
    Bound.KeepsFilled (withNone name body) := keeps_taking fun _ _ => hb

theorem keeps_withOne {name parameter : String} {body : Value → Run Value}
    (hb : ∀ v, v.Filled → (body v).Keeps Filled) :
    Bound.KeepsFilled (withOne name parameter body) := by
  refine keeps_taking fun vs h => ?_
  split
  next v => exact hb v h.head
  next => exact Run.keeps_throw _

theorem keeps_withTwo {name first second : String} {body : Value → Value → Run Value}
    (hb : ∀ v w, v.Filled → w.Filled → (body v w).Keeps Filled) :
    Bound.KeepsFilled (withTwo name first second body) := by
  refine keeps_taking fun vs h => ?_
  split
  next v w => exact hb v w h.head h.tail.head
  next => exact Run.keeps_throw _

theorem filled_optional {v : Option Validation} (h : ∀ u ∈ v, u.toValue.Filled) :
    (optional v).Filled := by
  cases v with
  | none => exact filled_absent
  | some v => exact h v rfl

variable {call : Calls} (hc : call.KeepFilled)
include hc

theorem keeps_ofValidation (v : Validation) (h : v.toValue.Filled) (method : Method)
    {bound : Bound} (hb : ofValidation call v method = some bound) : bound.KeepsFilled := by
  cases method <;> cases hb
  case isSuccess => exact keeps_withNone (Run.keeps_pure (filled_bool _))
  case isFailure => exact keeps_withNone (Run.keeps_pure (filled_bool _))
  case isEmpty => exact keeps_withNone (Run.keeps_pure (filled_bool _))
  case get => exact keeps_withNone (Validation.keeps_get h)
  case getError => exact keeps_withNone (Validation.keeps_getError h)
  case getOrElse =>
    exact keeps_withOne fun w hw => Run.keeps_pure (Validation.filled_getOrElse h hw)
  case getOrCompute => exact keeps_withOne fun f _ => Validation.keeps_getOrCompute hc f h
  case map =>
    exact keeps_withOne fun f _ => (Validation.keeps_map hc f h).bind fun _ => Run.keeps_pure
  case mapError =>
    exact keeps_withOne fun f _ => (Validation.keeps_mapError hc f h).bind fun _ => Run.keeps_pure
  case bimap =>
    exact keeps_withTwo fun f g _ _ =>
      (Validation.keeps_bimap hc f g h).bind fun _ => Run.keeps_pure
  case swap => exact keeps_withNone ((Validation.keeps_swap h).bind fun _ => Run.keeps_pure)
  case fold => exact keeps_withTwo fun f g _ _ => Validation.keeps_fold hc f g h
  case flatMap =>
    exact keeps_withOne fun f _ => (Validation.keeps_flatMap hc f h).bind fun _ => Run.keeps_pure
  case filter =>
    exact keeps_withOne fun p _ =>
      (Validation.keeps_filter hc p h).bind fun _ hw => Run.keeps_pure (filled_optional hw)
  case filterNot =>
    exact keeps_withOne fun p _ =>
      (Validation.keeps_filterNot hc p h).bind fun _ hw => Run.keeps_pure (filled_optional hw)
  case peek =>
    exact keeps_withOne fun f _ => (Validation.keeps_peek hc f h).bind fun _ => Run.keeps_pure
  case forEach =>
    exact keeps_withOne fun f _ =>
      (Validation.keeps_forEach hc f h).bind fun _ _ => Run.keeps_pure filled_absent
  case ap => exact keeps_withOne fun w hw => Validation.keeps_ap hc hw h
  case apply =>
    exact keeps_withOne fun f _ => (Validation.keeps_apply hc f h).mono fun _ hr => hr.1
  case combine =>
    exact keeps_withOne fun w hw => (Validation.keeps_combine hw h).bind fun _ => Run.keeps_pure
  case toEither => exact keeps_withNone (Run.keeps_pure (Validation.filled_toEither h))

theorem keeps_ofStage (stage : Stage) (h : stage.toValue.Filled) (method : Method)
    {bound : Bound} (hb : ofStage call stage method = some bound) : bound.KeepsFilled := by
  cases method
  case apply =>
    cases hb
    exact keeps_withOne fun f hf =>
      (Stage.keeps_apply hc hf h).bind fun _ hv => Run.keeps_pure hv.filled
  case combine =>
    simp only [ofStage] at hb
    split at hb
    · cases hb
      exact keeps_withOne fun v hv => (Stage.keeps_combine hv h).bind fun _ => Run.keeps_pure
    · cases hb
  all_goals cases hb

omit hc in
theorem keeps_ofEither (e : Either) (h : e.toValue.Filled) (method : Method)
    {bound : Bound} (hb : ofEither e method = some bound) : bound.KeepsFilled := by
  cases method <;> cases hb
  case isOk => exact keeps_withNone (Run.keeps_pure (filled_bool _))
  case isErr => exact keeps_withNone (Run.keeps_pure (filled_bool _))
  case unwrap => exact keeps_withNone (Either.keeps_unwrap h)
  case unwrapErr => exact keeps_withNone (Either.keeps_unwrapErr h)

omit hc in
theorem keeps_logAt (name : String) (level : LevelName) (logger : Logger) :
    Bound.KeepsFilled (logAt name level logger) := by
  intro arguments _
  refine (Run.keeps_ofExcept_any _).bind ?_
  rintro ⟨values, fields⟩ _
  dsimp only
  split
  · split
    · exact Run.Keeps.bind (P := fun _ => False) (Run.keeps_throw _) fun _ h => h.elim
    · exact (Logger.keeps_log _ _ _ _).bind fun _ _ => Run.keeps_pure filled_absent
  · exact Run.keeps_throw _

omit hc in
theorem keeps_ofLogger (logger : Logger) (h : logger.toValue.Filled) (method : Method)
    {bound : Bound} (hb : ofLogger logger method = some bound) : bound.KeepsFilled := by
  cases method <;> cases hb
  case bind =>
    intro arguments ha
    refine (Run.keeps_ofExcept fun _ hs => ha.filled_split hs).bind fun _ hs => ?_
    exact Run.keeps_pure (Logger.filled_bind h hs.2)
  case unbind =>
    intro arguments _
    refine (Run.keeps_ofExcept_any _).bind fun keys _ => ?_
    exact Run.keeps_pure (Logger.filled_unbind h keys)
  case log =>
    intro arguments _
    refine (Run.keeps_ofExcept_any _).bind ?_
    rintro ⟨values, fields⟩ _
    dsimp only
    split
    · exact (Logger.keeps_log _ _ _ _).bind fun _ _ => Run.keeps_pure filled_absent
    · exact Run.keeps_throw _
  case debug => exact keeps_logAt _ _ _
  case info => exact keeps_logAt _ _ _
  case warning => exact keeps_logAt _ _ _
  case error => exact keeps_logAt _ _ _

omit hc in
theorem keeps_ofRenderer (renderer : Renderer) (method : Method)
    {bound : Bound} (hb : ofRenderer renderer method = some bound) : bound.KeepsFilled := by
  cases method <;> cases hb
  case render =>
    refine keeps_withOne fun v _ => ?_
    split
    · exact (Renderer.keeps_render _ renderer).bind fun _ _ => Run.keeps_pure filled_absent
    · exact Run.keeps_throw _
    · exact Run.keeps_pure filled_absent

omit hc in
theorem keeps_ofFault (fault : Fault) (method : Method)
    {bound : Bound} (hb : ofFault fault method = some bound) : bound.KeepsFilled := by
  cases method <;> cases hb
  case render => exact keeps_withNone (Run.keeps_pure (filled_text _))

/-- **The methods of a filled value** come to filled values. -/
theorem keeps_find {v : Value} (h : v.Filled) (method : Method) {bound : Bound}
    (hb : find? call v method = some bound) : bound.KeepsFilled := by
  have hrenderer : (Renderer.ofValue? v).bind (fun renderer => ofRenderer renderer method) =
      some bound → bound.KeepsFilled := by
    intro hr
    obtain ⟨renderer, _, hr⟩ := Option.bind_eq_some_iff.mp hr
    exact keeps_ofRenderer renderer method hr
  cases v with
  | success value => exact keeps_ofValidation hc (.success value) h method hb
  | failure error => exact keeps_ofValidation hc (.failure error) h method hb
  | stage id items => exact keeps_ofStage hc ⟨id, items⟩ h method hb
  | ok value => exact keeps_ofEither (.ok value) h method hb
  | err error => exact keeps_ofEither (.err error) h method hb
  | logger context renderer threshold =>
      exact keeps_ofLogger ⟨context, renderer, threshold⟩ h method hb
  | fault fault => exact keeps_ofFault fault method hb
  | _ => exact hrenderer hb

end Method

/-! ### Fields -/

namespace Value

/-- A field of a filled value is filled. -/
theorem filled_field {v : Value} (h : v.Filled) {name : String} {w : Value}
    (hw : v.field? name = some (.ok w)) : w.Filled := by
  have hrecord : (v.recordFields?.bind fun fields => fields.lookup name).map .ok =
      some (Except.ok w : Except Error Value) → w.Filled := by
    intro hr
    obtain ⟨u, hu, hok⟩ := Option.map_eq_some_iff.mp hr
    cases hok
    obtain ⟨fields, hfields, hl⟩ := Option.bind_eq_some_iff.mp hu
    exact filled_recordFields hfields (name, w) (mem_of_lookup hl)
  have htime : ∀ time : Except Error (List Char),
      some ((fun cs => text (String.ofList cs)) <$> time) = some (Except.ok w) → w.Filled := by
    rintro (error | cs) ht
    · cases ht
    · cases ht
      exact filled_text _
  unfold field? at hw
  -- in the order of the rows of the definition: the records come last
  split at hw
  · cases hw; exact (filled_success.mp h).2
  · cases hw; exact (filled_failure.mp h).2
  · cases hw; exact filled_text _
  · cases hw; exact filled_text _
  · cases hw; exact filled_of_parts_nil rfl
  · cases hw; exact filled_code _
  · cases hw; exact filled_dictionary.mpr (filled_logger.mp h).2.2
  · cases hw; exact (filled_consoleRenderer.mp h).2
  · cases hw; exact filled_bool _
  · cases hw; exact (filled_consoleRenderer.mp h).1
  · cases hw; exact filled_jsonRenderer.mp h
  · exact htime _ hw
  · exact htime _ hw
  · cases hw; exact filled_text _
  · cases hw; exact (filled_entry.mp h).1
  · cases hw; exact filled_dictionary.mpr (filled_entry.mp h).2
  · exact hrecord hw

/-- **The methods of a filled value by name**, and its fields called as functions, come to filled
values. -/
theorem keeps_method {call : Calls} (hc : call.KeepFilled) {v : Value} (h : v.Filled)
    (name : String) : (v.method call name).Keeps Method.Bound.KeepsFilled := by
  unfold method
  split
  next bound _ hb =>
    obtain ⟨method, _, hb⟩ := Option.bind_eq_some_iff.mp hb
    exact Run.keeps_pure (Method.keeps_find hc h method hb)
  next f _ hf =>
    refine Run.keeps_pure fun arguments ha => ?_
    exact keeps_invoke hc f ha.positional
  next => exact Run.keeps_throw _
  next => exact Run.keeps_throw _

end Value

end Accrual
