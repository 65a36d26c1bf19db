import Accrual.Callback.Meaning
import Accrual.Proofs.Access.Logging
import Accrual.Proofs.Access.Validation

/-!
# How methods and callbacks get at the store

A method brings its arguments into order and runs the operation it stands for,
and a callback calls the functions it holds.  So both get at the store in the
steady ways only (`Value.method_cases`, `Callback.uses_apply`), if the functions
that are called do; and by induction on the depth of the calls all callbacks do
(`Callback.steady_calls`).
-/

namespace Accrual

variable {allowed : List Access.Kind}

namespace Method

def Bound.Uses (allowed : List Access.Kind) (bound : Bound) : Prop :=
  ∀ arguments : Arguments, (bound arguments).Uses allowed

theorem uses_taking {name : String} {parameters : List String} {body : List Value → Run Value}
    (hb : ∀ vs, (body vs).Uses allowed) : Bound.Uses allowed (taking name parameters body) :=
  fun _ => (Run.Uses.ofExcept _).bind hb

theorem uses_withNone {name : String} {body : Run Value} (hb : body.Uses allowed) :
    Bound.Uses allowed (withNone name body) := uses_taking fun _ => hb

theorem uses_withOne {name parameter : String} {body : Value → Run Value}
    (hb : ∀ v, (body v).Uses allowed) : Bound.Uses allowed (withOne name parameter body) := by
  refine uses_taking fun vs => ?_
  split
  next v => exact hb v
  next => exact .throw _

theorem uses_withTwo {name first second : String} {body : Value → Value → Run Value}
    (hb : ∀ v w, (body v w).Uses allowed) :
    Bound.Uses allowed (withTwo name first second body) := by
  refine uses_taking fun vs => ?_
  split
  next v w => exact hb v w
  next => exact .throw _

theorem uses_ofEither (e : Either) (method : Method) {bound : Bound}
    (hb : ofEither e method = some bound) : bound.Uses allowed := by
  cases method <;> cases hb
  case isOk => exact uses_withNone (.pure _)
  case isErr => exact uses_withNone (.pure _)
  case unwrap => exact uses_withNone (Either.uses_unwrap e)
  case unwrapErr => exact uses_withNone (Either.uses_unwrapErr e)

theorem uses_ofFault (fault : Fault) (method : Method) {bound : Bound}
    (hb : ofFault fault method = some bound) : bound.Uses allowed := by
  cases method <;> cases hb
  case render => exact uses_withNone (.pure _)

theorem uses_ofRenderer (hw : .write ∈ allowed) (renderer : Renderer) (method : Method)
    {bound : Bound} (hb : ofRenderer renderer method = some bound) : bound.Uses allowed := by
  cases method <;> cases hb
  case render =>
    refine uses_withOne fun v => ?_
    split
    · exact (Renderer.uses_render hw _ renderer).bind fun _ => .pure _
    · exact .throw _
    · exact .pure _

section

variable (h : [.renderer, .clock, .write] ⊆ allowed)
include h

theorem uses_logAt (name : String) (level : LevelName) (logger : Logger) :
    Bound.Uses allowed (logAt name level logger) := by
  intro arguments
  refine (Run.Uses.ofExcept _).bind ?_
  rintro ⟨values, fields⟩
  dsimp only
  split
  · split
    · exact Run.Uses.bind (.throw _) fun _ => (Logger.uses_log h _ _ _ _).bind fun _ => .pure _
    · exact (Logger.uses_log h _ _ _ _).bind fun _ => .pure _
  · exact .throw _

theorem uses_ofLogger (logger : Logger) (method : Method) {bound : Bound}
    (hb : ofLogger logger method = some bound) : bound.Uses allowed := by
  cases method <;> cases hb
  case bind => exact fun arguments => (Run.Uses.ofExcept _).bind fun _ => .pure _
  case unbind => exact fun arguments => (Run.Uses.ofExcept _).bind fun _ => .pure _
  case log =>
    intro arguments
    refine (Run.Uses.ofExcept _).bind ?_
    rintro ⟨values, fields⟩
    dsimp only
    split
    · exact (Logger.uses_log h _ _ _ _).bind fun _ => .pure _
    · exact .throw _
  case debug => exact uses_logAt h _ _ _
  case info => exact uses_logAt h _ _ _
  case warning => exact uses_logAt h _ _ _
  case error => exact uses_logAt h _ _ _

end

variable {call : Calls} (hc : call.Steady)
include hc

theorem uses_ofValidation (v : Validation) (method : Method) {bound : Bound}
    (hb : ofValidation call v method = some bound) : bound.Uses Access.steady := by
  cases method <;> cases hb
  case isSuccess => exact uses_withNone (.pure _)
  case isFailure => exact uses_withNone (.pure _)
  case isEmpty => exact uses_withNone (.pure _)
  case get => exact uses_withNone v.uses_get
  case getError => exact uses_withNone v.uses_getError
  case getOrElse => exact uses_withOne fun _ => .pure _
  case getOrCompute => exact uses_withOne fun f => v.uses_getOrCompute hc f
  case map => exact uses_withOne fun f => (v.uses_map hc f).bind fun _ => .pure _
  case mapError => exact uses_withOne fun f => (v.uses_mapError hc f).bind fun _ => .pure _
  case bimap => exact uses_withTwo fun f g => (v.uses_bimap hc f g).bind fun _ => .pure _
  case swap => exact uses_withNone (v.uses_swap.bind fun _ => .pure _)
  case fold => exact uses_withTwo fun f g => v.uses_fold hc f g
  case flatMap => exact uses_withOne fun f => (v.uses_flatMap hc f).bind fun _ => .pure _
  case filter => exact uses_withOne fun p => (v.uses_filter hc p).bind fun _ => .pure _
  case filterNot => exact uses_withOne fun p => (v.uses_filterNot hc p).bind fun _ => .pure _
  case peek => exact uses_withOne fun f => (v.uses_peek hc f).bind fun _ => .pure _
  case forEach => exact uses_withOne fun f => (v.uses_forEach hc f).bind fun _ => .pure _
  case ap => exact uses_withOne fun w => v.uses_ap hc w
  case apply => exact uses_withOne fun f => v.uses_apply hc f
  case combine =>
    exact uses_withOne fun w => (v.uses_combine (by decide) w).bind fun _ => .pure _
  case toEither => exact uses_withNone (.pure _)

theorem uses_ofStage (stage : Stage) (method : Method) {bound : Bound}
    (hb : ofStage call stage method = some bound) : bound.Uses Access.steady := by
  cases method
  case apply =>
    cases hb
    exact uses_withOne fun f => (stage.uses_apply hc f).bind fun _ => .pure _
  case combine =>
    simp only [ofStage] at hb
    split at hb
    · cases hb
      exact uses_withOne fun v => (Stage.uses_ofList (by decide) _).bind fun _ => .pure _
    · cases hb
  all_goals cases hb

/-- **All methods** get at the store in the steady ways. -/
theorem uses_find {v : Value} (method : Method) {bound : Bound}
    (hb : find? call v method = some bound) : bound.Uses Access.steady := by
  have hrenderer : (Renderer.ofValue? v).bind (fun renderer => ofRenderer renderer method) =
      some bound → bound.Uses Access.steady := by
    intro hr
    obtain ⟨renderer, _, hr⟩ := Option.bind_eq_some_iff.mp hr
    exact uses_ofRenderer (by decide) renderer method hr
  cases v with
  | success value => exact uses_ofValidation hc (.success value) method hb
  | failure error => exact uses_ofValidation hc (.failure error) method hb
  | stage id items => exact uses_ofStage hc ⟨id, items⟩ method hb
  | ok value => exact uses_ofEither (.ok value) method hb
  | err error => exact uses_ofEither (.err error) method hb
  | logger context renderer threshold =>
      exact uses_ofLogger (by decide) ⟨context, renderer, threshold⟩ method hb
  | fault fault => exact uses_ofFault fault method hb
  | _ => exact hrenderer hb

end Method

/-- Looking up a method does not get at the store, and what is found is a method of the value, or a
field that is called. -/
theorem Value.method_cases_of {call : Calls} {v : Value} {name : String}
    (hfind : ∀ method bound, Method.ofName? name = some method →
      Method.find? call v method = some bound → bound.Uses allowed)
    (hfield : ∀ f, v.field? name = some (.ok f) →
      ∀ arguments, (invoke call f arguments).Uses allowed) :
    (∃ bound, v.method call name = pure bound ∧ bound.Uses allowed) ∨
      ∃ error, v.method call name = throw error := by
  unfold method
  split
  next bound hb =>
    obtain ⟨method, hname, hb⟩ := Option.bind_eq_some_iff.mp hb
    exact .inl ⟨bound, rfl, hfind method bound hname hb⟩
  next f _ hf => exact .inl ⟨_, rfl, fun arguments => hfield f hf arguments.positional⟩
  next => exact .inr ⟨_, rfl⟩
  next => exact .inr ⟨_, rfl⟩

theorem Value.method_cases {call : Calls} (hc : call.Steady) (v : Value) (name : String) :
    (∃ bound, v.method call name = pure bound ∧ bound.Uses Access.steady) ∨
      ∃ error, v.method call name = throw error :=
  method_cases_of (fun method _ _ hb => Method.uses_find hc method hb)
    fun f _ arguments => uses_invoke hc f arguments

/-- A logger has no field but its context. -/
theorem Logger.field_eq {logger : Logger} {name : String} {v : Value}
    (h : logger.toValue.field? name = some (.ok v)) : v = .dictionary logger.context := by
  generalize hw : logger.toValue = w at h
  unfold Value.field? at h
  split at h <;> cases hw <;> cases h
  rfl

/-- A method of a logger: its context can be read but not called. -/
theorem Logger.method_cases (call : Calls) (logger : Logger) {name : String}
    (hb : ∀ method bound, Method.ofName? name = some method →
      Method.ofLogger logger method = some bound → bound.Uses allowed) :
    (∃ bound, logger.toValue.method call name = pure bound ∧ bound.Uses allowed) ∨
      ∃ error, logger.toValue.method call name = throw error := by
  refine Value.method_cases_of hb fun f hf arguments => ?_
  rw [field_eq hf]
  exact .throw _

/-! ### Callbacks -/

namespace Callback

theorem uses_withArgument (name : String) (arguments : List Value) {body : Value → Run Value}
    (hb : ∀ x, (body x).Uses allowed) : (withArgument name arguments body).Uses allowed := by
  unfold withArgument
  split
  next x => exact hb x
  next => exact .throw _

theorem uses_integer (name : String) (v : Value) : (integer name v).Uses allowed := by
  cases v with
  | int n => exact .pure n
  | _ => exact .throw _

theorem uses_written (text : Value → String) (v : Value) : (written text v).Uses allowed :=
  .ofExcept _

theorem uses_parsed (x : Value) : (parsed x).Uses allowed := by
  unfold parsed
  split
  · exact (Run.Uses.ofExcept _).bind fun _ => Validation.uses_succeed _
  · exact (uses_written _ _).bind fun _ => Validation.uses_fail _

variable {call : Calls} (hc : call.Steady)
include hc

/-- **A call of a callback** gets at the store in the steady ways, if the calls inside it do. -/
theorem uses_apply (callback : Callback Value) (arguments : List Value) :
    (callback.apply call arguments).Uses Access.steady := by
  cases callback with
  | identity => exact uses_withArgument _ _ fun x => .pure x
  | constant v => exact .pure v
  | tuple => exact .pure _
  | list => exact .pure _
  | literal => exact uses_withArgument _ _ fun x => (uses_written _ x).bind fun _ => .pure _
  | plain => exact uses_withArgument _ _ fun x => (uses_written _ x).bind fun _ => .pure _
  | join separator => exact (Run.Uses.mapM (uses_written _) arguments).bind fun _ => .pure _
  | enclose before after =>
      exact uses_withArgument _ _ fun x => (uses_written _ x).bind fun _ => .pure _
  | add n => exact uses_withArgument _ _ fun x => (uses_integer _ x).bind fun _ => .pure _
  | multiply n => exact uses_withArgument _ _ fun x => (uses_integer _ x).bind fun _ => .pure _
  | sum => exact (Run.Uses.mapM (uses_integer _) arguments).bind fun _ => .pure _
  | greaterThan n => exact uses_withArgument _ _ fun x => (uses_integer _ x).bind fun _ => .pure _
  | isEven => exact uses_withArgument _ _ fun x => (uses_integer _ x).bind fun _ => .pure _
  | equals v => exact uses_withArgument _ _ fun x => .pure _
  | length => exact uses_withArgument _ _ fun x => (Run.Uses.ofExcept _).bind fun _ => .pure _
  | nonblank => exact uses_withArgument _ _ fun x => .pure _
  | success =>
      exact uses_withArgument _ _ fun x => (Validation.uses_succeed x).bind fun _ => .pure _
  | failure => exact uses_withArgument _ _ fun x => (Validation.uses_fail x).bind fun _ => .pure _
  | parseInt => exact uses_withArgument _ _ fun x => (uses_parsed x).bind fun _ => .pure _
  | check predicate error =>
      refine uses_withArgument _ _ fun x => ?_
      refine (uses_invoke hc predicate [x]).bind fun passed => ?_
      split
      · exact (Validation.uses_succeed x).bind fun _ => .pure _
      · exact (Validation.uses_fail error).bind fun _ => .pure _
  | stop message => exact .throw _
  | stopIf predicate message =>
      refine uses_withArgument _ _ fun x => ?_
      refine (uses_invoke hc predicate [x]).bind fun stopped => ?_
      split
      · exact .throw _
      · exact .pure x
  | compose functions =>
      exact uses_withArgument _ _ fun x =>
        Run.Uses.foldlM (fun y f => uses_invoke hc f [y]) functions x
  | method name values =>
      refine uses_withArgument _ _ fun x => ?_
      obtain ⟨bound, hm, hb⟩ | ⟨error, hm⟩ := x.method_cases hc name
      · rw [hm, pure_bind]
        exact hb ⟨values, []⟩
      · rw [hm]
        exact .throw error
  | curry missing inner collected =>
      refine uses_withArgument _ _ fun x => ?_
      split
      · exact uses_invoke hc inner _
      · exact .define (by decide) _
  | trace tag inner =>
      exact (Run.Uses.noteCall (by decide) tag arguments).bind fun _ =>
        uses_invoke hc inner arguments

omit hc in
/-- A call looks its function up and applies what it finds. -/
theorem meaning_succ (bound : Nat) (f : FunctionRef) (arguments : List Value) :
    meaning (bound + 1) f arguments = ((Access.callback f.id).run >>= fun c =>
      c.elim (throw (.undefined f.name)) fun callback =>
        callback.apply (meaning bound) arguments) := by
  funext s
  rw [meaning, Run.get_bind, Access.run, bind_assoc, Run.get_bind, pure_bind]
  cases s.callbacks[f.id]? <;> rfl

omit hc in
/-- Calls nested up to a bound: what a function may call is nested one less deep. -/
theorem steady_meaning (bound : Nat) : (meaning bound).Steady := by
  induction bound with
  | zero => exact fun _ _ => .throw _
  | succ bound ih =>
      intro f arguments
      have hid : Access.Kind.callback ∈ Access.steady := by decide
      rw [meaning_succ]
      refine (Run.Uses.access (.callback f.id) hid).bind fun c => ?_
      cases c with
      | some callback => exact uses_apply ih callback arguments
      | none => exact .throw _

omit hc in
theorem steady_calls : calls.Steady := steady_meaning maxDepth

end Callback

end Accrual
