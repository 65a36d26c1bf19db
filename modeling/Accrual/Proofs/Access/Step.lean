import Accrual.Proofs.Access.Method
import Accrual.Session.Step

/-!
# How the steps of a session get at the store

Building arguments defines functions and does nothing else to the store
(`Term.uses_eval`).  Most operations get at it in the steady ways; the few that
change what is configured or the surroundings are listed with what they do
(`Operation.kinds`).  So each step is bounded by the operation it calls
(`Step.uses_run`).
-/

namespace Accrual

variable {allowed : List Access.Kind}

/-! ### Operations -/

namespace Operation

def kinds : Operation → List Access.Kind
  | getSettings | renderErrors => [.settings]
  | getLogger => [.threshold]
  | report => [.settings, .threshold, .renderer, .clock, .write]
  | clearSettings => [.clear]
  | configureLogging => [.configure]
  | resetLogging => [.reset]
  | setVariable => [.setEnvironment]
  | setDotEnv => [.setDotEnv]
  | setClock => [.setClock]
  | _ => Access.steady

theorem uses_unhashable (values : List Value) : (unhashable values).Uses allowed := by
  unfold unhashable
  cases Value.firstUnhashable? values with
  | some typeName => exact .throw _
  | none => exact .pure ()

theorem uses_fromEither (v : Value) :
    (do
      Accrual.require v "result" "from_either"
      match Either.ofValue? v with
      | some e => return (← Validation.ofEither e).toValue
      | none => throw (.noAttribute v.typeName "is_ok") : Run Value).Uses allowed := by
  refine (Run.Uses.require v _ _).bind fun _ => ?_
  cases Either.ofValue? v with
  | some e => exact (Validation.uses_ofEither e).bind fun _ => .pure _
  | none => exact .throw _

variable {call : Calls} (hc : call.Steady)
include hc

theorem uses_perform (operation : Operation) (values : List Value) :
    (operation.perform call values).Uses operation.kinds := by
  unfold perform
  -- the cases stand in the order of the rows of the definition; what fits none is refused
  split
  next => exact (Validation.uses_succeed _).bind fun _ => .pure _
  next => exact (Validation.uses_fail _).bind fun _ => .pure _
  next => exact uses_fromEither _
  next => exact (uses_sequence _).bind fun _ => .pure _
  next => exact (uses_traverse hc _ _).bind fun _ => .pure _
  next => exact .pure _
  next => exact .pure _
  next => exact (Run.Uses.ofExcept _).bind fun _ => .pure _
  next => exact (Run.Uses.ofExcept _).bind fun _ => .pure _
  next => exact (uses_renderErrors (by decide) _ _ _).bind fun _ => .pure _
  next => exact uses_report (by decide) _ _ _
  next => exact (Run.Uses.access .settings (by decide)).bind fun _ => .pure _
  next => exact (Run.Uses.access .clear (by decide)).bind fun _ => .pure _
  next format level output colors =>
    have hconfigure : Access.Kind.configure ∈ kinds configureLogging := by decide
    exact (Run.Uses.access (.configure format level output colors) hconfigure).bind fun _ => .pure _
  next => exact (Run.Uses.access .reset (by decide)).bind fun _ => .pure _
  next =>
    split
    · refine (Run.Uses.ofExcept _).bind fun _ => ?_
      exact (Run.Uses.access .freshId (by decide)).bind fun _ => .pure _
    · exact .throw _
  next => exact (Run.Uses.ofExcept _).bind fun _ => .pure _
  next => exact (Run.Uses.ofExcept _).bind fun _ => .pure _
  next => exact .pure _
  next => exact .pure _
  next => exact .pure _
  next => exact (uses_elementsOf _).bind fun _ => .pure _
  next => exact (uses_unhashable _).bind fun _ => .pure _
  next => exact .pure _
  next name content =>
    have hset : Access.Kind.setEnvironment ∈ kinds setVariable := by decide
    exact (Run.Uses.access (.setEnvironment fun e => assignVariable e name (some content))
      hset).bind fun _ => .pure _
  next name =>
    have hset : Access.Kind.setEnvironment ∈ kinds setVariable := by decide
    exact (Run.Uses.access (.setEnvironment fun e => assignVariable e name none) hset).bind
      fun _ => .pure _
  next content =>
    have hset : Access.Kind.setDotEnv ∈ kinds setDotEnv := by decide
    exact (Run.Uses.access (.setDotEnv content) hset).bind fun _ => .pure _
  next seconds micros =>
    have hset : Access.Kind.setClock ∈ kinds setClock := by decide
    exact (Run.Uses.access (.setClock (.ofReading seconds micros)) hset).bind fun _ => .pure _
  next => exact .throw _

/-- **An operation** gets at the store in its own ways only. -/
theorem uses_run (operation : Operation) (arguments : Arguments) :
    (operation.run call arguments).Uses operation.kinds := by
  have hperform : ∀ (name : String), (do
      operation.perform call (← Run.ofExcept (arguments.take name operation.parameters)) :
        Run Value).Uses operation.kinds :=
    fun _ => (Run.Uses.ofExcept _).bind (uses_perform hc operation)
  unfold run
  split
  · refine (Run.Uses.ofExcept _).bind fun row => ?_
    exact (uses_combine (by decide) row).bind fun _ => .pure _
  · exact (uses_unhashable _).bind fun _ => .pure _
  · exact (Run.Uses.ofExcept _).bind fun _ => .pure _
  · exact (Run.Uses.ofExcept _).bind fun _ => .pure _
  · split
    next => exact (uses_getLogger (by decide) _ _).bind fun _ => .pure _
    next => exact (uses_getLogger (by decide) _ _).bind fun _ => .pure _
    next => exact .throw _
    next => exact .throw _
  · exact hperform _

end Operation

/-! ### Terms -/

namespace Term

variable (registers : Registers)

mutual

theorem uses_eval (hd : .define ∈ allowed) (term : Term) : (term.eval registers).Uses allowed := by
  match term with
  | .absent | .bool _ | .int _ | .text _ | .jsonRenderer | .silentRenderer | .stream _ =>
      exact .pure _
  | .list items | .tuple items => exact (uses_evalAll hd items).bind fun _ => .pure _
  | .dictionary entries => exact (uses_evalEntries hd [] entries).bind fun _ => .pure _
  | .success v =>
      refine (uses_eval hd v).bind fun _ => ?_
      exact (Validation.uses_succeed _).bind fun _ => .pure _
  | .failure v =>
      refine (uses_eval hd v).bind fun _ => ?_
      exact (Validation.uses_fail _).bind fun _ => .pure _
  | .ok v | .err v => exact (uses_eval hd v).bind fun _ => .pure _
  | .violation field message shown =>
      refine (uses_eval hd field).bind fun _ => ?_
      refine (uses_eval hd message).bind fun _ => ?_
      refine (uses_eval hd shown).bind fun _ => ?_
      exact (Run.Uses.ofExcept _).bind fun _ => .pure _
  | .callback c => exact (uses_evalCallback hd c).bind (.define hd)
  | .consoleRenderer colors _ => exact (uses_eval hd colors).bind fun _ => .pure _
  | .logger context r threshold =>
      refine (uses_evalEntries hd [] context).bind fun _ => ?_
      refine (uses_eval hd r).bind fun _ => ?_
      exact (uses_eval hd threshold).bind fun _ => .pure _
  | .entry _ _ event context =>
      refine (uses_eval hd event).bind fun _ => ?_
      exact (uses_evalEntries hd [] context).bind fun _ => .pure _
  | .register name =>
      unfold eval
      split
      · exact .pure _
      · exact .throw _
termination_by structural term

theorem uses_evalAll (hd : .define ∈ allowed) (terms : List Term) :
    (evalAll registers terms).Uses allowed := by
  match terms with
  | [] => exact .pure _
  | term :: rest =>
      refine (uses_eval hd term).bind fun _ => ?_
      exact (uses_evalAll hd rest).bind fun _ => .pure _
termination_by structural terms

theorem uses_evalEntries (hd : .define ∈ allowed) (entries : Entries) (terms : List (Term × Term)) :
    (evalEntries registers entries terms).Uses allowed := by
  match terms with
  | [] => exact .pure _
  | (key, content) :: rest =>
      refine (uses_eval hd key).bind fun key => ?_
      refine (uses_eval hd content).bind fun content => ?_
      cases key.unhashable? with
      | some typeName => exact .throw _
      | none => exact uses_evalEntries hd _ rest
termination_by structural terms

theorem uses_evalCallback (hd : .define ∈ allowed) (callback : Callback Term) :
    (evalCallback registers callback).Uses allowed := by
  match callback with
  | .identity | .tuple | .list | .literal | .plain | .join _ | .enclose _ _ | .add _ | .multiply _
  | .sum | .greaterThan _ | .isEven | .length | .nonblank | .success | .failure | .parseInt
  | .stop _ => exact .pure _
  | .constant v | .equals v | .trace _ v | .stopIf v _ =>
      exact (uses_eval hd v).bind fun _ => .pure _
  | .check predicate error =>
      refine (uses_eval hd predicate).bind fun _ => ?_
      exact (uses_eval hd error).bind fun _ => .pure _
  | .compose terms | .method _ terms => exact (uses_evalAll hd terms).bind fun _ => .pure _
  | .curry _ inner collected =>
      refine (uses_eval hd inner).bind fun _ => ?_
      exact (uses_evalAll hd collected).bind fun _ => .pure _
termination_by structural callback

end

end Term

/-! ### Steps -/

namespace Step

def operation? (step : Step) : Option Operation :=
  match step.target with
  | .operation name => Operation.ofName? name
  | _ => none

/-- The ways in which a step gets at the store: arguments may define functions. -/
def kinds (step : Step) : List Access.Kind :=
  match step.operation? with
  | some operation => .define :: operation.kinds
  | none => Access.steady

variable (registers : Registers)

theorem uses_evalNamed (hd : .define ∈ allowed) (named : List (String × Term)) :
    (evalNamed registers named).Uses allowed := by
  induction named with
  | nil => exact .pure _
  | cons argument rest ih =>
      obtain ⟨name, term⟩ := argument
      refine (Term.uses_eval registers hd term).bind fun v => ?_
      exact ih.bind fun vs => .pure _

theorem uses_arguments (hd : .define ∈ allowed) (step : Step) :
    (step.arguments registers).Uses allowed := by
  refine (Term.uses_evalAll registers hd step.positional).bind fun vs => ?_
  exact (uses_evalNamed registers hd step.named).bind fun ns => .pure _

/-- **A step** gets at the store in the ways of the operation it calls, or in the steady ones. -/
theorem uses_run {call : Calls} (hc : call.Steady) (step : Step) :
    (step.run call registers).Uses step.kinds := by
  unfold run
  split
  next name ht =>
    cases ho : Operation.ofName? name with
    | none => exact .throw _
    | some operation =>
        have hk : step.kinds = .define :: operation.kinds := by simp [kinds, operation?, ht, ho]
        rw [hk]
        refine (uses_arguments registers List.mem_cons_self step).bind fun arguments => ?_
        exact (Operation.uses_run hc operation arguments).mono (List.subset_cons_self _ _)
  next on name ht =>
    have hk : step.kinds = Access.steady := by simp [kinds, operation?, ht]
    have hd : .define ∈ Access.steady := by decide
    rw [hk]
    refine (Term.uses_eval registers hd on).bind fun v => ?_
    obtain ⟨bound, hm, hb⟩ | ⟨error, hm⟩ := v.method_cases hc name
    · rw [hm, pure_bind]
      exact (uses_arguments registers hd step).bind hb
    · rw [hm]
      exact .throw error
  next on name ht =>
    have hk : step.kinds = Access.steady := by simp [kinds, operation?, ht]
    rw [hk]
    exact (Term.uses_eval registers (by decide) on).bind fun v => .ofExcept _

/-! ### Plain arguments -/

end Step

def Term.isPlain : Term → Bool
  | .absent | .bool _ | .int _ | .text _ | .register _ => true
  | _ => false

theorem Term.uses_eval_plain (registers : Registers) {term : Term} (h : term.isPlain = true) :
    (term.eval registers).Uses allowed := by
  cases term with
  | absent | bool _ | int _ | text _ => exact .pure _
  | register name =>
      unfold eval
      split
      · exact .pure _
      · exact .throw _
  | _ => cases h

namespace Step

def isPlain (step : Step) : Bool :=
  step.positional.all Term.isPlain && step.named.all fun argument => argument.2.isPlain

variable (registers : Registers)

theorem uses_arguments_plain {step : Step} (h : step.isPlain = true) :
    (step.arguments registers).Uses allowed := by
  have hall : ∀ terms : List Term, (∀ t ∈ terms, t.isPlain = true) →
      (Term.evalAll registers terms).Uses allowed := by
    intro terms ht
    induction terms with
    | nil => exact .pure _
    | cons term rest ih =>
        obtain ⟨hterm, hrest⟩ := List.forall_mem_cons.mp ht
        refine (Term.uses_eval_plain registers hterm).bind fun v => ?_
        exact (ih hrest).bind fun vs => .pure _
  have hnamed : ∀ named : List (String × Term), (∀ a ∈ named, a.2.isPlain = true) →
      (evalNamed registers named).Uses allowed := by
    intro named ht
    induction named with
    | nil => exact .pure _
    | cons argument rest ih =>
        obtain ⟨hterm, hrest⟩ := List.forall_mem_cons.mp ht
        refine (Term.uses_eval_plain registers hterm).bind fun v => ?_
        exact (ih hrest).bind fun vs => .pure _
  simp only [isPlain, Bool.and_eq_true, List.all_eq_true] at h
  refine (hall _ h.1).bind fun vs => ?_
  exact (hnamed _ h.2).bind fun ns => .pure _

/-- **A step with plain arguments** gets at the store in the ways of its operation alone. -/
theorem uses_run_plain {call : Calls} (hc : call.Steady) {step : Step} (h : step.isPlain = true)
    {operation : Operation} (ho : step.operation? = some operation) :
    (step.run call registers).Uses operation.kinds := by
  unfold operation? at ho
  unfold run
  split at ho
  next name ht =>
    rw [ht]
    dsimp only
    rw [ho]
    exact (uses_arguments_plain registers h).bind (Operation.uses_run hc operation)
  next => cases ho

end Step

end Accrual
