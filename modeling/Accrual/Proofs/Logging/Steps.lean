import Accrual.Proofs.Access.Session
import Accrual.Proofs.Gathered
import Accrual.Proofs.Report

/-!
# What the steps of a session log

A step that calls a log method, or reports, asks one logger for one thing
(`Step.logCall`).  Such a step is the search for that call, which leaves what is
configured alone, and then the call itself (`run_of_logCall`).  What a log method
is asked for is read off its arguments by position and by name
(`Arguments.AskFor`, `callOf_of_askFor`).

A call that reaches its threshold on a logger without a renderer of its own is
emitted through the configured one (`LogCall.isEmitted`), which is there from
then on: `renderer_after_run`.
-/

namespace Accrual

/-! ### Calls of a method -/

namespace Logger

theorem toValue_of_ofValue? {v : Value} {logger : Logger} (h : ofValue? v = some logger) :
    logger.toValue = v := by
  cases v <;> cases h
  rfl

def callAt (name : String) (level : LevelName) (logger : Logger) (arguments : Arguments) :
    Except Error LogCall := do
  let (values, fields) ← arguments.split ("BoundLogger." ++ name) ["self"] ["event"]
  match values with
  | [event] =>
      if (fields.lookup (.text "level")).isSome then .error (.givenTwice "BoundLogger.log" "level")
      else .ok ⟨logger, .int level.number, event, fields⟩
  | _ => .error (.badCall name)

def callOf (logger : Logger) : Method → Option (Arguments → Except Error LogCall)
  | .log => some fun arguments => do
      let (values, fields) ← arguments.split "BoundLogger.log" ["self"] ["level", "event"]
      match values with
      | [level, event] => .ok ⟨logger, level, event, fields⟩
      | _ => .error (.badCall "log")
  | .debug => some (logger.callAt "debug" .debug)
  | .info => some (logger.callAt "info" .info)
  | .warning => some (logger.callAt "warning" .warning)
  | .error => some (logger.callAt "error" .error)
  | _ => none

end Logger

namespace Method

theorem logAt_callAt (name : String) (level : LevelName) (logger : Logger)
    (arguments : Arguments) :
    logAt name level logger arguments =
      (Run.ofExcept (logger.callAt name level arguments) >>= fun x =>
        x.run >>= fun _ => pure .absent) := by
  unfold logAt Logger.callAt
  rw [Run.ofExcept_bind, bind_assoc]
  refine bind_congr fun sorted => ?_
  obtain ⟨values, fields⟩ := sorted
  rcases values with _ | ⟨event, _ | _⟩
  · rfl
  · cases h : (fields.lookup (.text "level")).isSome with
    | true =>
        simp only [h, if_true]
        rfl
    | false =>
        simp only [h, Bool.false_eq_true, if_false]
        rfl
  · rfl

/-- **A method that logs** sorts its arguments and then makes its call. -/
theorem ofLogger_callOf {logger : Logger} {method : Method} {bound : Bound}
    {sorted : Arguments → Except Error LogCall} (hb : ofLogger logger method = some bound)
    (hs : logger.callOf method = some sorted) (arguments : Arguments) :
    bound arguments =
      (Run.ofExcept (sorted arguments) >>= fun x => x.run >>= fun _ => pure .absent) := by
  cases method <;> cases hs <;> cases hb
  case log =>
    rw [Run.ofExcept_bind, bind_assoc]
    refine bind_congr fun sorted => ?_
    obtain ⟨values, fields⟩ := sorted
    rcases values with _ | ⟨level, _ | ⟨event, _ | _⟩⟩ <;> rfl
  case debug => exact logAt_callAt _ _ _ _
  case info => exact logAt_callAt _ _ _ _
  case warning => exact logAt_callAt _ _ _ _
  case error => exact logAt_callAt _ _ _ _

end Method

/-! ### Arguments of a log method -/

theorem Entries.lookup_ofTexts (fields : List (String × Value)) (name : String) :
    (Entries.ofTexts fields).lookup (.text name) = fields.lookup name := by
  induction fields with
  | nil => rfl
  | cons field rest ih =>
      obtain ⟨key, v⟩ := field
      have hkey : (Value.text name == Value.text key) = (name == key) := rfl
      simp only [Entries.ofTexts, List.map_cons, List.lookup_cons, hkey] at ih ⊢
      rw [ih]

namespace Arguments

/-- The arguments give these values to these parameters, to the first ones by position and not by
name as well, and to the others by name. -/
def Give (parameters : List (String × Value)) (arguments : Arguments) : Prop :=
  ∃ n, arguments.positional = (parameters.take n).map Prod.snd ∧
    (∀ p ∈ parameters.take n, arguments.byName? p.1 = none) ∧
    ∀ p ∈ parameters.drop n, arguments.byName? p.1 = some p.2

def levelMethods : List (String × LevelName) :=
  [("debug", .debug), ("info", .info), ("warning", .warning), ("error", .error)]

/-- The arguments ask the log method of the name to log the event at the level: they give both, or
the event alone where the method has a level of its own. -/
def AskFor (name : String) (level event : Value) (arguments : Arguments) : Prop :=
  arguments.byName? "self" = none ∧
    (name = "log" ∧ arguments.Give [("level", level), ("event", event)] ∨
      ∃ fixed : LevelName, (name, fixed) ∈ levelMethods ∧ level = .int fixed.number ∧
        arguments.byName? "level" = none ∧ arguments.Give [("event", event)])

def fields (arguments : Arguments) : Entries :=
  Entries.ofTexts (arguments.named.filter fun argument =>
    !(["self", "level", "event"].contains argument.1))

theorem ne_of_byName?_none {arguments : Arguments} {name : String}
    (h : arguments.byName? name = none) : ∀ a ∈ arguments.named, a.1 ≠ name := by
  intro a ha he
  have hne := List.lookup_eq_none_iff.mp h a ha
  simp [he] at hne

/-- A name of a log method that is not among those taken is not given at all. -/
theorem ofTexts_filter_eq_fields {arguments : Arguments} {taken : List String}
    (htaken : taken ⊆ ["self", "level", "event"])
    (h : ∀ name ∈ ["self", "level", "event"], name ∉ taken → arguments.byName? name = none) :
    Entries.ofTexts (arguments.named.filter fun argument => !taken.contains argument.1) =
      arguments.fields := by
  refine congrArg Entries.ofTexts (List.filter_congr fun a ha => congrArg not ?_)
  rw [Bool.eq_iff_iff, List.contains_iff_mem, List.contains_iff_mem]
  refine ⟨fun hm => htaken hm, fun hm => Decidable.byContradiction fun hn => ?_⟩
  exact ne_of_byName?_none (h a.1 hm hn) a ha rfl

theorem lookup_fields_level (arguments : Arguments) :
    arguments.fields.lookup (.text "level") = none := by
  rw [fields, Entries.lookup_ofTexts, List.lookup_eq_none_iff]
  intro a ha
  have hreserved := (List.mem_filter.mp ha).2
  simp only [List.contains_cons, List.contains_nil, Bool.not_eq_true', Bool.or_eq_false_iff]
    at hreserved
  rw [bne_iff_ne]
  intro he
  simp [← he] at hreserved

/-- What is given to the parameters comes out in their order, and what is left are fields. -/
theorem split_of_give (function : String) {parameters : List (String × Value)}
    {arguments : Arguments} (h : arguments.Give parameters)
    (hself : arguments.byName? "self" = none) :
    arguments.split function ["self"] (parameters.map Prod.fst) =
      .ok (parameters.map Prod.snd, Entries.ofTexts (arguments.named.filter fun argument =>
        !(parameters.map Prod.fst).contains argument.1)) := by
  obtain ⟨n, hpositional, hgiven, hleft⟩ := h
  have hlength : arguments.positional.length = min n parameters.length := by
    rw [hpositional, List.length_map, List.length_take]
  have htake : (parameters.map Prod.fst).take arguments.positional.length =
      (parameters.take n).map Prod.fst := by
    rw [hlength, ← List.map_take, ← List.take_eq_take_min]
  have hdrop : ((parameters.map Prod.fst).drop arguments.positional.length).map arguments.byName? =
      ((parameters.drop n).map Prod.snd).map some := by
    rw [hlength, ← List.map_drop, ← List.drop_eq_drop_min, List.map_map, List.map_map]
    exact List.map_congr_left hleft
  have hnone : arguments.named.find? (fun argument =>
      (["self"] ++ (parameters.take n).map Prod.fst).contains argument.1) = none := by
    rw [List.find?_eq_none]
    intro a ha hcontains
    obtain hs | hp := List.mem_append.mp (List.contains_iff_mem.mp hcontains)
    · exact ne_of_byName?_none hself a ha (List.mem_singleton.mp hs)
    · obtain ⟨p, hp, he⟩ := List.mem_map.mp hp
      exact ne_of_byName?_none (hgiven p hp) a ha he.symm
  have hfits : ¬parameters.length < arguments.positional.length := by omega
  have hall : (((parameters.drop n).map Prod.snd).map some).all Option.isSome = true := by
    rw [List.all_map]
    exact List.all_eq_true.mpr fun _ _ => rfl
  have hvalues : arguments.positional ++
      (((parameters.drop n).map Prod.snd).map some).filterMap id = parameters.map Prod.snd := by
    rw [hpositional, List.filterMap_map, Function.id_comp, List.filterMap_some, ← List.map_append,
      List.take_append_drop]
  simp only [split, htake, hnone, List.length_map, if_neg hfits, hdrop, hall, if_true, hvalues]

end Arguments

namespace Logger

/-- **What a log method is asked for** is one call, with the other named arguments as fields. -/
theorem callOf_of_askFor {logger : Logger} {name : String} {level event : Value}
    {arguments : Arguments} (h : arguments.AskFor name level event) :
    ∃ sorted, (Method.ofName? name).bind logger.callOf = some sorted ∧
      sorted arguments = .ok ⟨logger, level, event, arguments.fields⟩ := by
  obtain ⟨hself, ⟨rfl, hgive⟩ | ⟨fixed, hname, rfl, hlevel, hgive⟩⟩ := h
  · refine ⟨_, rfl, ?_⟩
    have hfields : Entries.ofTexts (arguments.named.filter fun argument =>
        !(["level", "event"].contains argument.1)) = arguments.fields := by
      refine Arguments.ofTexts_filter_eq_fields (by decide) ?_
      simp [hself]
    have hsplit := Arguments.split_of_give "BoundLogger.log" hgive hself
    simp only [List.map_cons, List.map_nil, hfields] at hsplit
    rw [hsplit]
    rfl
  · have hcall : ∀ called : String, logger.callAt called fixed arguments =
        .ok ⟨logger, .int fixed.number, event, arguments.fields⟩ := by
      intro called
      have hfields : Entries.ofTexts (arguments.named.filter fun argument =>
          !(["event"].contains argument.1)) = arguments.fields := by
        refine Arguments.ofTexts_filter_eq_fields (by decide) ?_
        simp [hself, hlevel]
      have hsplit := Arguments.split_of_give ("BoundLogger." ++ called) hgive hself
      simp only [List.map_cons, List.map_nil, hfields] at hsplit
      rw [callAt, hsplit]
      change (if (arguments.fields.lookup (.text "level")).isSome then _ else _) = _
      rw [arguments.lookup_fields_level]
      rfl
    simp only [Arguments.levelMethods, List.mem_cons, List.not_mem_nil, or_false,
      Prod.mk.injEq] at hname
    obtain ⟨rfl, rfl⟩ | ⟨rfl, rfl⟩ | ⟨rfl, rfl⟩ | ⟨rfl, rfl⟩ := hname
    · exact ⟨_, rfl, hcall "debug"⟩
    · exact ⟨_, rfl, hcall "info"⟩
    · exact ⟨_, rfl, hcall "warning"⟩
    · exact ⟨_, rfl, hcall "error"⟩

end Logger

/-! ### Calls of a step -/

namespace Step

def reportedCall (arguments : Arguments) : Run (Option LogCall) := do
  match ← Run.ofExcept (arguments.take "report" Operation.report.parameters) with
  | [validation, log, operation] =>
      match Validation.ofValue? validation with
      | some v => return some (← v.logCall log operation)
      | none => return none
  | _ => return none

/-- What a step asks a logger to log, if it asks for anything: it calls a log method of a logger, or
it reports a validation. -/
def logCall (registers : Registers) (step : Step) : Run (Option LogCall) :=
  match step.target with
  | .method on name => do
      let logger? := Logger.ofValue? (← on.eval registers)
      match logger?.bind fun logger => (Method.ofName? name).bind logger.callOf with
      | some sorted => return some (← Run.ofExcept (sorted (← step.arguments registers)))
      | none => return none
  | .operation name =>
      if Operation.ofName? name = some .report then do
        reportedCall (← step.arguments registers)
      else return none
  | .field _ _ => return none

variable {registers : Registers}

theorem reportedCall_of_validation {arguments : Arguments} {validation log operation : Value}
    (ht : arguments.take "report" Operation.report.parameters = .ok [validation, log, operation])
    {v : Validation} (hv : Validation.ofValue? validation = some v) :
    reportedCall arguments = (v.logCall log operation >>= fun x => pure (some x)) := by
  rw [reportedCall, ht, Run.ofExcept_ok_bind]
  simp only [hv]

theorem run_of_reportedCall (call : Calls) {arguments : Arguments} {s u : Store} {x : LogCall}
    (h : reportedCall arguments s = .ok (some x) u) :
    ∃ v, Operation.report.run call arguments s = (x.run >>= fun _ => pure v) u := by
  obtain ⟨values, t, ht, h⟩ := Run.bind_ok h
  obtain ⟨htake, rfl⟩ := Run.ofExcept_ok ht
  have hrun : Operation.report.run call arguments t = Operation.report.perform call values t :=
    Run.bind_of_ok ht _
  rw [hrun]
  rcases values with _ | ⟨validation, _ | ⟨log, _ | ⟨operation, _ | _⟩⟩⟩
  · cases h
  · cases h
  · cases h
  · cases hv : Validation.ofValue? validation with
    | none =>
        simp only [hv] at h
        cases h
    | some v =>
        simp only [hv] at h
        obtain ⟨x', t', hx, h⟩ := Run.bind_ok h
        cases h
        refine ⟨v.toValue, ?_⟩
        rw [← Validation.toValue_eq_of_ofValue? hv]
        change report v.toValue log operation t = _
        rw [report_eq_logCall, Run.bind_of_ok hx]
  · cases h

theorem method_of_callOf (call : Calls) {logger : Logger} {name : String}
    {sorted : Arguments → Except Error LogCall}
    (h : (Method.ofName? name).bind logger.callOf = some sorted) :
    ∃ bound : Method.Bound, logger.toValue.method call name = pure bound ∧
      ∀ arguments, bound arguments =
        (Run.ofExcept (sorted arguments) >>= fun x => x.run >>= fun _ => pure .absent) := by
  obtain ⟨method, hname, hsorted⟩ := Option.bind_eq_some_iff.mp h
  have hbound : ∃ bound, Method.ofLogger logger method = some bound := by
    cases method <;> first | exact ⟨_, rfl⟩ | cases hsorted
  obtain ⟨bound, hbound⟩ := hbound
  refine ⟨bound, ?_, Method.ofLogger_callOf hbound hsorted⟩
  have hfind : (Method.ofName? name).bind (Method.find? call logger.toValue) = some bound := by
    rw [hname]
    exact hbound
  simp only [Value.method, hfind]

/-- A step that calls a log method finds its call once its arguments are built and sorted. -/
theorem logCall_of_callOf {step : Step} {on : Term} {name : String}
    (ht : step.target = .method on name) {s t u : Store} {logger : Logger}
    (heval : on.eval registers s = .ok logger.toValue t)
    {sorted : Arguments → Except Error LogCall}
    (hcall : (Method.ofName? name).bind logger.callOf = some sorted) {arguments : Arguments}
    (hargs : step.arguments registers t = .ok arguments u) {x : LogCall}
    (hsorted : sorted arguments = .ok x) : step.logCall registers s = .ok (some x) u := by
  have hlogger : Logger.ofValue? logger.toValue = some logger := rfl
  simp only [logCall, ht]
  rw [Run.bind_of_ok heval]
  simp only [hlogger, Option.bind_some, hcall]
  rw [Run.bind_of_ok hargs, hsorted]
  rfl

theorem logCall_method_ok {step : Step} {on : Term} {name : String}
    (ht : step.target = .method on name) {s u : Store} {x : LogCall}
    (h : step.logCall registers s = .ok (some x) u) :
    ∃ logger sorted t arguments, on.eval registers s = .ok (Logger.toValue logger) t ∧
      (Method.ofName? name).bind logger.callOf = some sorted ∧
      step.arguments registers t = .ok arguments u ∧ sorted arguments = .ok x := by
  simp only [logCall, ht] at h
  obtain ⟨v, t, heval, h⟩ := Run.bind_ok h
  cases hs : (Logger.ofValue? v).bind fun logger =>
      (Method.ofName? name).bind logger.callOf with
  | none =>
      simp only [hs] at h
      cases h
  | some sorted =>
      simp only [hs] at h
      obtain ⟨arguments, t', hargs, h⟩ := Run.bind_ok h
      obtain ⟨x', t'', hx, h⟩ := Run.bind_ok h
      cases h
      obtain ⟨hsorted, rfl⟩ := Run.ofExcept_ok hx
      obtain ⟨logger, hlogger, hcall⟩ := Option.bind_eq_some_iff.mp hs
      refine ⟨logger, sorted, t, arguments, ?_, hcall, hargs, hsorted⟩
      rw [heval, Logger.toValue_of_ofValue? hlogger]

/-- **A step that logs** finds its call and makes it, and comes to something else than the call. -/
theorem run_of_logCall (call : Calls) {step : Step} {s u : Store} {x : LogCall}
    (h : step.logCall registers s = .ok (some x) u) :
    ∃ v, step.run call registers s = (x.run >>= fun _ => pure v) u := by
  cases ht : step.target with
  | method on name =>
      obtain ⟨logger, sorted, t, arguments, heval, hcall, hargs, hsorted⟩ :=
        logCall_method_ok ht h
      obtain ⟨bound, hmethod, hbound⟩ := method_of_callOf call hcall
      refine ⟨.absent, ?_⟩
      simp only [run, ht]
      rw [Run.bind_of_ok heval, hmethod, pure_bind, Run.bind_of_ok hargs, hbound, hsorted]
      rfl
  | operation name =>
      simp only [logCall, ht] at h
      split at h
      next ho =>
        obtain ⟨arguments, t, hargs, h⟩ := Run.bind_ok h
        obtain ⟨v, hv⟩ := run_of_reportedCall call h
        refine ⟨v, ?_⟩
        simp only [run, ht, ho]
        rw [Run.bind_of_ok hargs]
        exact hv
      next => cases h
  | field on name =>
      simp only [logCall, ht] at h
      cases h

/-- A step that logs leaves what its call leaves. -/
theorem after_of_logCall (call : Calls) {step : Step} {s u : Store} {x : LogCall}
    (h : step.logCall registers s = .ok (some x) u) :
    (step.run call registers).after s = x.run.after u := by
  obtain ⟨v, hrun⟩ := run_of_logCall call h
  rw [← Run.after_bind_pure x.run (fun _ => v) u, Run.after, hrun, Run.after]

end Step

theorem Validation.uses_logCall (log operation : Value) (v : Validation) :
    (v.logCall log operation).Uses [.threshold, .settings] := by
  refine (uses_reportLogger (by decide) log).bind fun logger => ?_
  cases v with
  | success value => exact .pure _
  | failure error =>
      refine (Run.Uses.access .settings (by decide)).bind fun settings => ?_
      split
      · exact .pure _
      · exact .throw _

namespace Step

def searching : List Access.Kind := [.define, .threshold, .settings]

theorem uses_reportedCall (arguments : Arguments) : (reportedCall arguments).Uses searching := by
  refine (Run.Uses.ofExcept _).bind fun values => ?_
  rcases values with _ | ⟨validation, _ | ⟨log, _ | ⟨operation, _ | _⟩⟩⟩
  · exact .pure _
  · exact .pure _
  · exact .pure _
  · dsimp only
    cases Validation.ofValue? validation with
    | some v =>
        exact ((v.uses_logCall log operation).mono (by decide)).bind fun _ => .pure _
    | none => exact .pure _
  · exact .pure _

/-- **The search for a call** defines functions, and may keep settings. -/
theorem uses_logCall (registers : Registers) (step : Step) :
    (step.logCall registers).Uses searching := by
  unfold logCall
  split
  next on name _ =>
    refine (Term.uses_eval registers (by decide) on).bind fun v => ?_
    dsimp only
    split
    · refine (step.uses_arguments registers (by decide)).bind fun arguments => ?_
      exact (Run.Uses.ofExcept _).bind fun _ => .pure _
    · exact .pure _
  next =>
    split
    · exact (step.uses_arguments registers (by decide)).bind uses_reportedCall
    · exact .pure _
  next => exact .pure _

end Step

/-! ### What a call installs -/

/-- What the settings are changes only with the cache or the sources. -/
theorem Run.Uses.settings_after {α : Type} {allowed : List Access.Kind} {run : Run α}
    (h : run.Uses allowed)
    (hk : ∀ k ∈ allowed, k ≠ .clear ∧ k ≠ .setEnvironment ∧ k ≠ .setDotEnv) {s : Store}
    {c : Settings} (hs : s.settings = .ok c) : (run.after s).settings = .ok c := by
  refine h.preserves (I := fun t => t.settings = .ok c) ?_ hs
  intro β x hx t ht
  obtain ⟨hclear, henvironment, hdotenv⟩ := hk _ hx
  have hloaded : ∀ c', t.settings = .ok c' → (t.loaded c').settings = .ok c := by
    intro c' hc'
    rw [hc'] at ht
    cases ht
    rfl
  cases x with
  | clear => exact absurd rfl hclear
  | setEnvironment _ => exact absurd rfl henvironment
  | setDotEnv _ => exact absurd rfl hdotenv
  | settings =>
      obtain h | ⟨c', hc', h⟩ := Run.after_getSettings t
      · exact (congrArg Store.settings h).trans ht
      · exact (congrArg Store.settings h).trans (hloaded c' hc')
  | threshold =>
      obtain h | ⟨c', hc', h⟩ := Run.after_currentThreshold t
      · exact (congrArg Store.settings h).trans ht
      · exact (congrArg Store.settings h).trans (hloaded c' hc')
  | renderer =>
      cases hr : t.renderer with
      | some r =>
          exact (congrArg Store.settings
            (Run.after_of_ok (Logging.currentRenderer_installed hr))).trans ht
      | none =>
          exact congrArg Store.settings (Run.after_of_ok (Logging.currentRenderer_lazy hr ht))
  | configure format level output colors =>
      obtain ⟨error, he⟩ | ⟨error, v, he⟩ | ⟨r, v, hr⟩ :=
        Logging.configure_cases ht format level output colors
      · exact congrArg Store.settings (Run.after_of_error he)
      · exact congrArg Store.settings (Run.after_of_error he)
      · exact congrArg Store.settings (Run.after_of_ok hr)
  | write _ _ | noteCall _ _ | freshId | define _ | callback _ | clock | reset | setClock _ =>
      exact ht

namespace Store

/-- The renderer that the next entry through the configured one goes to, if there can be one: the
one installed, or the one that the settings ask for. -/
def nextRenderer (s : Store) : Option Renderer :=
  match s.renderer, s.settings with
  | some r, _ => some r
  | none, .ok c => some c.renderer
  | none, .error _ => none

end Store

theorem renderer_after_currentRenderer (s : Store) :
    (Logging.currentRenderer.after s).renderer = s.nextRenderer := by
  cases hr : s.renderer with
  | some r =>
      rw [Run.after_of_ok (Logging.currentRenderer_installed hr), Store.nextRenderer, hr]
  | none =>
      cases hs : s.settings with
      | ok c =>
          rw [Run.after_of_ok (Logging.currentRenderer_lazy hr hs), Store.nextRenderer, hr, hs]
          rfl
      | error error =>
          rw [Run.after_of_error (Logging.currentRenderer_error hr hs), Store.nextRenderer, hr, hs]

def Access.installing : List Access.Kind := [.renderer, .configure, .reset]

theorem Access.renderer_after {α : Type} (x : Access α) (hx : x.kind ∉ installing) (s : Store) :
    (x.run.after s).renderer = s.renderer := by
  have hrenderer : Kind.renderer ∈ installing := by decide
  have hconfigure : Kind.configure ∈ installing := by decide
  have hreset : Kind.reset ∈ installing := by decide
  cases x with
  | settings =>
      obtain h | ⟨c, -, h⟩ := Run.after_getSettings s
      · exact congrArg Store.renderer h
      · exact (congrArg Store.renderer h).trans rfl
  | threshold =>
      obtain h | ⟨c, -, h⟩ := Run.after_currentThreshold s
      · exact congrArg Store.renderer h
      · exact (congrArg Store.renderer h).trans rfl
  | renderer => exact absurd hrenderer hx
  | configure _ _ _ _ => exact absurd hconfigure hx
  | reset => exact absurd hreset hx
  | write _ _ | noteCall _ _ | freshId | define _ | callback _ | clock | clear | setEnvironment _
  | setDotEnv _ | setClock _ => rfl

namespace Run.Uses

variable {α : Type} {allowed : List Access.Kind} {run : Run α}

theorem renderer_after (h : run.Uses allowed) (hk : ∀ k ∈ allowed, k ∉ Access.installing)
    (s : Store) : (run.after s).renderer = s.renderer :=
  h.preserves (I := fun t => t.renderer = s.renderer)
    (fun x hx t ht => (x.renderer_after (hk _ hx) t).trans ht) rfl

theorem renderer_of_ok (h : run.Uses allowed) (hk : ∀ k ∈ allowed, k ∉ Access.installing)
    {s t : Store} {a : α} (hr : run s = .ok a t) : t.renderer = s.renderer := by
  rw [← h.renderer_after hk s, after_of_ok hr]

theorem renderer_of_error (h : run.Uses allowed) (hk : ∀ k ∈ allowed, k ∉ Access.installing)
    {s t : Store} {error : Error} (hr : run s = .error error t) : t.renderer = s.renderer := by
  rw [← h.renderer_after hk s, after_of_error hr]

/-- The first part of a run that installs nothing can be left out of account. -/
theorem renderer_bind {β : Type} (h : run.Uses allowed)
    (hk : ∀ k ∈ allowed, k ∉ Access.installing) {next : α → Run β} {s : Store}
    (hn : ∀ a t, run s = .ok a t → ((next a).after t).renderer = t.renderer) :
    ((run >>= next).after s).renderer = s.renderer := by
  cases hr : run s with
  | ok a t =>
      rw [after_bind_of_ok hr, hn a t hr]
      exact h.renderer_of_ok hk hr
  | error error t =>
      rw [after_bind_of_error hr]
      exact h.renderer_of_error hk hr

/-- **An installed renderer stays** until the next configuration or reset. -/
theorem renderer_installed (h : run.Uses allowed)
    (hk : ∀ k ∈ allowed, k ≠ .configure ∧ k ≠ .reset) {s : Store} {r : Renderer}
    (hs : s.renderer = some r) : (run.after s).renderer = some r := by
  refine h.preserves (I := fun t => t.renderer = some r) ?_ hs
  intro β x hx t ht
  by_cases hr : x.kind = .renderer
  · cases x with
    | renderer =>
        exact (congrArg Store.renderer
          (Run.after_of_ok (Logging.currentRenderer_installed ht))).trans ht
    | _ => cases hr
  · refine (x.renderer_after ?_ t).trans ht
    obtain ⟨hconfigure, hreset⟩ := hk _ hx
    simp [Access.installing, hr, hconfigure, hreset]

end Run.Uses

namespace LogCall

/-- The call reaches its threshold, and its logger has no renderer of its own. -/
def isEmitted (x : LogCall) : Bool :=
  (match Value.lt x.level x.logger.threshold with
    | .ok false => true
    | _ => false) && !x.logger.renderer.isTruthy

/-- **What a call installs**: nothing, unless it is emitted through the configured renderer, which
is there from then on. -/
theorem renderer_after_run (x : LogCall) (s : Store) :
    (x.run.after s).renderer = if x.isEmitted then s.nextRenderer else s.renderer := by
  have hhand : ∀ (r : Renderer) (t : Store),
      ((x.logger.handOver x.level x.event x.fields r).after t).renderer = t.renderer :=
    fun r t => (Logger.uses_handOver (List.Subset.refl _) _ _ _ _ r).renderer_after (by decide) t
  rw [run, Logger.log_eq, isEmitted]
  cases Value.lt x.level x.logger.threshold with
  | error error => rfl
  | ok below =>
      cases below with
      | true => rfl
      | false =>
          cases htruthy : x.logger.renderer.isTruthy with
          | true =>
              simp only [Logger.activeRenderer, htruthy, if_true]
              cases hr : Renderer.ofValue? x.logger.renderer with
              | some r => exact hhand r s
              | none => rfl
          | false =>
              simp only [Logger.activeRenderer, htruthy, Bool.false_eq_true, if_false,
                Bool.not_false, Bool.and_self, if_true]
              rw [← renderer_after_currentRenderer]
              cases hc : Logging.currentRenderer s with
              | ok r t =>
                  rw [Run.after_bind_of_ok hc, Run.after_of_ok hc]
                  exact hhand r t
              | error error t => rw [Run.after_bind_of_error hc, Run.after_of_error hc]

end LogCall

end Accrual
