import Accrual.Proofs.Logging.Steps
import Accrual.Proofs.Sending
import Mathlib.Data.List.Basic

/-!
# Where log records go

Which renderer is configured can be told from the answers of a run and from what
its steps ask loggers for, without a look at the renderer in the store
(`Session.installed`): it is the one that the most recent configuration has
installed since the last reset, be it an explicit one that succeeded or the first
entry that found none.  The store agrees with this at each step (`renderer_step`)
and so at the end of every run of logging steps (`renderer_after`), and
`records_routed` says what a call of a logger does there.
-/

namespace Accrual

variable {call : Calls} {registers : Registers}

/-! ### Steps that log nothing -/

/-- A method of a logger that logs nothing does not get at the store at all. -/
theorem Logger.method_of_no_call (call : Calls) {logger : Logger} {name : String}
    (h : (Method.ofName? name).bind logger.callOf = none) :
    (∃ bound : Method.Bound, logger.toValue.method call name = pure bound ∧ bound.Uses []) ∨
      ∃ error, logger.toValue.method call name = throw error := by
  refine logger.method_cases call fun method bound hname hb => ?_
  rw [hname] at h
  change logger.callOf method = none at h
  cases method <;> cases hb
  case bind => exact fun arguments => (Run.Uses.ofExcept _).bind fun _ => .pure _
  case unbind => exact fun arguments => (Run.Uses.ofExcept _).bind fun _ => .pure _
  all_goals cases h

/-- The kinds of access in the parts of a step that log nothing. -/
theorem searching_not_installing : ∀ k ∈ Step.searching, k ∉ Access.installing := by decide

/-- The operations of a run that this is about: those that configure logging, make a logger or
report, and those that deal with the settings. -/
def Operation.logging : List Operation :=
  [.configureLogging, .resetLogging, .getLogger, .report, .getSettings, .clearSettings,
    .renderErrors, .setVariable, .setDotEnv, .setClock]

namespace Step

/-- A step that calls an operation is that operation on its arguments. -/
theorem run_operation (call : Calls) {step : Step} {operation : Operation}
    (h : step.operation? = some operation) (registers : Registers) :
    step.run call registers = step.arguments registers >>= operation.run call := by
  unfold operation? at h
  split at h
  next name ht => simp only [run, ht, h]
  next => cases h

theorem logCall_report {step : Step} (h : step.operation? = some .report) (registers : Registers) :
    step.logCall registers = step.arguments registers >>= reportedCall := by
  unfold operation? at h
  split at h
  next name ht => simp only [logCall, ht, h, if_true]
  next => cases h

theorem renderer_of_no_reportedCall {arguments : Arguments} {s : Store}
    (h : ∀ x t, reportedCall arguments s ≠ .ok (some x) t) :
    ((Operation.report.run call arguments).after s).renderer = s.renderer := by
  have hrun : Operation.report.run call arguments =
      (Run.ofExcept (arguments.take "report" Operation.report.parameters) >>= fun values =>
        Operation.report.perform call values) := rfl
  rw [hrun]
  cases htake : arguments.take "report" Operation.report.parameters with
  | error error => rfl
  | ok values =>
      rcases values with _ | ⟨validation, _ | ⟨log, _ | ⟨operation, _ | _⟩⟩⟩
      · rfl
      · rfl
      · rfl
      · change ((report validation log operation).after s).renderer = s.renderer
        cases hv : Validation.ofValue? validation with
        | none =>
            have huses : (report validation log operation).Uses searching := by
              rw [report]
              simp only [hv]
              exact (uses_reportLogger (by decide) log).bind fun _ => .throw _
            exact huses.renderer_after searching_not_installing s
        | some v =>
            have huses : (v.logCall log operation).Uses searching :=
              (v.uses_logCall log operation).mono (by decide)
            rw [← Validation.toValue_eq_of_ofValue? hv, report_eq_logCall]
            refine huses.renderer_bind searching_not_installing fun x t hx => absurd ?_ (h x t)
            rw [reportedCall_of_validation htake hv]
            exact Run.bind_of_ok hx _
      · rfl

theorem renderer_of_no_report {step : Step} (ho : step.operation? = some .report) {s : Store}
    (h : ∀ x t, step.logCall registers s ≠ .ok (some x) t) :
    ((step.run call registers).after s).renderer = s.renderer := by
  have hargs : (step.arguments registers).Uses searching :=
    step.uses_arguments registers (by decide)
  rw [step.run_operation call ho]
  refine hargs.renderer_bind searching_not_installing fun arguments t ha => ?_
  refine renderer_of_no_reportedCall fun x u hx => h x u ?_
  rw [logCall_report ho, Run.bind_of_ok ha, hx]

/-- A method of a logger that makes no call: it is one that logs nothing, or its arguments do not
fit. -/
theorem renderer_of_no_method_call {step : Step} {on : Term} {name : String}
    (ht : step.target = .method on name) {s : Store}
    (hl : ∀ v t, on.eval registers s = .ok v t → ∃ logger : Logger, v = logger.toValue)
    (h : ∀ x t, step.logCall registers s ≠ .ok (some x) t) :
    ((step.run call registers).after s).renderer = s.renderer := by
  have hargs : (step.arguments registers).Uses searching :=
    step.uses_arguments registers (by decide)
  have heval : (on.eval registers).Uses searching := Term.uses_eval registers (by decide) on
  simp only [run, ht]
  refine heval.renderer_bind searching_not_installing fun v t he => ?_
  obtain ⟨logger, rfl⟩ := hl v t he
  cases hs : (Method.ofName? name).bind logger.callOf with
  | none =>
      obtain ⟨bound, hm, hb⟩ | ⟨error, hm⟩ := Logger.method_of_no_call call hs
      · rw [hm, pure_bind]
        have huses := hargs.bind fun arguments => (hb arguments).mono (List.nil_subset _)
        exact huses.renderer_after searching_not_installing t
      · rw [hm]
        rfl
  | some sorted =>
      obtain ⟨bound, hm, hb⟩ := method_of_callOf call hs
      rw [hm, pure_bind]
      refine hargs.renderer_bind searching_not_installing fun arguments u ha => ?_
      rw [hb]
      cases hx : sorted arguments with
      | error error => rfl
      | ok x => exact absurd (logCall_of_callOf ht he hs ha hx) (h x u)

def IsLogging (registers : Registers) (s : Store) (step : Step) : Prop :=
  match step.target with
  | .operation name => ∃ operation ∈ Operation.logging, Operation.ofName? name = some operation
  | .method on _ =>
      ∀ v t, on.eval registers s = .ok v t → ∃ logger : Logger, v = logger.toValue
  | .field _ _ => True

/-- A step that asks no logger for anything, and neither configures nor resets, leaves the renderer
as it is. -/
theorem renderer_of_no_logCall (hc : call.Steady) {step : Step} {s : Store}
    (hl : step.IsLogging registers s) (hconfigure : step.operation? ≠ some .configureLogging)
    (hreset : step.operation? ≠ some .resetLogging)
    (h : ∀ x t, step.logCall registers s ≠ .ok (some x) t) :
    ((step.run call registers).after s).renderer = s.renderer := by
  cases ht : step.target with
  | field on name =>
      have huses : (step.run call registers).Uses searching := by
        simp only [run, ht]
        exact (Term.uses_eval registers (by decide) on).bind fun v => .ofExcept _
      exact huses.renderer_after searching_not_installing s
  | operation name =>
      simp only [IsLogging, ht] at hl
      obtain ⟨operation, hop, ho⟩ := hl
      have ho' : step.operation? = some operation := by simp [operation?, ht, ho]
      by_cases hreport : operation = .report
      · subst hreport
        exact renderer_of_no_report ho' h
      · have hk : ∀ k ∈ step.kinds, k ∉ Access.installing := by
          rw [kinds, ho']
          rw [ho'] at hconfigure hreset
          revert hop hreport hconfigure hreset
          cases operation <;> decide
        exact (step.uses_run registers hc).renderer_after hk s
  | method on name =>
      simp only [IsLogging, ht] at hl
      exact renderer_of_no_method_call ht hl h

/-! ### Steps that configure or reset -/

theorem logCall_operation {step : Step} {operation : Operation}
    (h : step.operation? = some operation) (hreport : operation ≠ .report)
    (registers : Registers) : step.logCall registers = pure none := by
  unfold operation? at h
  split at h
  next name ht => simp [logCall, ht, h, hreport]
  next => cases h

/-- The operation takes its arguments, and then it configures logging with them. -/
theorem run_configureLogging (call : Calls) (arguments : Arguments) :
    Operation.configureLogging.run call arguments =
      (Run.ofExcept (arguments.take "configure_logging" Operation.configureLogging.parameters) >>=
        Operation.configureLogging.perform call) := rfl

theorem perform_configureLogging (call : Calls) (format level output colors : Value) :
    Operation.configureLogging.perform call [format, level, output, colors] =
      (Logging.configure format level output colors >>= fun r => pure r.toValue) := rfl

/-- A configuration that succeeds leaves the renderer that it returns, and one that fails leaves the
renderer that was there. -/
theorem configure_outcome (arguments : Arguments) (s : Store) :
    (∃ v t, Operation.configureLogging.run call arguments s = .ok v t ∧
        t.renderer = Renderer.ofValue? v) ∨
      ∃ error t, Operation.configureLogging.run call arguments s = .error error t ∧
        t.renderer = s.renderer := by
  rw [run_configureLogging]
  cases htake : arguments.take "configure_logging" Operation.configureLogging.parameters with
  | error error => exact .inr ⟨error, s, rfl, rfl⟩
  | ok values =>
      have hlength : values.length = 4 := Arguments.length_of_take htake
      obtain ⟨format, level, output, colors, rfl⟩ := List.length_eq_four.mp hlength
      rw [Run.ofExcept_ok_bind, perform_configureLogging]
      cases hc : Logging.configure format level output colors s with
      | ok r t =>
          obtain ⟨c, v, -, rfl⟩ := Logging.configure_ok hc
          exact .inl ⟨_, _, Run.bind_of_ok hc _, (Renderer.ofValue?_toValue r).symm⟩
      | error error t =>
          obtain ⟨cached, threshold, rfl⟩ := Logging.configure_error hc
          exact .inr ⟨error, _, Run.bind_of_error hc _, rfl⟩

theorem reset_outcome (arguments : Arguments) (s : Store) :
    (∃ v t, Operation.resetLogging.run call arguments s = .ok v t ∧ t.renderer = none) ∨
      ∃ error t, Operation.resetLogging.run call arguments s = .error error t ∧
        t.renderer = s.renderer := by
  have hrun : Operation.resetLogging.run call arguments =
      (Run.ofExcept (arguments.take "reset_logging" Operation.resetLogging.parameters) >>=
        fun values => Operation.resetLogging.perform call values) := rfl
  rw [hrun]
  cases arguments.take "reset_logging" Operation.resetLogging.parameters with
  | error error => exact .inr ⟨error, s, rfl, rfl⟩
  | ok values =>
      rcases values with _ | _
      · exact .inl ⟨_, _, rfl, rfl⟩
      · exact .inr ⟨_, s, rfl, rfl⟩

end Step

/-! ### The renderer in force -/

namespace Session

/-- The renderer that is installed after a step, told from the answer to the step and the call that
it makes: a configuration that succeeds installs the renderer that it returns, a reset takes it
away, and an entry that finds none installs the one that the settings ask for. -/
def installs (call : Calls) (session : Session) (step : Step) (installed : Option Renderer) :
    Option Renderer :=
  match step.operation?, (session.step call step).1.result with
  | some .configureLogging, .ok v => Renderer.ofValue? v
  | some .resetLogging, .ok _ => none
  | _, _ =>
      match step.logCall session.registers session.store.cleared with
      | .ok (some x) s =>
          if x.isEmitted then installed.or (s.settings.toOption.map Settings.renderer)
          else installed
      | _ => installed

def installed (call : Calls) : Session → Option Renderer → List Step → Option Renderer
  | _, r, [] => r
  | session, r, step :: rest =>
      installed call (session.step call step).2 (session.installs call step r) rest

def LogsOnly (call : Calls) : Session → List Step → Prop
  | _, [] => True
  | session, step :: rest =>
      step.IsLogging session.registers session.store.cleared ∧
        LogsOnly call (session.step call step).2 rest

theorem installs_of_no_change {session : Session} {step : Step} {installed : Option Renderer}
    (h : ∀ v, (session.step call step).1.result = .ok v →
      step.operation? ≠ some .configureLogging ∧ step.operation? ≠ some .resetLogging) :
    session.installs call step installed =
      match step.logCall session.registers session.store.cleared with
      | .ok (some x) s =>
          if x.isEmitted then installed.or (s.settings.toOption.map Settings.renderer)
          else installed
      | _ => installed := by
  unfold installs
  split
  next v ho hv => exact absurd ho (h v hv).1
  next v ho hv => exact absurd ho (h v hv).2
  next => rfl

theorem nextRenderer_eq (s : Store) :
    s.nextRenderer = s.renderer.or (s.settings.toOption.map Settings.renderer) := by
  unfold Store.nextRenderer
  cases s.renderer with
  | some r => rfl
  | none => cases s.settings <;> rfl

/-- A step that neither configures nor resets. -/
theorem renderer_step_of_other (hc : call.Steady) {session : Session} {step : Step}
    (h : step.IsLogging session.registers session.store.cleared)
    (hconfigure : step.operation? ≠ some .configureLogging)
    (hreset : step.operation? ≠ some .resetLogging) :
    (session.step call step).2.store.renderer =
      session.installs call step session.store.renderer := by
  rw [store_step, installs_of_no_change fun _ _ => ⟨hconfigure, hreset⟩]
  split
  next x s hx =>
    have hrenderer : s.renderer = session.store.cleared.renderer :=
      (step.uses_logCall session.registers).renderer_of_ok searching_not_installing hx
    rw [Step.after_of_logCall call hx, LogCall.renderer_after_run, nextRenderer_eq, hrenderer]
    rfl
  next hx => exact Step.renderer_of_no_logCall hc h hconfigure hreset hx

/-- A step that calls an operation which leaves a renderer, if it succeeds. -/
theorem renderer_step_of_outcome {session : Session} {step : Step} {operation : Operation}
    (ho : step.operation? = some operation) (hreport : operation ≠ .report)
    (left : Value → Option Renderer)
    (hleft : ∀ v, (session.step call step).1.result = .ok v →
      session.installs call step session.store.renderer = left v)
    (houtcome : ∀ arguments s,
      (∃ v t, operation.run call arguments s = .ok v t ∧ t.renderer = left v) ∨
        ∃ error t, operation.run call arguments s = .error error t ∧ t.renderer = s.renderer) :
    (session.step call step).2.store.renderer =
      session.installs call step session.store.renderer := by
  have hargs : (step.arguments session.registers).Uses Step.searching :=
    step.uses_arguments session.registers (by decide)
  have hrun := step.run_operation call ho session.registers
  have hfailed : ∀ error t, step.run call session.registers session.store.cleared =
      .error error t → t.renderer = session.store.cleared.renderer →
      (session.step call step).2.store.renderer =
        session.installs call step session.store.renderer := by
    intro error t hstep ht
    have hresult := step_of_error hstep
    have hnone : ∀ v, (session.step call step).1.result = .ok v →
        step.operation? ≠ some .configureLogging ∧ step.operation? ≠ some .resetLogging := by
      intro v hv
      rw [hresult] at hv
      cases hv
    rw [installs_of_no_change hnone, Step.logCall_operation ho hreport, hresult]
    exact ht
  cases ha : step.arguments session.registers session.store.cleared with
  | error error t =>
      refine hfailed error t ?_ (hargs.renderer_of_error searching_not_installing ha)
      rw [hrun, Run.bind_of_error ha]
  | ok arguments t =>
      have ht := hargs.renderer_of_ok searching_not_installing ha
      obtain ⟨v, u, hu, hr⟩ | ⟨error, u, hu, hr⟩ := houtcome arguments t
      · have hstep : step.run call session.registers session.store.cleared = .ok v u := by
          rw [hrun, Run.bind_of_ok ha, hu]
        have hresult := step_of_ok hstep
        rw [hleft v (by rw [hresult]), hresult]
        exact hr
      · refine hfailed error u ?_ (hr.trans ht)
        rw [hrun, Run.bind_of_ok ha, hu]

/-- **One step**: what is in the store is what was installed last. -/
theorem renderer_step (hc : call.Steady) {session : Session} {step : Step}
    (h : step.IsLogging session.registers session.store.cleared) :
    (session.step call step).2.store.renderer =
      session.installs call step session.store.renderer := by
  by_cases hconfigure : step.operation? = some .configureLogging
  · refine renderer_step_of_outcome hconfigure (by decide) Renderer.ofValue? (fun v hv => ?_)
      Step.configure_outcome
    rw [installs, hconfigure, hv]
  by_cases hreset : step.operation? = some .resetLogging
  · refine renderer_step_of_outcome hreset (by decide) (fun _ => none) (fun v hv => ?_)
      Step.reset_outcome
    rw [installs, hreset, hv]
  exact renderer_step_of_other hc h hconfigure hreset

/-- **Every run of logging steps**: what is in the store is what was installed last. -/
theorem renderer_after (hc : call.Steady) {steps : List Step} {session : Session}
    (h : session.LogsOnly call steps) :
    (session.after call steps).store.renderer =
      session.installed call session.store.renderer steps := by
  induction steps generalizing session with
  | nil => rfl
  | cons step rest ih =>
      rw [after_cons, ih h.2, renderer_step hc h.1, installed]

/-! ### Loggers in registers -/

theorem lookup_step (session : Session) {step : Step} {name : String}
    (h : step.register ≠ some name) :
    (session.step call step).2.registers.lookup name = session.registers.lookup name := by
  cases hrun : step.run call session.registers session.store.cleared with
  | error error t => rw [step_of_error hrun]
  | ok v t =>
      rw [step_of_ok hrun]
      cases hr : step.register with
      | none => rfl
      | some other =>
          have hne : (name == other) = false := by
            rw [hr] at h
            exact beq_eq_false_iff_ne.mpr fun he => h (congrArg some he.symm)
          simp only [keep, List.lookup_cons, hne]

/-- A register keeps what it holds until a step stores something else in it. -/
theorem lookup_after {steps : List Step} {name : String}
    (h : ∀ step ∈ steps, step.register ≠ some name) (session : Session) :
    (session.after call steps).registers.lookup name = session.registers.lookup name := by
  induction steps generalizing session with
  | nil => rfl
  | cons step rest ih =>
      obtain ⟨hstep, hrest⟩ := List.forall_mem_cons.mp h
      rw [after_cons, ih hrest, lookup_step session hstep]

end Session

/-! ### What becomes of a call -/

namespace LogCall

/-- What becomes of a call at a level, with a renderer installed or none.  The entry that is handed
over carries the name of the level, the event, and the context of the logger overridden by the
fields of the call. -/
structure IsRouted (x : LogCall) (installed : Option Renderer) (level threshold : Int)
    (s : Store) : Prop where
  below : level < threshold → x.run s = .ok () s
  own : threshold ≤ level → ∀ r : Renderer, x.logger.renderer = r.toValue →
    x.run s = x.handTo level r s
  configured : threshold ≤ level → x.logger.renderer = .absent → ∀ r, installed = some r →
    x.run s = x.handTo level r s
  first : threshold ≤ level → x.logger.renderer = .absent → installed = none →
    ∀ c, s.settings = .ok c → x.run s = x.handTo level c.renderer (s.configured c)
  unloadable : threshold ≤ level → x.logger.renderer = .absent → installed = none →
    ∀ error, s.settings = .error error → x.run s = .error error s

theorem isRouted {x : LogCall} {level threshold : Int} (hlevel : x.level = .int level)
    (ht : x.logger.threshold = .int threshold) (s : Store) :
    x.IsRouted s.renderer level threshold s where
  below h := run_below hlevel ht h s
  own h _ hr := run_own hlevel ht h hr s
  configured h hx _ hr := run_installed hlevel ht h hx hr
  first h hx hr _ hc := run_lazy hlevel ht h hx hr hc
  unloadable h hx hr _ he := run_unloadable hlevel ht h hx hr he

end LogCall

namespace Session

/-- **Routing of log records over whole runs.**  After every run of logging steps the renderer in
the store is the one that was installed last, and a logger in a register is still what it was.  A
log method that is asked for an event at a level then makes that one call, with the other named
arguments as fields, and any step that asks a logger to log makes its one call: below the threshold
it does nothing, and otherwise it hands one entry to one renderer, namely to the one of the logger's
own, else to the one that was installed last, else to the one that the settings ask for, which is
installed by that; if the settings do not load, nothing happens but the error.  A level whose number
is too long to be written out finds its renderer all the same, and then fails. -/
theorem records_routed :
    Callback.calls.Steady ∧ ∀ call : Calls, call.Steady →
      ∀ (session : Session) (steps : List Step), session.LogsOnly call steps →
        (session.after call steps).store.renderer =
            session.installed call session.store.renderer steps ∧
        (∀ (name : String) (logger : Logger),
          session.registers.lookup name = some logger.toValue →
          (∀ step ∈ steps, step.register ≠ some name) →
          (session.after call steps).registers.lookup name = some logger.toValue) ∧
        (∀ (step : Step) (on : Term) (name : String) (logger : Logger) (arguments : Arguments)
          (level event : Value) (t s : Store), step.target = .method on name →
          on.eval (session.after call steps).registers
              (session.after call steps).store.cleared = .ok logger.toValue t →
          step.arguments (session.after call steps).registers t = .ok arguments s →
          arguments.AskFor name level event →
          step.logCall (session.after call steps).registers
              (session.after call steps).store.cleared =
            .ok (some ⟨logger, level, event, arguments.fields⟩) s) ∧
        ∀ (step : Step) (x : LogCall) (s : Store) (level threshold : Int),
          step.logCall (session.after call steps).registers
              (session.after call steps).store.cleared = .ok (some x) s →
          x.level = .int level → x.logger.threshold = .int threshold →
          (∃ v, step.run call (session.after call steps).registers
              (session.after call steps).store.cleared = (x.run >>= fun _ => pure v) s) ∧
          x.IsRouted (session.installed call session.store.renderer steps) level threshold s := by
  refine ⟨Callback.steady_calls, fun call hc session steps hlogs => ?_⟩
  have hinstalled := renderer_after hc hlogs
  refine ⟨hinstalled, ?_, ?_, ?_⟩
  · intro name logger hlogger hsteps
    rw [lookup_after hsteps, hlogger]
  · intro step on name logger arguments level event t s ht heval hargs hask
    obtain ⟨sorted, hcall, hsorted⟩ := Logger.callOf_of_askFor hask
    exact Step.logCall_of_callOf ht heval hcall hargs hsorted
  · intro step x s level threshold hx hlevel ht
    refine ⟨Step.run_of_logCall call hx, ?_⟩
    have hs : s.renderer = (session.after call steps).store.cleared.renderer :=
      (step.uses_logCall _).renderer_of_ok searching_not_installing hx
    have hrouted := LogCall.isRouted hlevel ht s
    rw [hs] at hrouted
    rw [← hinstalled]
    exact hrouted

/-- A logger that was made before a configuration keeps its threshold, and follows the renderer that
is installed by it. -/
theorem records_routed_reconfigured :
    let logger : Logger := ⟨[(.text "logger", .text "app")], .absent, .int 20⟩
    let session : Session :=
      { registers := [("log", logger.toValue)], store := { cached := some {} } }
    let configure : Step :=
      { target := .operation "configure_logging",
        positional := [.text "json", .text "ERROR"] }
    let warn : Step :=
      { target := .method (.register "log") "warning", positional := [.text "careful"],
        named := [("attempt", .int 2)] }
    let asked : LogCall := ⟨logger, .int 30, .text "careful", [(.text "attempt", .int 2)]⟩
    let now := session.after Callback.calls [configure]
    now.registers.lookup "log" = some logger.toValue ∧
      (∃ v, warn.run Callback.calls now.registers now.store.cleared =
        (asked.run >>= fun _ => pure v) now.store.cleared) ∧
      asked.run now.store.cleared =
        (Renderer.json (.stream .stdout)).render
          ⟨now.store.surroundings.clock, "warning", .text "careful",
            [(.text "logger", .text "app"), (.text "attempt", .int 2)]⟩ now.store.cleared := by
  intro logger session configure warn asked now
  obtain ⟨-, hregister, hcalls, hrouted⟩ := records_routed.2 Callback.calls records_routed.1
    session [configure] ⟨⟨.configureLogging, by decide, rfl⟩, trivial⟩
  have hlog := hregister "log" logger rfl (by decide)
  have hask : Arguments.AskFor "warning" (.int 30) (.text "careful")
      ⟨[.text "careful"], [("attempt", .int 2)]⟩ :=
    ⟨rfl, .inr ⟨.warning, by decide, rfl, rfl, 1, rfl, by simp [Arguments.byName?], by simp⟩⟩
  have hcall := hcalls warn _ _ logger _ _ _ _ _ rfl rfl rfl hask
  obtain ⟨hrun, hwarn⟩ := hrouted warn _ _ 30 20 hcall rfl rfl
  have hshort : (Value.int 30).isWritable = true := LevelName.warning.isWritable_number
  have hhanded := hwarn.configured (by decide) rfl _ rfl
  rw [LogCall.handTo_of_isWritable hshort] at hhanded
  exact ⟨hlog, hrun, hhanded⟩

end Session

end Accrual
