import Accrual.Proofs.Access.Session

/-!
# Settings are frozen between cache clears

Settings are loaded once and kept until the cache is cleared.  So two stores
that keep the same settings and differ in nothing but the sources that settings
are loaded from (`Store.Frozen`) are told apart by no access but a clear
(`respects_frozen`), and a run with changes of the environment or of the file
`.env` in it gives the answers of the run without them
(`answers_eq_run_filter`).

A load that fails changes nothing (`after_of_unloadable`).  As long as the
sources stay the same, nothing gets into the cache, and the load after that
starts from the sources of its own time (`getSettings_of_not_cached`).
-/

namespace Accrual

/-! ### Stores that differ in the sources of settings -/

namespace Store

def withSources (environment : List (String × String)) (dotenv : String) (s : Store) : Store :=
  { s with surroundings := ⟨environment, dotenv, s.surroundings.clock⟩ }

/-- The second store keeps the same settings as the first one, and differs from it in the sources of
settings only. -/
def Frozen (c : Settings) (s t : Store) : Prop :=
  s.cached = some c ∧ ∃ environment dotenv, t = s.withSources environment dotenv

variable {c : Settings}

theorem frozen_refl {s : Store} (h : s.cached = some c) : Frozen c s s :=
  ⟨h, s.surroundings.environment, s.surroundings.dotenv, rfl⟩

theorem shownAlike_frozen : ShownAlike (Frozen c) where
  cleared := by
    rintro s _ ⟨h, environment, dotenv, rfl⟩
    exact ⟨h, environment, dotenv, rfl⟩
  calls := by
    rintro s _ ⟨h, environment, dotenv, rfl⟩
    rfl
  written := by
    rintro s _ ⟨h, environment, dotenv, rfl⟩
    rfl

end Store

open Store

/-! ### What the accesses do -/

section

variable {c : Settings}

theorem respects_getSettings_frozen : getSettings.Respects (Frozen c) := by
  rintro s _ ⟨h, environment, dotenv, rfl⟩
  have ht : (s.withSources environment dotenv).cached = some c := h
  rw [getSettings_ok (settings_of_cached h), getSettings_ok (settings_of_cached ht),
    loaded_of_cached h, loaded_of_cached ht]
  exact .ok ⟨h, environment, dotenv, rfl⟩

theorem respects_currentThreshold_frozen : Logging.currentThreshold.Respects (Frozen c) := by
  rintro s _ ⟨h, environment, dotenv, rfl⟩
  have ht : (s.withSources environment dotenv).cached = some c := h
  cases hs : s.threshold with
  | some v =>
      have hst : (s.withSources environment dotenv).threshold = some v := hs
      rw [Logging.currentThreshold_set hs, Logging.currentThreshold_set hst]
      exact .ok ⟨h, environment, dotenv, rfl⟩
  | none =>
      have hst : (s.withSources environment dotenv).threshold = none := hs
      rw [Logging.currentThreshold_unset hs (settings_of_cached h),
        Logging.currentThreshold_unset hst (settings_of_cached ht), loaded_of_cached h,
        loaded_of_cached ht]
      exact .ok ⟨h, environment, dotenv, rfl⟩

theorem respects_rendererFor (R : Store → Store → Prop) (format output colors : Value) :
    (Logging.rendererFor format output colors).Respects R := by
  unfold Logging.rendererFor
  split
  · exact Run.respects_pure _
  · exact Run.respects_pure _
  · exact Run.respects_pure _
  · exact (Run.respects_ofExcept _).bind fun _ => Run.respects_throw _

theorem respects_configure_frozen (format level output colors : Value) :
    (Logging.configure format level output colors).Respects (Frozen c) := by
  refine respects_getSettings_frozen.bind fun settings => ?_
  cases hl : (Logging.orElse (.text settings.logLevel.text) level).text? with
  | none =>
      simp only [hl]
      exact Run.respects_throw _
  | some text =>
      simp only [hl]
      refine (Run.respects_modify ?_).bind fun _ => ?_
      · rintro s _ ⟨h, environment, dotenv, rfl⟩
        exact ⟨h, environment, dotenv, rfl⟩
      refine (respects_rendererFor _ _ _ _).bind fun renderer => ?_
      refine (Run.respects_modify ?_).bind fun _ => Run.respects_pure renderer
      rintro s _ ⟨h, environment, dotenv, rfl⟩
      exact ⟨h, environment, dotenv, rfl⟩

theorem respects_currentRenderer_frozen : Logging.currentRenderer.Respects (Frozen c) := by
  rintro s _ ⟨h, environment, dotenv, rfl⟩
  cases hs : s.renderer with
  | some r =>
      have hst : (s.withSources environment dotenv).renderer = some r := hs
      rw [Logging.currentRenderer_installed hs, Logging.currentRenderer_installed hst]
      exact .ok ⟨h, environment, dotenv, rfl⟩
  | none =>
      have ht : (s.withSources environment dotenv).cached = some c := h
      have hst : (s.withSources environment dotenv).renderer = none := hs
      rw [Logging.currentRenderer_lazy hs (settings_of_cached h),
        Logging.currentRenderer_lazy hst (settings_of_cached ht)]
      exact .ok ⟨rfl, environment, dotenv, rfl⟩

/-- **The sources of settings are invisible** to every access but a clear. -/
theorem respects_frozen {β : Type} (x : Access β) (hx : x.kind ≠ .clear) :
    x.run.Respects (Frozen c) := by
  cases x with
  | settings => exact respects_getSettings_frozen
  | threshold => exact respects_currentThreshold_frozen
  | renderer => exact respects_currentRenderer_frozen
  | configure format level output colors => exact respects_configure_frozen _ _ _ _
  | clear => exact absurd rfl hx
  | setEnvironment change =>
      rintro s _ ⟨h, environment, dotenv, rfl⟩
      exact .ok ⟨h, change environment, dotenv, rfl⟩
  | setDotEnv content =>
      rintro s _ ⟨h, environment, dotenv, rfl⟩
      exact .ok ⟨h, environment, content, rfl⟩
  | write _ _ | noteCall _ _ | freshId | define _ | callback _ | clock | reset | setClock _ =>
      rintro s _ ⟨h, environment, dotenv, rfl⟩
      exact .ok ⟨h, environment, dotenv, rfl⟩

end

/-! ### Changes of the sources -/

namespace Step

def isChange (step : Step) : Bool :=
  (step.operation? == some .setVariable || step.operation? == some .setDotEnv) &&
    step.register.isNone && step.isPlain

theorem clear_not_mem_kinds {step : Step} (h : step.operation? ≠ some .clearSettings) :
    .clear ∉ step.kinds := by
  unfold kinds
  cases ho : step.operation? with
  | none => decide
  | some operation =>
      rw [ho] at h
      revert h
      cases operation <;> decide

variable {call : Calls} (hc : call.Steady)
include hc

theorem respects_run_frozen {step : Step} (h : step.operation? ≠ some .clearSettings)
    (registers : Registers) (c : Settings) :
    (step.run call registers).Respects (Frozen c) := by
  refine (step.uses_run registers hc).respects fun x hx => respects_frozen x ?_
  intro hk
  rw [hk] at hx
  exact clear_not_mem_kinds h hx

theorem after_change {step : Step} (h : step.isChange = true) (registers : Registers) (s : Store) :
    ∃ environment dotenv, (step.run call registers).after s = s.withSources environment dotenv := by
  simp only [isChange, Bool.and_eq_true, Bool.or_eq_true, beq_iff_eq] at h
  obtain ⟨⟨hop, -⟩, hplain⟩ := h
  have huses : (step.run call registers).Uses [.setEnvironment, .setDotEnv] := by
    obtain ho | ho := hop
    · exact (uses_run_plain registers hc hplain ho).mono (by decide)
    · exact (uses_run_plain registers hc hplain ho).mono (by decide)
  refine huses.preserves (I := fun t => ∃ environment dotenv, t = s.withSources environment dotenv)
    ?_ ⟨_, _, rfl⟩
  rintro β x hx _ ⟨environment, dotenv, rfl⟩
  cases x with
  | setEnvironment change => exact ⟨change environment, dotenv, rfl⟩
  | setDotEnv content => exact ⟨environment, content, rfl⟩
  | _ => simp [Access.kind] at hx

end Step

namespace Session

def answersTo (shown : Step → Bool) (call : Calls) (session : Session) (steps : List Step) :
    List Answer :=
  ((steps.zip (session.run call steps)).filter fun x => shown x.1).map Prod.snd

theorem answersTo_cons (shown : Step → Bool) (call : Calls) (session : Session) (step : Step)
    (steps : List Step) :
    session.answersTo shown call (step :: steps) =
      if shown step then
        (session.step call step).1 :: (session.step call step).2.answersTo shown call steps
      else (session.step call step).2.answersTo shown call steps := by
  simp only [answersTo, run, List.zip_cons_cons, List.filter_cons]
  split <;> rfl

variable {call : Calls} {c : Settings}

theorem registers_step (session : Session) {step : Step} (h : step.register = none) :
    (session.step call step).2.registers = session.registers := by
  cases hrun : step.run call session.registers session.store.cleared with
  | ok v t => rw [step_of_ok hrun, h, keep]
  | error error t => rw [step_of_error hrun]

section

variable (hc : call.Steady)
include hc

theorem related_of_change {x y : Session} (h : Related (Frozen c) x y) {step : Step}
    (hs : step.isChange = true) : Related (Frozen c) (x.step call step).2 y := by
  obtain ⟨environment, dotenv, hafter⟩ := step.after_change hc hs x.registers x.store.cleared
  obtain ⟨hcached, environment', dotenv', hy⟩ := h.store
  have hregister : step.register = none := by
    simp only [Step.isChange, Bool.and_eq_true, Option.isNone_iff_eq_none] at hs
    exact hs.1.2
  refine ⟨(registers_step x hregister).trans h.registers, ?_⟩
  rw [store_step, hafter]
  exact ⟨hcached, environment', dotenv', hy⟩

/-- **Changes between cache clears are invisible**: all other steps are answered as in the run
without the changes. -/
theorem answers_eq_run_filter {steps : List Step}
    (hsteps : ∀ step ∈ steps, step.operation? ≠ some .clearSettings) {x y : Session}
    (h : Related (Frozen c) x y) :
    x.answersTo (fun step => !step.isChange) call steps =
      y.run call (steps.filter fun step => !step.isChange) := by
  induction steps generalizing x y with
  | nil => rfl
  | cons step rest ih =>
      obtain ⟨hstep, hrest⟩ := List.forall_mem_cons.mp hsteps
      rw [answersTo_cons, List.filter_cons]
      cases hs : step.isChange with
      | true => exact ih hrest (related_of_change hc h hs)
      | false =>
          have hrun := Step.respects_run_frozen hc hstep x.registers c
          obtain ⟨hanswer, hnext⟩ := step_related shownAlike_frozen hrun h
          simp only [Bool.not_false, if_true]
          rw [ih hrest hnext, hanswer, run]

theorem answersTo_eq_of_filter_eq {session : Session} (h : session.store.cached = some c)
    {steps more : List Step}
    (hclear : ∀ step ∈ steps ++ more, step.operation? ≠ some .clearSettings)
    (hfilter : (steps.filter fun step => !step.isChange) = more.filter fun step => !step.isChange) :
    session.answersTo (fun step => !step.isChange) call steps =
      session.answersTo (fun step => !step.isChange) call more := by
  have hrelated : Related (Frozen c) session session := ⟨rfl, frozen_refl h⟩
  obtain ⟨hsteps, hmore⟩ := List.forall_mem_append.mp hclear
  rw [answers_eq_run_filter hc hsteps hrelated, hfilter, answers_eq_run_filter hc hmore hrelated]

/-- Settings stay in the cache until it is cleared. -/
theorem cached_after {session : Session} (h : session.store.cached = some c) {steps : List Step}
    (hsteps : ∀ step ∈ steps, step.operation? ≠ some .clearSettings) :
    (session.after call steps).store.cached = some c := by
  have hrelated : Related (Frozen c) session session := ⟨rfl, frozen_refl h⟩
  have hrun := run_related shownAlike_frozen
    (fun step hs registers => step.respects_run_frozen hc (hsteps step hs) registers c) hrelated
  exact hrun.2.store.1

end

end Session

/-! ### Loads that fail -/

/-- The ways of getting at the store in which settings may be loaded. -/
def Access.loading : List Access.Kind := [.settings, .threshold, .renderer, .configure]

/-- **A load that fails changes nothing**, whatever asked for the settings. -/
theorem after_of_unloadable {α : Type} (x : Access α) (hx : x.kind ∈ Access.loading) {s : Store}
    {error : Error} (h : s.settings = .error error) : x.run.after s = s := by
  cases x with
  | settings => exact Run.after_of_error (getSettings_error h).1
  | threshold =>
      cases ht : s.threshold with
      | some v => exact Run.after_of_ok (Logging.currentThreshold_set ht)
      | none => exact Run.after_of_error (Logging.currentThreshold_error ht h)
  | renderer =>
      cases hr : s.renderer with
      | some r => exact Run.after_of_ok (Logging.currentRenderer_installed hr)
      | none => exact Run.after_of_error (Logging.currentRenderer_error hr h)
  | configure format level output colors =>
      exact Run.after_of_error (Logging.configure_of_settings_error h _ _ _ _)
  | _ => simp [Access.kind, Access.loading] at hx

theorem cached_of_getSettings_ok {s t : Store} {c : Settings} (h : getSettings s = .ok c t) :
    t.cached = some c := by
  cases hs : s.settings with
  | ok c' =>
      rw [getSettings_ok hs] at h
      cases h
      rfl
  | error error =>
      rw [(getSettings_error hs).1] at h
      cases h

theorem unloadable_of_getSettings_error {s t : Store} {error : Error}
    (h : getSettings s = .error error t) :
    t = s ∧ s.cached = none ∧ Settings.load s.surroundings = .error error := by
  cases hs : s.settings with
  | ok c =>
      rw [getSettings_ok hs] at h
      cases h
  | error error' =>
      obtain ⟨hrun, hcached⟩ := getSettings_error hs
      rw [hrun] at h
      cases h
      rw [settings_of_not_cached hcached] at hs
      exact ⟨rfl, hcached, hs⟩

/-- With an empty cache the settings are loaded afresh. -/
theorem getSettings_of_not_cached {s : Store} (h : s.cached = none) :
    getSettings s =
      match Settings.load s.surroundings with
      | .ok c => .ok c (s.loaded c)
      | .error error => .error error s := by
  rw [← settings_of_not_cached h]
  cases hs : s.settings with
  | ok c => exact getSettings_ok hs
  | error error => exact (getSettings_error hs).1

def Operation.asking : List Operation :=
  [.getSettings, .configureLogging, .renderErrors, .report, .getLogger]

namespace Step

/-- The step asks for settings, always or where nothing is configured: it calls an operation that
does, or a method of a logger in a register.  Its arguments define no functions. -/
def Asks (registers : Registers) (step : Step) : Prop :=
  step.isPlain = true ∧
    ((∃ operation ∈ Operation.asking, step.operation? = some operation) ∨
      ∃ (on name : String) (logger : Logger), step.target = .method (.register on) name ∧
        registers.lookup on = some logger.toValue)

theorem sources_not_mem_kinds {step : Step} (h : step.operation? ≠ some .setVariable)
    (h' : step.operation? ≠ some .setDotEnv) :
    .setEnvironment ∉ step.kinds ∧ .setDotEnv ∉ step.kinds := by
  unfold kinds
  cases ho : step.operation? with
  | none => decide
  | some operation =>
      rw [ho] at h h'
      revert h h'
      cases operation <;> decide

variable {call : Calls} (hc : call.Steady)
include hc

theorem uses_run_asking {step : Step} {registers : Registers} (h : step.Asks registers) :
    (step.run call registers).Uses (.write :: .clock :: Access.loading) := by
  obtain ⟨hplain, ⟨operation, hop, ho⟩ | ⟨on, name, logger, ht, hlogger⟩⟩ := h
  · refine (uses_run_plain registers hc hplain ho).mono ?_
    revert hop
    cases operation <;> decide
  · have hon : (Term.register on).eval registers = pure logger.toValue := by
      simp only [Term.eval, hlogger]
    simp only [run, ht, hon, pure_bind]
    obtain ⟨bound, hm, hb⟩ | ⟨error, hm⟩ := logger.method_cases call
      fun method _ _ hb => Method.uses_ofLogger (List.Subset.refl _) logger method hb
    · rw [hm, pure_bind]
      exact (uses_arguments_plain registers hplain).bind fun arguments =>
        (hb arguments).mono (by decide)
    · rw [hm]
      exact .throw error

/-- A step that asks for settings where none can be loaded leaves no trace but what it wrote. -/
theorem cleared_after_unloadable {step : Step} {registers : Registers} (hasks : step.Asks registers)
    {s : Store} {error : Error} (h : s.settings = .error error) :
    ((step.run call registers).after s).cleared = s.cleared := by
  refine (step.uses_run_asking hc hasks).preserves (I := fun t => t.cleared = s.cleared) ?_ rfl
  intro β x hx t ht
  obtain hx | hx | hx : x.kind = .write ∨ x.kind = .clock ∨ x.kind ∈ Access.loading := by
    simpa using hx
  · cases x with
    | write stream text => exact ht
    | _ => cases hx
  · cases x with
    | clock => exact ht
    | _ => cases hx
  · have hsettings : t.settings = .error error := by
      change t.cleared.settings = .error error
      rw [ht]
      exact h
    rw [after_of_unloadable x hx hsettings]
    exact ht

/-- Where nothing is kept and nothing can be loaded, nothing gets into the cache. -/
theorem not_cached_after {step : Step} (h : step.operation? ≠ some .setVariable)
    (h' : step.operation? ≠ some .setDotEnv) (registers : Registers) {environment dotenv error}
    (he : ∀ time, Settings.load ⟨environment, dotenv, time⟩ = .error error) {s : Store}
    (hs : s.cached = none ∧ s.surroundings.environment = environment ∧
      s.surroundings.dotenv = dotenv) :
    ((step.run call registers).after s).cached = none ∧
      ((step.run call registers).after s).surroundings.environment = environment ∧
      ((step.run call registers).after s).surroundings.dotenv = dotenv := by
  obtain ⟨henvironment, hdotenv⟩ := sources_not_mem_kinds h h'
  refine (step.uses_run registers hc).preserves (I := fun t => t.cached = none ∧
    t.surroundings.environment = environment ∧ t.surroundings.dotenv = dotenv) ?_ hs
  rintro β x hx t ⟨hcached, rfl, rfl⟩
  by_cases hload : x.kind ∈ Access.loading
  · have hsettings : t.settings = .error error :=
      (settings_of_not_cached hcached).trans (he t.surroundings.clock)
    rw [after_of_unloadable x hload hsettings]
    exact ⟨hcached, rfl, rfl⟩
  · cases x with
    | setEnvironment change => exact absurd hx henvironment
    | setDotEnv content => exact absurd hx hdotenv
    | settings | threshold | renderer => exact absurd (by decide) hload
    | configure _ _ _ _ => exact absurd (by simp [Access.kind, Access.loading]) hload
    | clear => exact ⟨rfl, rfl, rfl⟩
    | write _ _ | noteCall _ _ | freshId | define _ | callback _ | clock | reset | setClock _ =>
        exact ⟨hcached, rfl, rfl⟩

end Step

namespace Session

theorem shownAlike_eq : ShownAlike Eq where
  cleared h := by rw [h]
  calls h := by rw [h]
  written h := by rw [h]

theorem respects_eq {α : Type} (run : Run α) : run.Respects Eq := by
  rintro s _ rfl
  exact Run.agree_self (fun _ => rfl) run s

/-- What was called and written before does not matter to the steps that follow. -/
theorem run_of_cleared {call : Calls} {x y : Session} (hr : x.registers = y.registers)
    (hs : x.store.cleared = y.store.cleared) (steps : List Step) :
    x.run call steps = y.run call steps :=
  (run_related shownAlike_eq (fun _ _ _ => respects_eq _) ⟨hr, hs⟩).1

section

variable {call : Calls} (hc : call.Steady)
include hc

/-- After a step that asked for settings in vain, the run goes on as if the step had not been. -/
theorem tail_run_of_unloadable {session : Session} {step : Step} {error : Error}
    (h : session.store.settings = .error error) (hasks : step.Asks session.registers)
    (hregisters : (session.step call step).2.registers = session.registers) (steps : List Step) :
    (session.run call (step :: steps)).tail = session.run call steps := by
  have hs : session.store.cleared.settings = .error error := h
  refine run_of_cleared hregisters ?_ steps
  rw [store_step, step.cleared_after_unloadable hc hasks hs]
  rfl

/-- While the sources stay as they are, what cannot be loaded does not get into the cache. -/
theorem not_cached_after_of_unloadable {session : Session} {error : Error}
    (h : session.store.cached = none)
    (he : Settings.load session.store.surroundings = .error error) {steps : List Step}
    (hsteps : ∀ step ∈ steps,
      step.operation? ≠ some .setVariable ∧ step.operation? ≠ some .setDotEnv) :
    (session.after call steps).store.cached = none := by
  refine (preserves_after (I := fun t => t.cached = none ∧
    t.surroundings.environment = session.store.surroundings.environment ∧
    t.surroundings.dotenv = session.store.surroundings.dotenv) (fun _ h => h) ?_ ⟨h, rfl, rfl⟩).1
  intro step hstep registers s hs
  obtain ⟨hv, hd⟩ := hsteps step hstep
  exact step.not_cached_after hc hv hd registers (fun _ => he) hs

end

/-- **Settings are frozen between cache clears, and failures are not cached.**  From any state with
settings in the cache, two runs without a clear that differ in changes of the environment and of the
file `.env` only give the same answers to all other steps, and the settings stay in the cache; a
load that succeeds puts them there.  A load that fails leaves the store as it was, whatever asked
for the settings, and the steps that follow run as if it had not happened.  The cache stays empty as
long as the sources stay the same, and with an empty cache the settings are those of the sources at
that time. -/
theorem settings_frozen :
    Callback.calls.Steady ∧ ∀ call : Calls, call.Steady →
      (∀ (session : Session) (c : Settings) (steps more : List Step),
        session.store.cached = some c →
        (∀ step ∈ steps ++ more, step.operation? ≠ some .clearSettings) →
        (steps.filter fun step => !step.isChange) = (more.filter fun step => !step.isChange) →
        session.answersTo (fun step => !step.isChange) call steps =
            session.answersTo (fun step => !step.isChange) call more ∧
          (session.after call steps).store.cached = some c) ∧
      (∀ (s t : Store) (c : Settings), getSettings s = .ok c t → t.cached = some c) ∧
      (∀ (s t : Store) (error : Error), getSettings s = .error error t →
        t = s ∧ s.cached = none ∧ Settings.load s.surroundings = .error error) ∧
      (∀ (α : Type) (x : Access α) (s : Store) (error : Error), x.kind ∈ Access.loading →
        s.settings = .error error → x.run.after s = s) ∧
      (∀ (session : Session) (step : Step) (steps : List Step) (error : Error),
        session.store.settings = .error error → step.Asks session.registers →
        (session.step call step).2.registers = session.registers →
        (session.run call (step :: steps)).tail = session.run call steps) ∧
      (∀ (session : Session) (steps : List Step) (error : Error),
        session.store.cached = none → Settings.load session.store.surroundings = .error error →
        (∀ step ∈ steps, step.operation? ≠ some .setVariable ∧ step.operation? ≠ some .setDotEnv) →
        (session.after call steps).store.cached = none) ∧
      ∀ s : Store, s.cached = none →
        getSettings s =
          match Settings.load s.surroundings with
          | .ok c => .ok c (s.loaded c)
          | .error error => .error error s := by
  refine ⟨Callback.steady_calls, fun call hc => ⟨?_, ?_, ?_, ?_, ?_, ?_, ?_⟩⟩
  · intro session c steps more hcached hclear hfilter
    have hsteps := (List.forall_mem_append.mp hclear).1
    exact ⟨answersTo_eq_of_filter_eq hc hcached hclear hfilter, cached_after hc hcached hsteps⟩
  · exact fun s t c h => cached_of_getSettings_ok h
  · exact fun s t error h => unloadable_of_getSettings_error h
  · exact fun α x s error hx h => after_of_unloadable x hx h
  · intro session step steps error h hasks hregisters
    exact tail_run_of_unloadable hc h hasks hregisters steps
  · intro session steps error hcached he hsteps
    exact not_cached_after_of_unloadable hc hcached he hsteps
  · exact fun s hcached => getSettings_of_not_cached hcached

/-- A variable that no settings can be loaded with, set after the settings were loaded and before:
the first run does not notice it, and in the second one nothing is loaded, kept or changed. -/
theorem settings_frozen_variable :
    let set : Step :=
      { target := .operation "set_env",
        positional := [.text "VALIDCASE_LOG_LEVEL", .text "LOUD"] }
    let get : Step := { target := .operation "get_settings" }
    let loaded : Session := { store := { cached := some {} } }
    let broken : Session :=
      { store := { surroundings := { environment := [("VALIDCASE_LOG_LEVEL", "LOUD")] } } }
    loaded.answersTo (fun step => !step.isChange) Callback.calls [set, get] =
        loaded.answersTo (fun step => !step.isChange) Callback.calls [get] ∧
      (getSettings.after broken.store).cached = none ∧
      Access.renderer.run.after broken.store = broken.store ∧
      (broken.run Callback.calls [get, get]).tail = broken.run Callback.calls [get] ∧
      (broken.after Callback.calls [get]).store.cached = none := by
  intro set get loaded broken
  obtain ⟨hfrozen, -, hload, haccess, hfailed, hempty, -⟩ :=
    settings_frozen.2 Callback.calls settings_frozen.1
  obtain ⟨error, herror⟩ : ∃ error, broken.store.settings = .error error := ⟨_, rfl⟩
  refine ⟨?_, ?_, ?_, ?_, ?_⟩
  · exact (hfrozen loaded {} [set, get] [get] rfl (by decide) rfl).1
  · have hrun := (getSettings_error herror).1
    obtain ⟨-, hcached, -⟩ := hload _ _ error hrun
    exact (congrArg Store.cached (Run.after_of_error hrun)).trans hcached
  · exact haccess _ .renderer broken.store error (by decide) herror
  · exact hfailed broken get [get] error herror ⟨rfl, .inl ⟨.getSettings, by decide, rfl⟩⟩ rfl
  · exact hempty broken [get] error rfl herror (by decide)

end Session

end Accrual
