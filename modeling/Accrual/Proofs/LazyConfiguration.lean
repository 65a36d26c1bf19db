import Accrual.Proofs.Logging.Steps

/-!
# Lazy and eager configuration

Where nothing is configured, the first entry through the configured renderer
configures logging from the settings.  It makes no difference to do so at once:
a store that waits for its configuration and the same store configured from its
settings are told apart by no steady access (`respects_lazy`), so that all
answers and all texts are the same (`lazy_eq_eager`).  The two stores are one as
soon as the first such entry is there.
-/

namespace Accrual

/-! ### Stores that wait for their configuration -/

namespace Store

/-- The second store is the first one, or the first one configured from its settings while the first
one still waits for that. -/
inductive Lazy (c : Settings) : Store → Store → Prop
  | settled (s : Store) : Lazy c s s
  | waiting {s : Store} (renderer : s.renderer = none) (threshold : s.threshold = none)
      (settings : s.settings = .ok c) : Lazy c s (s.configured c)

variable {c : Settings}

theorem Lazy.eq_of_renderer {s t : Store} (h : Lazy c s t) (hr : s.renderer.isSome = true) :
    s = t := by
  cases h with
  | settled => rfl
  | waiting hnone =>
      rw [hnone] at hr
      cases hr

theorem shownAlike_lazy : ShownAlike (Lazy c) where
  cleared := by
    rintro s _ (_ | ⟨hr, ht, hs⟩)
    · exact .settled _
    · exact .waiting (s := s.cleared) hr ht hs
  calls := by
    rintro s _ (_ | ⟨hr, ht, hs⟩) <;> rfl
  written := by
    rintro s _ (_ | ⟨hr, ht, hs⟩) <;> rfl

end Store

open Store

variable {c : Settings}

/-- While a store waits, each access does the same as in the configured store. -/
theorem agree_waiting {β : Type} (x : Access β) (hx : x.kind ∈ .setClock :: Access.steady)
    {s : Store} (hr : s.renderer = none) (ht : s.threshold = none) (hs : s.settings = .ok c) :
    Run.Agree (Lazy c) (x.run s) (x.run (s.configured c)) := by
  have hcached : (s.configured c).cached = some c := rfl
  have hloaded : Lazy c (s.loaded c) (s.configured c) := .waiting (s := s.loaded c) hr ht rfl
  cases x with
  | settings =>
      change Run.Agree _ (getSettings s) (getSettings (s.configured c))
      rw [getSettings_ok hs, getSettings_ok (settings_of_cached hcached), loaded_of_cached hcached]
      exact .ok hloaded
  | threshold =>
      change Run.Agree _ (Logging.currentThreshold s) (Logging.currentThreshold (s.configured c))
      rw [Logging.currentThreshold_unset ht hs, Logging.currentThreshold_set rfl]
      exact .ok hloaded
  | renderer =>
      -- the place where the waiting store is configured
      change Run.Agree _ (Logging.currentRenderer s) (Logging.currentRenderer (s.configured c))
      rw [Logging.currentRenderer_lazy hr hs, Logging.currentRenderer_installed rfl]
      exact .ok (.settled _)
  | write stream text =>
      exact .ok (.waiting (s := { s with written := s.written ++ [(stream, text)] }) hr ht hs)
  | noteCall tag arguments =>
      exact .ok (.waiting (s := { s with calls := s.calls ++ [(tag, arguments)] }) hr ht hs)
  | freshId => exact .ok (.waiting (s := { s with nextId := s.nextId + 1 }) hr ht hs)
  | define f => exact .ok (.waiting (s := { s with callbacks := s.callbacks ++ [f] }) hr ht hs)
  | callback id => exact .ok (.waiting hr ht hs)
  | clock => exact .ok (.waiting hr ht hs)
  | setClock time =>
      exact .ok (.waiting (s := { s with surroundings := { s.surroundings with clock := time } })
        hr ht hs)
  | _ => simp [Access.kind, Access.steady] at hx

theorem respects_lazy {β : Type} (x : Access β) (hx : x.kind ∈ .setClock :: Access.steady) :
    x.run.Respects (Lazy c) := by
  rintro s _ (_ | ⟨hr, ht, hs⟩)
  · exact Run.agree_self Lazy.settled x.run s
  · exact agree_waiting x hx hr ht hs

/-! ### Steps that leave the configuration to the settings -/

/-- The operations that change what is configured, the cache, or the sources of settings. -/
def Operation.configuring : List Operation :=
  [.configureLogging, .resetLogging, .clearSettings, .setVariable, .setDotEnv]

namespace Step

def LeavesConfiguration (step : Step) : Prop :=
  ∀ operation ∈ Operation.configuring, step.operation? ≠ some operation

instance (step : Step) : Decidable step.LeavesConfiguration :=
  inferInstanceAs
    (Decidable (∀ operation ∈ Operation.configuring, step.operation? ≠ some operation))

theorem LeavesConfiguration.kinds_subset {step : Step} (h : step.LeavesConfiguration) :
    step.kinds ⊆ .setClock :: Access.steady := by
  unfold kinds
  cases ho : step.operation? with
  | none => exact List.subset_cons_self _ _
  | some operation =>
      have hop : operation ∉ Operation.configuring := fun hm => h operation hm ho
      revert hop
      cases operation <;> decide

/-- The step emits an entry through the configured renderer. -/
def Emits (registers : Registers) (s : Store) (step : Step) : Prop :=
  ∃ x t, step.logCall registers s = .ok (some x) t ∧ x.isEmitted = true

variable {registers : Registers}

theorem respects_run_lazy {call : Calls} (hc : call.Steady) {step : Step}
    (h : step.LeavesConfiguration) (registers : Registers) :
    (step.run call registers).Respects (Lazy c) :=
  (step.uses_run registers hc).respects fun x hx => respects_lazy x (h.kinds_subset hx)

/-- After an entry through it, there is a configured renderer. -/
theorem renderer_of_emits (call : Calls) {step : Step} {s : Store} (hs : s.settings = .ok c)
    (h : step.Emits registers s) :
    ((step.run call registers).after s).renderer.isSome = true := by
  obtain ⟨x, t, hx, he⟩ := h
  have ht : t.settings = .ok c := by
    have := (step.uses_logCall registers).settings_after (by decide) hs
    rwa [Run.after_of_ok hx] at this
  rw [after_of_logCall call hx, LogCall.renderer_after_run, he, if_pos rfl, nextRenderer, ht]
  cases t.renderer <;> rfl

end Step

namespace Session

variable {call : Calls}

def configuration : Step := { target := .operation "configure_logging" }

theorem step_configuration {session : Session} (hs : session.store.settings = .ok c) :
    session.step call configuration =
      (⟨.ok c.renderer.toValue, [], []⟩,
        ⟨session.registers, session.store.cleared.configured c⟩) := by
  have hconfigure : configuration.run call session.registers session.store.cleared =
      .ok c.renderer.toValue (session.store.cleared.configured c) :=
    Run.bind_of_ok (Logging.configure_absent (s := session.store.cleared) hs) _
  exact step_of_ok hconfigure

variable (hc : call.Steady) {steps : List Step}
  (hsteps : ∀ step ∈ steps, step.LeavesConfiguration)
include hc hsteps

theorem settings_after {session : Session} (h : session.store.settings = .ok c) :
    (session.after call steps).store.settings = .ok c := by
  refine preserves_after (I := fun s => s.settings = .ok c) (fun _ h => h) ?_ h
  intro step hm registers s hs
  exact ((step.uses_run registers hc).mono (hsteps step hm).kinds_subset).settings_after
    (by decide) hs

theorem renderer_isSome_after {session : Session} (h : session.store.renderer.isSome = true) :
    (session.after call steps).store.renderer.isSome = true := by
  refine preserves_after (I := fun s => s.renderer.isSome = true) (fun _ h => h) ?_ h
  intro step hm registers s hs
  obtain ⟨r, hr⟩ := Option.isSome_iff_exists.mp hs
  have huses := (step.uses_run registers hc).mono (hsteps step hm).kinds_subset
  exact Option.isSome_iff_exists.mpr ⟨r, huses.renderer_installed (by decide) hr⟩

omit hc hsteps

/-- **Lazy configuration is eager configuration.**  Where nothing is configured and the settings
load, a run without steps that configure gives the same answers, and writes the same texts, as the
same run after a configuration from the settings alone.  If any step emits an entry through the
configured renderer, both runs end with the same configuration. -/
theorem lazy_eq_eager :
    Callback.calls.Steady ∧ ∀ call : Calls, call.Steady →
      ∀ (session : Session) (c : Settings) (steps : List Step),
        session.store.renderer = none → session.store.threshold = none →
        session.store.settings = .ok c → (∀ step ∈ steps, step.LeavesConfiguration) →
        session.run call (configuration :: steps) =
            ⟨.ok c.renderer.toValue, [], []⟩ :: session.run call steps ∧
          ∀ (earlier later : List Step) (step : Step), steps = earlier ++ step :: later →
            step.Emits (session.after call earlier).registers
              (session.after call earlier).store.cleared →
            (session.after call steps).store.renderer =
                (session.after call (configuration :: steps)).store.renderer ∧
              (session.after call steps).store.threshold =
                (session.after call (configuration :: steps)).store.threshold := by
  refine ⟨Callback.steady_calls, fun call hc session c steps hr ht hs hsteps => ?_⟩
  have hstart : Related (Lazy c) session (session.step call configuration).2 := by
    rw [step_configuration hs]
    exact ⟨rfl, .waiting (s := session.store.cleared) hr ht hs⟩
  have hrespects : ∀ step ∈ steps, ∀ registers, (step.run call registers).Respects (Lazy c) :=
    fun step hm registers => step.respects_run_lazy hc (hsteps step hm) registers
  obtain ⟨hanswers, hend⟩ := run_related shownAlike_lazy hrespects hstart
  refine ⟨?_, ?_⟩
  · rw [run, ← hanswers, step_configuration hs]
  · rintro earlier later step rfl hemits
    obtain ⟨hearlier, hlater⟩ := List.forall_mem_append.mp hsteps
    have hsettings : (session.after call earlier).store.cleared.settings = .ok c :=
      settings_after hc hearlier hs
    have hstep := Step.renderer_of_emits call hsettings hemits
    rw [← store_step] at hstep
    have hrenderer := renderer_isSome_after hc (List.forall_mem_cons.mp hlater).2 hstep
    rw [← after_cons, ← after_append] at hrenderer
    have heq := hend.store.eq_of_renderer hrenderer
    have hsame := congrArg Store.renderer heq
    have hlevel := congrArg Store.threshold heq
    exact ⟨hsame, hlevel⟩

/-- A logger that is made and used before a report, with nothing configured. -/
theorem lazy_eq_eager_warning :
    let steps : List Step :=
      [{ target := .operation "get_logger", positional := [.text "app"], register := some "log" },
        { target := .method (.register "log") "warning", positional := [.text "careful"] },
        { target := .operation "report", positional := [.failure (.text "late")] }]
    let session : Session := { store := { cached := some {} } }
    session.run Callback.calls (configuration :: steps) =
        ⟨.ok (Settings.renderer {}).toValue, [], []⟩ :: session.run Callback.calls steps ∧
      (session.after Callback.calls steps).store.renderer =
        (session.after Callback.calls (configuration :: steps)).store.renderer := by
  intro steps session
  obtain ⟨hrun, hend⟩ := lazy_eq_eager.2 Callback.calls lazy_eq_eager.1 session {} steps rfl rfl rfl
    (by decide)
  refine ⟨hrun, (hend [steps[0]] [steps[2]] steps[1] rfl ⟨_, _, rfl, rfl⟩).1⟩

end Session

end Accrual
