import Accrual.Proofs.Frozen

/-!
# Configurations that are refused

A configuration is refused where the settings do not load, where the level is no
text, and where the format is given and unknown.  The threshold is set before
the format is looked at, so that the last of these leaves a new threshold behind
while the renderer stays (`refused_configuration`).  Wherever a refusal leaves
the threshold as it was, it goes unnoticed: at most it has loaded the settings,
and a store that keeps its settings already is told apart from one that is still
to load them by no access that leaves the sources of settings alone
(`respects_loads`).
-/

namespace Accrual

/-! ### Stores that differ in whether the settings are loaded -/

namespace Store

/-- The second store is the first one, or the first one with its settings loaded. -/
inductive Loads (c : Settings) : Store → Store → Prop
  | same (s : Store) : Loads c s s
  | loaded {s : Store} (settings : s.settings = .ok c) : Loads c s (s.loaded c)

theorem shownAlike_loads {c : Settings} : ShownAlike (Loads c) where
  cleared := by
    rintro s _ (_ | hs)
    · exact .same _
    · exact .loaded (s := s.cleared) hs
  calls := by rintro s _ (_ | hs) <;> rfl
  written := by rintro s _ (_ | hs) <;> rfl

end Store

open Store

variable {c : Settings}

/-- Whatever starts with the settings does the same in the store that has them loaded. -/
theorem getSettings_bind_loaded {α : Type} {s : Store} (hs : s.settings = .ok c)
    (next : Settings → Run α) :
    (getSettings >>= next) (s.loaded c) = (getSettings >>= next) s := by
  have hloaded : getSettings (s.loaded c) = .ok c (s.loaded c) := getSettings_ok rfl
  exact Run.bind_of_eq (hloaded.trans (getSettings_ok hs).symm) next

theorem agree_loaded {β : Type} (x : Access β) (hv : x.kind ≠ .setEnvironment)
    (hd : x.kind ≠ .setDotEnv) {s : Store} (hs : s.settings = .ok c) :
    Run.Agree (Loads c) (x.run s) (x.run (s.loaded c)) := by
  have hloaded : (s.loaded c).settings = .ok c := rfl
  cases x with
  | settings =>
      change Run.Agree _ (getSettings s) (getSettings (s.loaded c))
      rw [getSettings_ok hs, getSettings_ok hloaded]
      exact .ok (.same _)
  | threshold =>
      change Run.Agree _ (Logging.currentThreshold s) (Logging.currentThreshold (s.loaded c))
      cases ht : s.threshold with
      | some v =>
          have htl : (s.loaded c).threshold = some v := ht
          rw [Logging.currentThreshold_set ht, Logging.currentThreshold_set htl]
          exact .ok (.loaded hs)
      | none =>
          have htl : (s.loaded c).threshold = none := ht
          rw [Logging.currentThreshold_unset ht hs, Logging.currentThreshold_unset htl hloaded]
          exact .ok (.same _)
  | renderer =>
      change Run.Agree _ (Logging.currentRenderer s) (Logging.currentRenderer (s.loaded c))
      cases hr : s.renderer with
      | some r =>
          have hrl : (s.loaded c).renderer = some r := hr
          rw [Logging.currentRenderer_installed hr, Logging.currentRenderer_installed hrl]
          exact .ok (.loaded hs)
      | none =>
          have hrl : (s.loaded c).renderer = none := hr
          rw [Logging.currentRenderer_lazy hr hs, Logging.currentRenderer_lazy hrl hloaded]
          exact .ok (.same _)
  | configure format level output colors =>
      change Run.Agree _ (Logging.configure format level output colors s)
        (Logging.configure format level output colors (s.loaded c))
      rw [Logging.configure, getSettings_bind_loaded hs]
      exact Run.agree_self Loads.same _ s
  | write stream text =>
      exact .ok (.loaded (s := { s with written := s.written ++ [(stream, text)] }) hs)
  | noteCall tag arguments =>
      exact .ok (.loaded (s := { s with calls := s.calls ++ [(tag, arguments)] }) hs)
  | freshId => exact .ok (.loaded (s := { s with nextId := s.nextId + 1 }) hs)
  | define f => exact .ok (.loaded (s := { s with callbacks := s.callbacks ++ [f] }) hs)
  | callback id => exact .ok (.loaded hs)
  | clock => exact .ok (.loaded hs)
  | reset => exact .ok (.loaded (s := { s with renderer := none, threshold := none }) hs)
  | clear => exact .ok (.same _)
  | setClock time =>
      exact .ok (.loaded (s := { s with surroundings := { s.surroundings with clock := time } }) hs)
  | setEnvironment change => exact absurd rfl hv
  | setDotEnv content => exact absurd rfl hd

/-- **Whether the settings are loaded yet is invisible** to every access that leaves their sources
alone. -/
theorem respects_loads {β : Type} (x : Access β) (hv : x.kind ≠ .setEnvironment)
    (hd : x.kind ≠ .setDotEnv) : x.run.Respects (Loads c) := by
  rintro s _ (_ | hs)
  · exact Run.agree_self Loads.same x.run s
  · exact agree_loaded x hv hd hs

/-- A run that leaves the sources alone gives the same answers before and after the settings are
loaded. -/
theorem Session.run_loaded {call : Calls} (hc : call.Steady) {steps : List Step}
    (hsteps : ∀ step ∈ steps,
      step.operation? ≠ some .setVariable ∧ step.operation? ≠ some .setDotEnv)
    {s : Store} (hs : s.settings = .ok c) (registers : Registers) :
    Session.run call ⟨registers, s.loaded c⟩ steps = Session.run call ⟨registers, s⟩ steps := by
  have hrespects : ∀ step ∈ steps, ∀ registers, (step.run call registers).Respects (Loads c) := by
    intro step hm registers
    obtain ⟨henvironment, hdotenv⟩ :=
      Step.sources_not_mem_kinds (hsteps step hm).1 (hsteps step hm).2
    refine (step.uses_run registers hc).respects fun x hx => respects_loads x ?_ ?_
    · exact fun hk => henvironment (hk ▸ hx)
    · exact fun hk => hdotenv (hk ▸ hx)
  have hrelated : Related (Loads c) ⟨registers, s⟩ ⟨registers, s.loaded c⟩ :=
    ⟨rfl, .loaded (s := s.cleared) hs⟩
  exact (run_related shownAlike_loads hrespects hrelated).1.symm

/-! ### How far a refused configuration gets -/

namespace Logging

/-- The threshold that a configuration sets, unless the settings do not load or the level is no
text. -/
def thresholdAsked (level : Value) (s : Store) : Option Value :=
  match s.settings with
  | .ok c => (orElse (.text c.logLevel.text) level).text?.map thresholdOf
  | .error _ => none

variable {s : Store} {level : Value} (format output colors : Value)

/-- Without a threshold to set, the configuration is refused and has loaded the settings at most. -/
theorem configure_of_not_asked (h : thresholdAsked level s = none) :
    ∃ error t, configure format level output colors s = .error error t ∧
      (t = s ∨ ∃ c, s.settings = .ok c ∧ t = s.loaded c) := by
  rw [thresholdAsked] at h
  cases hs : s.settings with
  | error error => exact ⟨error, s, configure_of_settings_error hs _ _ _ _, .inl rfl⟩
  | ok c =>
      simp only [hs, Option.map_eq_none_iff] at h
      obtain ⟨error, herror⟩ := configure_of_no_level hs h format output colors
      exact ⟨error, _, herror, .inr ⟨c, rfl, rfl⟩⟩

theorem exists_level_of_asked {v : Value} (h : thresholdAsked level s = some v) :
    ∃ c text, s.settings = .ok c ∧ (orElse (.text c.logLevel.text) level).text? = some text ∧
      v = thresholdOf text := by
  rw [thresholdAsked] at h
  cases hs : s.settings with
  | error error =>
      rw [hs] at h
      cases h
  | ok c =>
      simp only [hs, Option.map_eq_some_iff] at h
      obtain ⟨text, htext, rfl⟩ := h
      exact ⟨c, text, rfl, htext, rfl⟩

/-- **What a refused configuration leaves behind**: the threshold it asked for, and the settings. -/
theorem threshold_of_configure_error {t : Store} {error : Error}
    (h : configure format level output colors s = .error error t) :
    t.threshold = (thresholdAsked level s).or s.threshold ∧
      (t.threshold = s.threshold → t = s ∨ ∃ c, s.settings = .ok c ∧ t = s.loaded c) := by
  cases hask : thresholdAsked level s with
  | none =>
      obtain ⟨error', t', hrun, hstore⟩ := configure_of_not_asked format output colors hask
      rw [hrun] at h
      cases h
      refine ⟨?_, fun _ => hstore⟩
      obtain rfl | ⟨c, -, rfl⟩ := hstore <;> rfl
  | some v =>
      obtain ⟨c, text, hs, hl, rfl⟩ := exists_level_of_asked hask
      by_cases hf : IsUnknown format
      · rw [configure_of_unknown hs hl hf] at h
        cases h
        refine ⟨rfl, fun ht => .inr ⟨c, hs, ?_⟩⟩
        change some (thresholdOf text) = s.threshold at ht
        rw [ht]
        rfl
      · obtain ⟨r, hrun⟩ := configure_of_known hs hl hf output colors
        rw [hrun] at h
        cases h

/-- **A configuration is refused** where there is no threshold for it to set, or for its format. -/
theorem configure_error_iff :
    (∃ error t, configure format level output colors s = .error error t) ↔
      thresholdAsked level s = none ∨ IsUnknown format := by
  cases hask : thresholdAsked level s with
  | none =>
      obtain ⟨error, t, hrun, -⟩ := configure_of_not_asked format output colors hask
      exact iff_of_true ⟨error, t, hrun⟩ (.inl rfl)
  | some v =>
      obtain ⟨c, text, hs, hl, rfl⟩ := exists_level_of_asked hask
      by_cases hf : IsUnknown format
      · exact iff_of_true ⟨_, _, configure_of_unknown hs hl hf output colors⟩ (.inr hf)
      · obtain ⟨r, hrun⟩ := configure_of_known hs hl hf output colors
        refine iff_of_false ?_ (not_or.mpr ⟨Option.some_ne_none _, hf⟩)
        rintro ⟨error, t, h⟩
        rw [hrun] at h
        cases h

end Logging

namespace Session

/-- **Refused configurations.**  A configuration is refused exactly where the settings do not load,
where the level is no text, or where the format is unknown.  It leaves the renderer as it was, and
the threshold as well unless it is refused for its format alone: then the threshold is the one that
was asked for.  Wherever the threshold is as it was, each later run that leaves the sources of
settings alone gives the answers that it gives without the refused configuration. -/
theorem refused_configuration {call : Calls} (hc : call.Steady) (s : Store)
    (format level output colors : Value) :
    ((∃ error t, Logging.configure format level output colors s = .error error t) ↔
      Logging.thresholdAsked level s = none ∨ Logging.IsUnknown format) ∧
    ∀ (error : Error) (t : Store),
      Logging.configure format level output colors s = .error error t →
      t.renderer = s.renderer ∧
      t.threshold = (Logging.thresholdAsked level s).or s.threshold ∧
      (t.threshold = s.threshold →
        ∀ (registers : Registers) (steps : List Step), (∀ step ∈ steps,
          step.operation? ≠ some .setVariable ∧ step.operation? ≠ some .setDotEnv) →
        Session.run call ⟨registers, t⟩ steps = Session.run call ⟨registers, s⟩ steps) := by
  refine ⟨Logging.configure_error_iff format output colors, fun error t h => ?_⟩
  obtain ⟨hthreshold, hstore⟩ := Logging.threshold_of_configure_error format output colors h
  refine ⟨?_, hthreshold, fun ht registers steps hsteps => ?_⟩
  · obtain ⟨cached, threshold, rfl⟩ := Logging.configure_error h
    rfl
  · obtain rfl | ⟨c, hs, rfl⟩ := hstore ht
    · rfl
    · exact run_loaded hc hsteps hs registers

/-- A level that is no text, where nothing is configured or loaded: the answers of a logger made
afterwards are the same. -/
theorem refused_configuration_number :
    let steps : List Step :=
      [{ target := .operation "get_logger", register := some "log" },
        { target := .method (.register "log") "info", positional := [.text "started"] }]
    ∃ error t, Logging.configure (.text "json") (.int 10) .absent .absent {} = .error error t ∧
      t.renderer = none ∧ t.threshold = none ∧ t.cached = some {} ∧
      Session.run Callback.calls ⟨[], t⟩ steps = Session.run Callback.calls ⟨[], {}⟩ steps := by
  intro steps
  obtain ⟨hiff, hleft⟩ := refused_configuration Callback.steady_calls {} (.text "json") (.int 10)
    .absent .absent
  obtain ⟨error, t, h⟩ := hiff.mpr (.inl rfl)
  obtain ⟨hrenderer, hthreshold, hrun⟩ := hleft error t h
  have hcached : t.cached = some {} := by
    cases h
    rfl
  exact ⟨error, t, h, hrenderer, hthreshold, hcached, hrun hthreshold [] steps (by decide)⟩

/-- An unknown format with another level: the logger that is made next has that level, and not the
one that it has without the refused configuration. -/
theorem refused_configuration_sets_threshold :
    let refused : Step :=
      { target := .operation "configure_logging", positional := [.text "xml", .text "DEBUG"] }
    let get : Step := { target := .operation "get_logger" }
    Session.run Callback.calls (.start {}) [refused, get] =
        [⟨.error (.unknownFormat "xml"), [], []⟩,
          ⟨.ok (.logger [] .absent (.int 10)), [], []⟩] ∧
      Session.run Callback.calls (.start {}) [get] =
        [⟨.ok (.logger [] .absent (.int 20)), [], []⟩] ∧
      ((Session.start {}).after Callback.calls [refused]).store.threshold = some (.int 10) ∧
      (Session.start {}).store.threshold = none :=
  ⟨rfl, rfl, rfl, rfl⟩

end Session

end Accrual
