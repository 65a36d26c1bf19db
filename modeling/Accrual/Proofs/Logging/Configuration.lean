import Accrual.Log.Logger
import Accrual.Proofs.Run
import Accrual.Proofs.Values.Writable

/-!
# What is configured, and what the settings configure

The settings in force are those that were loaded last or, where there are none,
those that a load gives (`Store.settings`).  A load that fails leaves the store
as it is (`getSettings_error`), so that the next one starts from the same place.

Configuring without arguments takes everything from the settings in force
(`configure_absent`).  It does to the store what `Store.configured` says, and so
does the first use of a renderer where there is none (`currentRenderer_lazy`).
Any configuration that succeeds installs the renderer it returns, and one that
fails leaves the renderer as it was (`configure_ok`, `configure_error`).  Once
the settings are there, it is refused for its level before anything is set
(`configure_of_no_level`), and for its format after the threshold is
(`configure_of_unknown`).
-/

namespace Accrual

/-! ### Settings in force -/

namespace Store

def settings (s : Store) : Except Error Settings :=
  match s.cached with
  | some settings => .ok settings
  | none => Settings.load s.surroundings

def loaded (settings : Settings) (s : Store) : Store := { s with cached := some settings }

theorem settings_of_cached {s : Store} {c : Settings} (h : s.cached = some c) :
    s.settings = .ok c := by
  rw [settings, h]

theorem settings_of_not_cached {s : Store} (h : s.cached = none) :
    s.settings = Settings.load s.surroundings := by
  rw [settings, h]

theorem loaded_of_cached {s : Store} {c : Settings} (h : s.cached = some c) : s.loaded c = s := by
  rw [loaded, ← h]

@[simp] theorem settings_loaded (c : Settings) (s : Store) : (s.loaded c).settings = .ok c := rfl

end Store

theorem getSettings_ok {s : Store} {c : Settings} (h : s.settings = .ok c) :
    getSettings s = .ok c (s.loaded c) := by
  rw [getSettings, Run.get_bind]
  cases hc : s.cached with
  | some c' =>
      rw [Store.settings_of_cached hc] at h
      cases h
      rw [Store.loaded_of_cached hc]
      rfl
  | none =>
      rw [Store.settings_of_not_cached hc] at h
      dsimp only
      rw [Run.get_bind, h]
      rfl

/-- **A load that fails changes nothing**: nothing is kept, and the next load starts afresh. -/
theorem getSettings_error {s : Store} {error : Error} (h : s.settings = .error error) :
    getSettings s = .error error s ∧ s.cached = none := by
  cases hc : s.cached with
  | some c =>
      rw [Store.settings_of_cached hc] at h
      cases h
  | none =>
      rw [Store.settings_of_not_cached hc] at h
      refine ⟨?_, rfl⟩
      rw [getSettings, Run.get_bind, hc]
      dsimp only
      rw [Run.get_bind, h]
      rfl

/-! ### Configuring -/

namespace Settings

def renderer (c : Settings) : Renderer :=
  match c.logging.format with
  | .console => .console (.stream .stderr) (.bool (c.logging.colors.getD false)) true
  | .json => .json (.stream .stdout)
  | .silent => .silent

end Settings

/-- The store once logging is configured from the settings alone. -/
def Store.configured (c : Settings) (s : Store) : Store :=
  { s with
    cached := some c, renderer := some c.renderer, threshold := some (.int c.logLevel.number) }

namespace Logging

theorem thresholdOf_text (level : LevelName) : thresholdOf level.text = .int level.number := by
  cases level <;> rfl

@[simp] theorem orElse_absent (v : Value) : orElse v .absent = v := rfl

theorem rendererFor_settings (c : Settings) (s : Store) :
    rendererFor (.text c.logging.format.text) .absent (.bool (c.logging.colors.getD false)) s =
      .ok c.renderer s := by
  rw [Settings.renderer]
  cases c.logging.format <;> rfl

/-- **Configuring from the settings alone.** -/
theorem configure_absent {s : Store} {c : Settings} (h : s.settings = .ok c) :
    configure .absent .absent .absent .absent s = .ok c.renderer (s.configured c) := by
  rw [configure, Run.bind_of_ok (getSettings_ok h)]
  simp only [orElse_absent, Value.text?, Value.isAbsent, if_true, Run.modify_bind]
  rw [Run.bind_of_ok (rendererFor_settings c _), Run.modify_bind, thresholdOf_text]
  rfl

theorem configure_of_settings_error {s : Store} {error : Error} (h : s.settings = .error error)
    (format level output colors : Value) :
    configure format level output colors s = .error error s :=
  Run.bind_of_error (getSettings_error h).1 _

def IsUnknown (format : Value) : Prop :=
  format.isTruthy = true ∧ ∀ f : LogFormat, format ≠ .text f.text

/-- The error for an unknown format, which shows the format if it can be written out. -/
def refusal (format : Value) : Error :=
  if format.isWritable then .unknownFormat format.toPlain else .numberTooLong

theorem rendererFor_unknown {format : Value} (h : IsUnknown format)
    (fallback output colors : Value) :
    rendererFor (orElse fallback format) output colors = throw (refusal format) := by
  rw [orElse, if_pos h.1]
  unfold rendererFor
  split
  · exact absurd rfl (h.2 .console)
  · exact absurd rfl (h.2 .json)
  · exact absurd rfl (h.2 .silent)
  · rw [Value.written_eq, refusal]
    split <;> rfl

theorem rendererFor_known {format : Value} (h : ¬IsUnknown format) (c : Settings)
    (output colors : Value) :
    ∃ r, rendererFor (orElse (.text c.logging.format.text) format) output colors = pure r := by
  have hnamed : ∃ f : LogFormat, orElse (.text c.logging.format.text) format = .text f.text := by
    rw [orElse]
    split
    next ht => exact Classical.byContradiction fun hne => h ⟨ht, fun f hf => hne ⟨f, hf⟩⟩
    next => exact ⟨c.logging.format, rfl⟩
  obtain ⟨f, hf⟩ := hnamed
  rw [hf]
  cases f <;> exact ⟨_, rfl⟩

section

variable {s : Store} {c : Settings} {level : Value} (hs : s.settings = .ok c)
include hs

/-- **Without a text for a level**, a configuration is refused before anything is set. -/
theorem configure_of_no_level (hl : (orElse (.text c.logLevel.text) level).text? = none)
    (format output colors : Value) :
    ∃ error, configure format level output colors s = .error error (s.loaded c) := by
  rw [configure, Run.bind_of_ok (getSettings_ok hs)]
  simp only [hl]
  exact ⟨_, rfl⟩

variable {text : String} (hl : (orElse (.text c.logLevel.text) level).text? = some text)
include hl

/-- With a level, the threshold is set, and then the format decides. -/
theorem configure_of_level (format output colors : Value) :
    ∃ shown, configure format level output colors s =
      (rendererFor (orElse (.text c.logging.format.text) format) output shown >>= fun renderer => do
        modify fun store => { store with renderer := some renderer }
        return renderer) { s.loaded c with threshold := some (thresholdOf text) } := by
  refine ⟨if colors.isAbsent then .bool (c.logging.colors.getD false) else colors, ?_⟩
  rw [configure, Run.bind_of_ok (getSettings_ok hs)]
  simp only [hl, Run.modify_bind]

/-- **An unknown format** is refused once the threshold is set. -/
theorem configure_of_unknown {format : Value} (hf : IsUnknown format) (output colors : Value) :
    configure format level output colors s = .error (refusal format)
      { s.loaded c with threshold := some (thresholdOf text) } := by
  obtain ⟨shown, hrun⟩ := configure_of_level hs hl format output colors
  rw [hrun, rendererFor_unknown hf]
  rfl

theorem configure_of_known {format : Value} (hf : ¬IsUnknown format) (output colors : Value) :
    ∃ r, configure format level output colors s = .ok r
      { s.loaded c with threshold := some (thresholdOf text), renderer := some r } := by
  obtain ⟨shown, hrun⟩ := configure_of_level hs hl format output colors
  obtain ⟨r, hr⟩ := rendererFor_known hf c output shown
  rw [hrun, hr]
  exact ⟨r, rfl⟩

end

/-- Everything that configuring can do once the settings are there: it is refused for its level, or
for its format once the threshold is set, or it installs what it returns. -/
theorem configure_cases {s : Store} {c : Settings} (h : s.settings = .ok c)
    (format level output colors : Value) :
    (∃ error, configure format level output colors s = .error error (s.loaded c)) ∨
      (∃ error v, configure format level output colors s =
        .error error { s.loaded c with threshold := some v }) ∨
      ∃ r v, configure format level output colors s =
        .ok r { s.loaded c with threshold := some v, renderer := some r } := by
  cases hl : (orElse (.text c.logLevel.text) level).text? with
  | none => exact .inl (configure_of_no_level h hl format output colors)
  | some text =>
      by_cases hf : IsUnknown format
      · exact .inr (.inl ⟨_, _, configure_of_unknown h hl hf output colors⟩)
      · obtain ⟨r, hr⟩ := configure_of_known h hl hf output colors
        exact .inr (.inr ⟨r, _, hr⟩)

/-- **A configuration that succeeds installs the renderer it returns**, and changes nothing else but
the threshold and the settings kept. -/
theorem configure_ok {s t : Store} {r : Renderer} {format level output colors : Value}
    (h : configure format level output colors s = .ok r t) :
    ∃ c v, s.settings = .ok c ∧
      t = { s.loaded c with threshold := some v, renderer := some r } := by
  cases hs : s.settings with
  | error error =>
      rw [configure_of_settings_error hs] at h
      cases h
  | ok c =>
      obtain ⟨error, he⟩ | ⟨error, v, he⟩ | ⟨r', v, hr⟩ :=
        configure_cases hs format level output colors
      · rw [he] at h
        cases h
      · rw [he] at h
        cases h
      · rw [hr] at h
        cases h
        exact ⟨c, v, rfl, rfl⟩

/-- **A configuration that fails** leaves the renderer as it was. -/
theorem configure_error {s t : Store} {error : Error} {format level output colors : Value}
    (h : configure format level output colors s = .error error t) :
    ∃ cached threshold, t = { s with cached := cached, threshold := threshold } := by
  cases hs : s.settings with
  | error error' =>
      rw [configure_of_settings_error hs] at h
      cases h
      exact ⟨s.cached, s.threshold, rfl⟩
  | ok c =>
      obtain ⟨error', he⟩ | ⟨error', v, he⟩ | ⟨r, v, hr⟩ :=
        configure_cases hs format level output colors
      · rw [he] at h
        cases h
        exact ⟨some c, s.threshold, rfl⟩
      · rw [he] at h
        cases h
        exact ⟨some c, some v, rfl⟩
      · rw [hr] at h
        cases h

/-! ### What is in force -/

theorem currentRenderer_installed {s : Store} {r : Renderer} (h : s.renderer = some r) :
    currentRenderer s = .ok r s := by
  rw [currentRenderer, Run.get_bind, h]
  rfl

/-- **The first use of a renderer** configures logging from the settings. -/
theorem currentRenderer_lazy {s : Store} {c : Settings} (h : s.renderer = none)
    (hc : s.settings = .ok c) : currentRenderer s = .ok c.renderer (s.configured c) := by
  rw [currentRenderer, Run.get_bind, h]
  exact configure_absent hc

theorem currentRenderer_error {s : Store} {error : Error} (h : s.renderer = none)
    (he : s.settings = .error error) : currentRenderer s = .error error s := by
  rw [currentRenderer, Run.get_bind, h]
  exact configure_of_settings_error he _ _ _ _

theorem currentThreshold_set {s : Store} {v : Value} (h : s.threshold = some v) :
    currentThreshold s = .ok v s := by
  rw [currentThreshold, Run.get_bind, h]
  rfl

theorem currentThreshold_unset {s : Store} {c : Settings} (h : s.threshold = none)
    (hc : s.settings = .ok c) :
    currentThreshold s = .ok (.int c.logLevel.number) (s.loaded c) := by
  rw [currentThreshold, Run.get_bind, h]
  exact Run.bind_of_ok (getSettings_ok hc) _

theorem currentThreshold_error {s : Store} {error : Error} (h : s.threshold = none)
    (he : s.settings = .error error) : currentThreshold s = .error error s := by
  rw [currentThreshold, Run.get_bind, h]
  exact Run.bind_of_error (getSettings_error he).1 _

end Logging

end Accrual
