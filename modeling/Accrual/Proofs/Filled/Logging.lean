import Accrual.Proofs.Filled.Validation
import Accrual.Report

/-!
# Logging filled values

Loggers and renderers only pass on what they are given: the context of a logger
is put together from filled entries, and the renderer and the threshold that are
configured come from filled arguments, from the settings, or from the table of
level names.  A report hands back the very validation it was given.
-/

namespace Accrual

open Value

/-! ### Entries -/

namespace Entries

theorem Filled.insert {key content : Value} (hk : key.Filled) (hv : content.Filled)
    {entries : Entries} (h : Filled entries) : Filled (Keyed.insert key content entries) :=
  Keyed.forall_mem_insert hk hv h

theorem Filled.merge {more : Entries} (hm : Filled more) {entries : Entries}
    (h : Filled entries) : Filled (Keyed.merge entries more) := Keyed.forall_mem_merge hm h

theorem Filled.erase {entries : Entries} (h : Filled entries) (keys : List Value) :
    Filled (Keyed.erase keys entries) := fun e he => h e (List.mem_filter.mp he).1

theorem filled_ofTexts {fields : List (String × Value)} (h : ∀ f ∈ fields, f.2.Filled) :
    Filled (ofTexts fields) := by
  intro e he
  obtain ⟨f, hf, rfl⟩ := List.mem_map.mp he
  exact ⟨filled_text _, h f hf⟩

end Entries

/-! ### Settings and configuration -/

theorem keeps_getSettings : getSettings.Keeps fun _ => True := by
  refine Run.keeps_get.bind fun s _ => ?_
  cases s.cached with
  | some settings => exact Run.keeps_pure trivial
  | none =>
      refine Run.keeps_get.bind fun s _ => ?_
      cases Settings.load s.surroundings with
      | error error => exact Run.keeps_throw _
      | ok settings =>
          refine (Run.keeps_modify fun s hs => ?_).bind fun _ _ => Run.keeps_pure trivial
          exact ⟨hs.renderer, hs.threshold, hs.calls, hs.callbacks⟩

theorem keeps_clearSettings : clearSettings.Keeps fun _ => True :=
  Run.keeps_modify fun _ hs => ⟨hs.renderer, hs.threshold, hs.calls, hs.callbacks⟩

namespace Logging

theorem filled_thresholdOf (level : String) : (thresholdOf level).Filled := by
  have htable : ∀ row ∈ levelTable, row.2.Filled := by
    simp [levelTable, Entries.Filled]
  unfold thresholdOf
  cases hl : levelTable.lookup (Text.upper level) with
  | none => exact filled_int _
  | some v =>
      exact htable (Text.upper level, v) (mem_of_lookup hl)

theorem filled_orElse {fallback v : Value} (hf : fallback.Filled) (hv : v.Filled) :
    (orElse fallback v).Filled := by
  unfold orElse
  split
  · exact hv
  · exact hf

theorem keeps_rendererFor (format : Value) {output colors : Value} (ho : output.Filled)
    (hc : colors.Filled) : (rendererFor format output colors).Keeps fun r => r.toValue.Filled := by
  unfold rendererFor
  split
  · exact Run.keeps_pure (filled_consoleRenderer.mpr ⟨filled_orElse (filled_stream _) ho, hc⟩)
  · exact Run.keeps_pure (filled_jsonRenderer.mpr (filled_orElse (filled_stream _) ho))
  · exact Run.keeps_pure (filled_of_parts_nil rfl)
  · exact (Run.keeps_ofExcept_any _).bind fun _ _ => Run.keeps_throw _

theorem keeps_setThreshold {v : Value} (h : v.Filled) :
    (modify fun s => { s with threshold := some v } : Run PUnit).Keeps fun _ => True :=
  Run.keeps_modify fun _ hs =>
    ⟨hs.renderer, fun _ hm => Option.mem_some.mp hm ▸ h, hs.calls, hs.callbacks⟩

theorem keeps_setRenderer {r : Renderer} (h : r.toValue.Filled) :
    (modify fun s => { s with renderer := some r } : Run PUnit).Keeps fun _ => True :=
  Run.keeps_modify fun _ hs =>
    ⟨fun _ hm => Option.mem_some.mp hm ▸ h, hs.threshold, hs.calls, hs.callbacks⟩

theorem keeps_configure (format level : Value) {output colors : Value} (ho : output.Filled)
    (hc : colors.Filled) :
    (configure format level output colors).Keeps fun r => r.toValue.Filled := by
  refine keeps_getSettings.bind fun settings _ => ?_
  have hcolors : (if colors.isAbsent then .bool (settings.logging.colors.getD false)
      else colors : Value).Filled := by
    split
    · exact filled_bool _
    · exact hc
  cases hl : (orElse (.text settings.logLevel.text) level).text? with
  | none =>
      simp only [hl]
      exact Run.keeps_throw _
  | some text =>
      simp only [hl]
      refine (keeps_setThreshold (filled_thresholdOf text)).bind fun _ _ => ?_
      refine (keeps_rendererFor _ ho hcolors).bind fun renderer hr => ?_
      exact (keeps_setRenderer hr).bind fun _ _ => Run.keeps_pure hr

theorem keeps_reset : reset.Keeps fun _ => True :=
  Run.keeps_modify fun _ hs =>
    ⟨fun _ hm => (by cases hm), fun _ hm => (by cases hm), hs.calls, hs.callbacks⟩

theorem keeps_currentRenderer : currentRenderer.Keeps fun _ => True := by
  refine Run.keeps_get.bind fun s _ => ?_
  cases s.renderer with
  | some renderer => exact Run.keeps_pure trivial
  | none =>
      exact (keeps_configure absent absent filled_absent filled_absent).mono fun _ _ => trivial

theorem keeps_currentThreshold : currentThreshold.Keeps Filled := by
  refine Run.keeps_get.bind fun s hs => ?_
  cases ht : s.threshold with
  | some threshold => exact Run.keeps_pure (hs.threshold threshold ht)
  | none => exact keeps_getSettings.bind fun _ _ => Run.keeps_pure (filled_int _)

end Logging

/-! ### Loggers -/

namespace Renderer

theorem keeps_writeLine (output : Value) (line : List Char) :
    (writeLine output line).Keeps fun _ => True := by
  cases output with
  | stream stream => exact Run.keeps_write _ _
  | _ => exact Run.keeps_throw _

theorem keeps_render (entry : LogEntry) (r : Renderer) : (r.render entry).Keeps fun _ => True := by
  unfold render
  split
  · split
    next line _ => exact keeps_writeLine _ line
    next error _ => exact Run.keeps_throw error
  · split
    next line _ => exact keeps_writeLine _ line
    next error _ => exact Run.keeps_throw error
  · exact Run.keeps_pure trivial

end Renderer

namespace Logger

theorem filled_bind {logger : Logger} (h : logger.toValue.Filled) {fields : Entries}
    (hf : Entries.Filled fields) : (logger.bind fields).toValue.Filled := by
  obtain ⟨hr, ht, hcontext⟩ := filled_logger.mp h
  exact filled_logger.mpr ⟨hr, ht, hf.merge hcontext⟩

theorem filled_unbind {logger : Logger} (h : logger.toValue.Filled) (keys : List Value) :
    (logger.unbind keys).toValue.Filled := by
  obtain ⟨hr, ht, hcontext⟩ := filled_logger.mp h
  exact filled_logger.mpr ⟨hr, ht, hcontext.erase keys⟩

theorem keeps_activeRenderer (logger : Logger) : logger.activeRenderer.Keeps fun _ => True := by
  unfold activeRenderer
  split
  · split
    · exact Run.keeps_pure trivial
    · exact Run.keeps_throw _
  · exact Logging.keeps_currentRenderer

theorem keeps_log (level event : Value) (fields : Entries) (logger : Logger) :
    (logger.log level event fields).Keeps fun _ => True := by
  unfold log
  split
  · exact Run.keeps_throw _
  · exact Run.keeps_pure trivial
  · refine (keeps_activeRenderer logger).bind fun renderer _ => ?_
    cases Logging.levelName level with
    | error error => exact Run.keeps_throw _
    | ok name => exact Run.keeps_get.bind fun _ _ => Renderer.keeps_render _ renderer

end Logger

theorem keeps_getLogger {name : Value} (hn : name.Filled) {context : Entries}
    (hc : Entries.Filled context) : (getLogger name context).Keeps fun l => l.toValue.Filled := by
  refine Logging.keeps_currentThreshold.bind fun threshold ht => Run.keeps_pure ?_
  refine filled_logger.mpr ⟨filled_absent, ht, ?_⟩
  split
  · exact hc.insert (filled_text _) hn
  · exact hc

/-! ### Reports -/

theorem keeps_renderErrors (errors bullet separator : Value) :
    (renderErrors errors bullet separator).Keeps fun _ => True := by
  refine keeps_getSettings.bind fun settings _ => ?_
  cases hs : (if separator.isAbsent then .text settings.report.separator
      else separator : Value).text? with
  | none =>
      simp only [hs]
      exact Run.keeps_throw _
  | some text =>
      simp only [hs]
      exact (Run.keeps_ofExcept_any _).bind fun _ _ => Run.keeps_pure trivial

theorem keeps_reportLogger {log : Value} (h : log.Filled) :
    (reportLogger log).Keeps fun l => l.toValue.Filled := by
  unfold reportLogger
  split
  · cases log with
    | logger context renderer threshold => exact Run.keeps_pure h
    | _ => exact Run.keeps_throw _
  · exact keeps_getLogger (filled_text _) fun _ he => by cases he

theorem keeps_report {validation : Value} (hv : validation.Filled) {log : Value} (hl : log.Filled)
    (operation : Value) :
    (report validation log operation).Keeps Filled := by
  refine (keeps_reportLogger hl).bind fun logger _ => ?_
  cases Validation.ofValue? validation with
  | none => exact Run.keeps_throw _
  | some v =>
      cases v with
      | success value =>
          exact (Logger.keeps_log _ _ _ _).bind fun _ _ => Run.keeps_pure hv
      | failure error =>
          refine keeps_getSettings.bind fun settings _ => ?_
          refine (Run.keeps_ofExcept_any _).bind fun texts _ => ?_
          exact (Logger.keeps_log _ _ _ _).bind fun _ _ => Run.keeps_pure hv

end Accrual
