import Accrual.Proofs.Access.Basic
import Accrual.Report

/-!
# How logging and reports get at the store

A call of a logger asks for the renderer in force, reads the clock and writes.
A new logger asks for the threshold, and what is rendered or reported asks for
the settings.
-/

namespace Accrual

variable {allowed : List Access.Kind}

namespace Renderer

theorem uses_writeLine (hw : .write ∈ allowed) (output : Value) (line : List Char) :
    (writeLine output line).Uses allowed := by
  cases output with
  | stream stream => exact .access (.write stream (String.ofList (line ++ ['\n']))) hw
  | _ => exact .throw _

theorem uses_render (hw : .write ∈ allowed) (entry : LogEntry) (r : Renderer) :
    (r.render entry).Uses allowed := by
  unfold render
  split
  · split
    next line _ => exact uses_writeLine hw _ line
    next error _ => exact .throw error
  · split
    next line _ => exact uses_writeLine hw _ line
    next error _ => exact .throw error
  · exact .pure ()

end Renderer

namespace Logger

theorem uses_activeRenderer (hr : .renderer ∈ allowed) (logger : Logger) :
    logger.activeRenderer.Uses allowed := by
  unfold activeRenderer
  split
  · split
    · exact .pure _
    · exact .throw _
  · exact .access .renderer hr

def handOver (level event : Value) (fields : Entries) (logger : Logger) (renderer : Renderer) :
    Run Unit :=
  match Logging.levelName level with
  | .error error => throw error
  | .ok name => Access.clock.run >>= fun time =>
      renderer.render ⟨time, name, event, Keyed.merge logger.context fields⟩

theorem log_eq (level event : Value) (fields : Entries) (logger : Logger) :
    logger.log level event fields =
      match Value.lt level logger.threshold with
      | .error error => throw error
      | .ok true => pure ()
      | .ok false => logger.activeRenderer >>= logger.handOver level event fields := rfl

theorem uses_handOver (h : [.clock, .write] ⊆ allowed) (level event : Value) (fields : Entries)
    (logger : Logger) (renderer : Renderer) :
    (logger.handOver level event fields renderer).Uses allowed := by
  unfold handOver
  cases Logging.levelName level with
  | error error => exact .throw error
  | ok name =>
      exact (Run.Uses.access .clock (h (by decide))).bind fun time =>
        Renderer.uses_render (h (by decide)) _ renderer

theorem uses_log (h : [.renderer, .clock, .write] ⊆ allowed) (level event : Value)
    (fields : Entries) (logger : Logger) : (logger.log level event fields).Uses allowed := by
  rw [log_eq]
  split
  · exact .throw _
  · exact .pure ()
  · refine (uses_activeRenderer (h (by decide)) logger).bind fun renderer => ?_
    exact uses_handOver (List.Subset.trans (by decide) h) _ _ _ _ renderer

end Logger

theorem uses_getLogger (ht : .threshold ∈ allowed) (name : Value) (context : Entries) :
    (getLogger name context).Uses allowed :=
  (Run.Uses.access .threshold ht).bind fun _ => .pure _

/-! ### Reports -/

theorem uses_renderErrors (hs : .settings ∈ allowed) (errors bullet separator : Value) :
    (renderErrors errors bullet separator).Uses allowed := by
  refine (Run.Uses.access .settings hs).bind fun settings => ?_
  cases ht : (if separator.isAbsent then .text settings.report.separator
      else separator : Value).text? with
  | none =>
      simp only [ht]
      exact .throw _
  | some text =>
      simp only [ht]
      exact (Run.Uses.ofExcept _).bind fun _ => .pure _

theorem uses_reportLogger (ht : .threshold ∈ allowed) (log : Value) :
    (reportLogger log).Uses allowed := by
  unfold reportLogger
  split
  · cases Logger.ofValue? log with
    | some logger => exact .pure logger
    | none => exact .throw _
  · exact uses_getLogger ht _ _

theorem uses_report (h : [.settings, .threshold, .renderer, .clock, .write] ⊆ allowed)
    (validation log operation : Value) : (report validation log operation).Uses allowed := by
  have hlog : ∀ level event fields (logger : Logger),
      (logger.log level event fields).Uses allowed :=
    Logger.uses_log (List.Subset.trans (by decide) h)
  refine (uses_reportLogger (h (by decide)) log).bind fun logger => ?_
  cases Validation.ofValue? validation with
  | none => exact .throw _
  | some v =>
      cases v with
      | success value => exact (hlog _ _ _ _).bind fun _ => .pure _
      | failure error =>
          refine (Run.Uses.access .settings (h (by decide))).bind fun settings => ?_
          refine (Run.Uses.ofExcept _).bind fun texts => ?_
          exact (hlog _ _ _ _).bind fun _ => .pure _

end Accrual
