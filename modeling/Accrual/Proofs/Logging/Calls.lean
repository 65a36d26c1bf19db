import Accrual.Proofs.Logging.Configuration
import Accrual.Proofs.Logging.Rendering

/-!
# Calls of a logger

A `LogCall` is what a logger is asked to log.  With whole numbers for its level
and its threshold it does one of two things.  Below the threshold it does
nothing (`run_below`).  Otherwise its entry goes to one renderer: to the one of
the logger's own (`run_own`), else to the one that is installed
(`run_installed`), else to the one that the settings ask for, which is installed
by that (`run_lazy`); if the settings do not load, nothing happens but the error
(`run_unloadable`).

An entry shows the name of its level, and a level that is too long to be written
out has no name.  So a renderer gets no entry for such a level, but only for
such a level (`LogCall.handTo`).
-/

namespace Accrual

/-! ### Names of levels -/

namespace Logging

/-- The name that a record shows for a level: its own one, or one made of the number. -/
def levelText (n : Int) : String :=
  (numberNames.lookup n).getD (Text.lower ("Level " ++ (Value.int n).toPlain))

/-- A number with a name of its own is short. -/
theorem isWritable_of_named {n : Int} {name : String} (h : numberNames.lookup n = some name) :
    (Value.int n).isWritable = true := by
  obtain ⟨before, after, hrows, -⟩ := List.lookup_eq_some_iff.mp h
  have hmem : (n, name) ∈ numberNames := by rw [hrows]; simp
  have hshort : ∀ row ∈ numberNames, row.1.natAbs < 100 := by decide
  exact Value.isWritable_int (Nat.lt_trans (hshort _ hmem) (by decide))

/-- **A level has a name** unless its number is too long to be written out. -/
theorem levelName_int (n : Int) : levelName (.int n) =
    if (Value.int n).isWritable then .ok (levelText n) else .error .numberTooLong := by
  unfold levelName levelText
  cases h : numberNames.lookup n with
  | some name =>
      rw [isWritable_of_named h]
      simp [Value.unhashable?, Value.toInt?, h]
  | none =>
      simp only [Value.unhashable?, Value.toInt?, Option.bind_some, h, Value.text?, Option.any_none,
        Bool.false_eq_true, if_false, otherLevelText, Option.getD_none, Value.written_eq]
      cases (Value.int n).isWritable <;> rfl

end Logging

def LevelName.shown : LevelName → String
  | debug => "debug"
  | info => "info"
  | warning => "warning"
  | error => "error"
  | critical => "critical"

theorem LevelName.levelText_number (level : LevelName) :
    Logging.levelText level.number = level.shown := by
  cases level <;> rfl

theorem LevelName.isWritable_number (level : LevelName) :
    (Value.int level.number).isWritable = true := by
  refine Value.isWritable_int ?_
  cases level <;> decide

theorem LevelName.levelName_number (level : LevelName) :
    Logging.levelName (.int level.number) = .ok level.shown := by
  rw [Logging.levelName_int, if_pos level.isWritable_number, level.levelText_number]

/-! ### Loggers and renderers -/

namespace Renderer

theorem isTruthy_toValue (r : Renderer) : r.toValue.isTruthy = true := by
  cases r <;> rfl

end Renderer

namespace Logger

theorem activeRenderer_own {logger : Logger} {r : Renderer} (h : logger.renderer = r.toValue) :
    logger.activeRenderer = pure r := by
  rw [activeRenderer, h, if_pos r.isTruthy_toValue, Renderer.ofValue?_toValue]

theorem activeRenderer_absent {logger : Logger} (h : logger.renderer = .absent) :
    logger.activeRenderer = Logging.currentRenderer := by
  rw [activeRenderer, h]
  rfl

@[simp] theorem renderer_bind (logger : Logger) (fields : Entries) :
    (logger.bind fields).renderer = logger.renderer := rfl

@[simp] theorem threshold_bind (logger : Logger) (fields : Entries) :
    (logger.bind fields).threshold = logger.threshold := rfl

@[simp] theorem renderer_unbind (logger : Logger) (keys : List Value) :
    (logger.unbind keys).renderer = logger.renderer := rfl

@[simp] theorem threshold_unbind (logger : Logger) (keys : List Value) :
    (logger.unbind keys).threshold = logger.threshold := rfl

end Logger

/-- The renderer that entries of the logger go to: its own, or else the one installed, or else the
one that the settings ask for. -/
def Logger.RendersBy (c : Settings) (s : Store) (logger : Logger) (r : Renderer) : Prop :=
  logger.renderer = r.toValue ∨ logger.renderer = .absent ∧ r = s.renderer.getD c.renderer

/-! ### Calls -/

structure LogCall where
  logger : Logger
  level : Value
  event : Value
  fields : Entries

namespace LogCall

def run (x : LogCall) : Run Unit := x.logger.log x.level x.event x.fields

def context (x : LogCall) : Entries := Keyed.merge x.logger.context x.fields

def entry (time : Seconds) (level : Int) (x : LogCall) : LogEntry :=
  ⟨time, Logging.levelText level, x.event, x.context⟩

/-- Hands the one entry of a call at a level to a renderer.  There is no entry at a level whose
number is too long to be written out. -/
def handTo (level : Int) (r : Renderer) (x : LogCall) : Run Unit := fun s =>
  if (Value.int level).isWritable then r.render (x.entry s.surroundings.clock level) s
  else .error .numberTooLong s

theorem handTo_of_isWritable {level : Int} (h : (Value.int level).isWritable = true) (r : Renderer)
    (x : LogCall) (s : Store) :
    x.handTo level r s = r.render (x.entry s.surroundings.clock level) s := if_pos h

variable {x : LogCall} {level threshold : Int} (hlevel : x.level = .int level)
  (hthreshold : x.logger.threshold = .int threshold)
include hlevel hthreshold

/-- **Below the threshold** nothing happens. -/
theorem run_below (h : level < threshold) (s : Store) : x.run s = .ok () s := by
  have hlt : Value.lt x.level x.logger.threshold = .ok true := by
    rw [hlevel, hthreshold, Value.lt, decide_eq_true h]
  rw [run, Logger.log, hlt]
  rfl

/-- From the threshold on, the entry goes to the active renderer. -/
theorem run_reaching (h : threshold ≤ level) {s t : Store} {r : Renderer}
    (hr : x.logger.activeRenderer s = .ok r t) : x.run s = x.handTo level r t := by
  have hlt : Value.lt x.level x.logger.threshold = .ok false := by
    rw [hlevel, hthreshold, Value.lt, decide_eq_false (by omega)]
  rw [run, Logger.log, hlt]
  dsimp only
  rw [Run.bind_of_ok hr, hlevel, Logging.levelName_int, handTo]
  cases (Value.int level).isWritable <;> rfl

variable (h : threshold ≤ level)
include h

theorem run_own {r : Renderer} (hr : x.logger.renderer = r.toValue) (s : Store) :
    x.run s = x.handTo level r s := by
  refine run_reaching hlevel hthreshold h ?_
  rw [Logger.activeRenderer_own hr]
  rfl

theorem run_installed (hx : x.logger.renderer = .absent) {s : Store} {r : Renderer}
    (hr : s.renderer = some r) : x.run s = x.handTo level r s := by
  refine run_reaching hlevel hthreshold h ?_
  rw [Logger.activeRenderer_absent hx]
  exact Logging.currentRenderer_installed hr

/-- **The first entry** goes to the renderer that the settings ask for, which stays. -/
theorem run_lazy (hx : x.logger.renderer = .absent) {s : Store} {c : Settings}
    (hr : s.renderer = none) (hc : s.settings = .ok c) :
    x.run s = x.handTo level c.renderer (s.configured c) := by
  have hactive : x.logger.activeRenderer s = .ok c.renderer (s.configured c) := by
    rw [Logger.activeRenderer_absent hx]
    exact Logging.currentRenderer_lazy hr hc
  exact run_reaching hlevel hthreshold h hactive

/-- **One entry to one renderer**, whichever of the three it is. -/
theorem run_rendersBy {s : Store} {c : Settings} (hc : s.settings = .ok c) {r : Renderer}
    (hr : x.logger.RendersBy c s r) :
    ∃ u, (u = s ∨ u = s.configured c) ∧ x.run s = x.handTo level r u := by
  obtain hown | ⟨hx, rfl⟩ := hr
  · exact ⟨s, .inl rfl, run_own hlevel hthreshold h hown s⟩
  · cases hs : s.renderer with
    | some r => exact ⟨s, .inl rfl, run_installed hlevel hthreshold h hx hs⟩
    | none => exact ⟨s.configured c, .inr rfl, run_lazy hlevel hthreshold h hx hs hc⟩

theorem run_unloadable (hx : x.logger.renderer = .absent) {s : Store} {error : Error}
    (hr : s.renderer = none) (he : s.settings = .error error) : x.run s = .error error s := by
  have hlt : Value.lt x.level x.logger.threshold = .ok false := by
    rw [hlevel, hthreshold, Value.lt, decide_eq_false (by omega)]
  rw [run, Logger.log, hlt]
  dsimp only
  rw [Logger.activeRenderer_absent hx]
  exact Run.bind_of_error (Logging.currentRenderer_error hr he) _

end LogCall

end Accrual
