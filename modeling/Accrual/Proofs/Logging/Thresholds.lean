import Accrual.Proofs.Logging.Contexts

/-!
# Thresholds

A level text asks for the number of the standard level that it names in any
letter case, for the one of the settings where it is empty, and for that of
`INFO` otherwise (`Logging.levelNumber`).  There are two exceptions: a layout and
a table of layout styles stand among the levels, and a text that names one of
these makes a threshold with which no level can be compared
(`Logging.IsMisnomer`, `Session.basic_format_fails_later`).

Where no step configures logging with one of the two, the threshold in force is
a number or there is none (`Store.HasLevel`): each access but a configuration
preserves this, and so does each step and each run (`Session.hasLevel_after`).
Every logger that is made there compares the level of each call with its
threshold, as do all loggers that it is changed into (`LogCall.IsCompared`).
-/

namespace Accrual

/-! ### What level texts stand for -/

/-- A plain letter in either case is written as the capital letter. -/
theorem Text.upperChar_of_toUpper {c : Char} (h : c.toUpper.toNat < 128) :
    upperChar c = [c.toUpper] := by
  have hc : c.toNat < 128 := by
    by_cases hsmall : c.val ≥ 'a'.val ∧ c.val ≤ 'z'.val
    · have hle := UInt32.le_iff_toNat_le.mp hsmall.2
      exact Nat.lt_of_le_of_lt hle (by decide)
    · have hsame : c.toUpper = c := dif_neg hsmall
      rw [hsame] at h
      exact h
  unfold upperChar
  split <;> first | omega | rfl

/-- **Letter case does not matter**: a plain name is told from any way to write it. -/
theorem Text.upper_of_letters {s name : String} (hplain : ∀ c ∈ name.toList, c.toNat < 128)
    (h : s.toList.map Char.toUpper = name.toList) : upper s = name := by
  have hupper : s.toList.flatMap upperChar = s.toList.map Char.toUpper := by
    rw [List.map_eq_flatMap]
    refine List.flatMap_congr fun c hc => upperChar_of_toUpper (hplain _ ?_)
    rw [← h]
    exact List.mem_map_of_mem hc
  rw [upper, hupper, h, String.ofList_toList]

namespace Logging

/-- The standard levels and their other names. -/
def standardLevels : List (String × Int) :=
  [("DEBUG", 10), ("INFO", 20), ("WARNING", 30), ("ERROR", 40), ("CRITICAL", 50), ("WARN", 30),
    ("FATAL", 50), ("NOTSET", 0)]

/-- What stands among the levels and is none. -/
def misnomers : List (String × Value) :=
  [("BASIC_FORMAT", .text "%(levelname)s:%(name)s:%(message)s"), ("_STYLES", .dictionary [])]

def IsMisnomer (level : String) : Prop := Text.upper level ∈ misnomers.map Prod.fst

instance (level : String) : Decidable (IsMisnomer level) :=
  inferInstanceAs (Decidable (Text.upper level ∈ misnomers.map Prod.fst))

/-- The number that a level text asks for. -/
def levelNumber (c : Settings) (level : String) : Int :=
  if level = "" then if c.debug then 10 else c.logging.level.number
  else (standardLevels.lookup (Text.upper level)).getD 20

/-- **A standard level** is named in any letter case. -/
theorem levelNumber_of_letters {name level : String} {n : Int} (hname : (name, n) ∈ standardLevels)
    (h : level.toList.map Char.toUpper = name.toList) (c : Settings) :
    ¬IsMisnomer level ∧ levelNumber c level = n := by
  have hrow : ∀ row ∈ standardLevels, row.1.toList.all (fun c => c.toNat < 128) = true ∧
      row.1 ≠ "" ∧ row.1 ∉ misnomers.map Prod.fst ∧
      standardLevels.lookup row.1 = some row.2 := by decide
  obtain ⟨hall, hne, hlevel, hlookup⟩ := hrow (name, n) hname
  have hplain : ∀ c ∈ name.toList, c.toNat < 128 := fun c hc =>
    of_decide_eq_true (List.all_eq_true.mp hall c hc)
  have hupper : Text.upper level = name := Text.upper_of_letters hplain h
  have hgiven : level ≠ "" := by
    rintro rfl
    exact hne hupper.symm
  refine ⟨?_, ?_⟩
  · rw [IsMisnomer, hupper]
    exact hlevel
  · rw [levelNumber, if_neg hgiven, hupper, hlookup]
    rfl

theorem levelTable_eq :
    levelTable = standardLevels.map (fun row => (row.1, .int row.2)) ++ misnomers := rfl

theorem lookup_levelTable (name : String) :
    levelTable.lookup name =
      ((standardLevels.lookup name).map Value.int).or (misnomers.lookup name) := by
  rw [levelTable_eq, List.lookup_append, Keyed.lookup_map]

theorem thresholdOf_eq {level : String} (h : ¬IsMisnomer level) :
    thresholdOf level = .int ((standardLevels.lookup (Text.upper level)).getD 20) := by
  have hnone : misnomers.lookup (Text.upper level) = none := by
    refine List.lookup_eq_none_iff.mpr fun row hrow => bne_iff_ne.mpr fun heq => h ?_
    rw [IsMisnomer, heq]
    exact List.mem_map_of_mem hrow
  rw [thresholdOf, lookup_levelTable, hnone, Option.or_none]
  cases standardLevels.lookup (Text.upper level) <;> rfl

/-- **A misnomer** makes no number. -/
theorem thresholdOf_of_misnomer {level : String} (h : IsMisnomer level) (n : Int) :
    thresholdOf level ≠ .int n := by
  simp only [IsMisnomer, misnomers, List.map_cons, List.map_nil, List.mem_cons, List.not_mem_nil,
    or_false] at h
  rw [thresholdOf]
  rcases h with h | h
  · rw [h]
    exact nofun
  · rw [h]
    exact nofun

theorem not_isMisnomer_empty : ¬IsMisnomer "" := by decide

theorem not_isMisnomer_text (level : LevelName) : ¬IsMisnomer level.text := by
  cases level <;> decide

/-- **A configuration with a level text** sets the number that the text asks for. -/
theorem configure_level {s : Store} {c : Settings} (hs : s.settings = .ok c) {format : Value}
    (hf : ¬IsUnknown format) (level : String) (output colors : Value) :
    ∃ r t, configure format (.text level) output colors s = .ok r t ∧
      (¬IsMisnomer level → t.threshold = some (.int (levelNumber c level))) ∧
      (IsMisnomer level → ∀ n : Int, t.threshold ≠ some (.int n)) := by
  by_cases hempty : level = ""
  · subst hempty
    have hlevel : (orElse (.text c.logLevel.text) (.text "")).text? = some c.logLevel.text := rfl
    obtain ⟨r, hr⟩ := configure_of_known hs hlevel hf output colors
    refine ⟨r, _, hr, fun _ => ?_, fun h => absurd h not_isMisnomer_empty⟩
    dsimp only
    rw [thresholdOf_text, levelNumber, if_pos rfl, Settings.logLevel]
    split <;> rfl
  · have hlevel : (orElse (.text c.logLevel.text) (.text level)).text? = some level := by
      rw [orElse, Value.isTruthy, bne_iff_ne.mpr hempty, if_pos rfl]
      rfl
    obtain ⟨r, hr⟩ := configure_of_known hs hlevel hf output colors
    refine ⟨r, _, hr, fun h => ?_, fun h n heq => ?_⟩
    · dsimp only
      rw [thresholdOf_eq h, levelNumber, if_neg hempty]
    · exact thresholdOf_of_misnomer h n (Option.some.inj heq)

end Logging

/-! ### Thresholds in force -/

def Store.HasLevel (s : Store) : Prop := ∀ v : Value, s.threshold = some v → ∃ n : Int, v = .int n

namespace Store

variable {s t : Store}

theorem HasLevel.of_threshold (h : s.HasLevel) (ht : t.threshold = s.threshold) : t.HasLevel :=
  fun v hv => h v (ht.symm.trans hv)

theorem hasLevel_of_int {n : Int} (h : s.threshold = some (.int n)) : s.HasLevel := by
  intro v hv
  rw [h] at hv
  exact ⟨n, (Option.some.inj hv).symm⟩

theorem hasLevel_of_none (h : s.threshold = none) : s.HasLevel := by
  intro v hv
  rw [h] at hv
  cases hv

end Store

theorem Logging.hasLevel_configure {s : Store} (h : s.HasLevel) {level : Value}
    (hl : ∀ text, level.text? = some text → ¬IsMisnomer text) (format output colors : Value) :
    ((configure format level output colors).after s).HasLevel := by
  cases hs : s.settings with
  | error error =>
      rw [Run.after_of_error (configure_of_settings_error hs format level output colors)]
      exact h
  | ok c =>
      cases htext : (orElse (.text c.logLevel.text) level).text? with
      | none =>
          obtain ⟨error, he⟩ := configure_of_no_level hs htext format output colors
          rw [Run.after_of_error he]
          exact h.of_threshold rfl
      | some text =>
          have hnumber : ¬IsMisnomer text := by
            rw [orElse] at htext
            split at htext
            · exact hl text htext
            · obtain rfl := Option.some.inj htext
              exact not_isMisnomer_text c.logLevel
          by_cases hf : IsUnknown format
          · rw [Run.after_of_error (configure_of_unknown hs htext hf output colors)]
            exact Store.hasLevel_of_int (congrArg some (thresholdOf_eq hnumber))
          · obtain ⟨r, hr⟩ := configure_of_known hs htext hf output colors
            rw [Run.after_of_ok hr]
            exact Store.hasLevel_of_int (congrArg some (thresholdOf_eq hnumber))

/-- **Each access but a configuration** leaves a number, if it leaves a threshold. -/
theorem Access.hasLevel_after {α : Type} (x : Access α) (hx : x.kind ≠ .configure) {s : Store}
    (h : s.HasLevel) : (x.run.after s).HasLevel := by
  cases x with
  | settings =>
      obtain heq | ⟨c, -, heq⟩ := Run.after_getSettings s
      · exact h.of_threshold (congrArg Store.threshold heq)
      · exact h.of_threshold ((congrArg Store.threshold heq).trans rfl)
  | threshold =>
      obtain heq | ⟨c, -, heq⟩ := Run.after_currentThreshold s
      · exact h.of_threshold (congrArg Store.threshold heq)
      · exact h.of_threshold ((congrArg Store.threshold heq).trans rfl)
  | renderer =>
      cases hr : s.renderer with
      | some r =>
          have heq := Run.after_of_ok (Logging.currentRenderer_installed hr)
          exact h.of_threshold (congrArg Store.threshold heq)
      | none =>
          cases hs : s.settings with
          | ok c =>
              have heq := Run.after_of_ok (Logging.currentRenderer_lazy hr hs)
              exact Store.hasLevel_of_int (congrArg Store.threshold heq)
          | error error =>
              have heq := Run.after_of_error (Logging.currentRenderer_error hr hs)
              exact h.of_threshold (congrArg Store.threshold heq)
  | configure _ _ _ _ => exact absurd rfl hx
  | reset => exact Store.hasLevel_of_none rfl
  | write _ _ | noteCall _ _ | freshId | define _ | callback _ | clock | clear | setEnvironment _
  | setDotEnv _ | setClock _ => exact h.of_threshold rfl

theorem Run.Uses.hasLevel_after {α : Type} {allowed : List Access.Kind} {run : Run α}
    (h : run.Uses allowed) (hk : .configure ∉ allowed) {s : Store} (hs : s.HasLevel) :
    (run.after s).HasLevel := by
  refine h.preserves (fun x hx t ht => x.hasLevel_after ?_ ht) hs
  intro hkind
  rw [hkind] at hx
  exact hk hx

/-! ### Steps and runs -/

variable {call : Calls} {registers : Registers}

namespace Step

/-- If the step configures logging, it gives no misnomer for the level. -/
def NamesLevel (registers : Registers) (s : Store) (step : Step) : Prop :=
  step.operation? = some .configureLogging →
    ∀ arguments t format level output colors, step.arguments registers s = .ok arguments t →
      arguments.take "configure_logging" Operation.configureLogging.parameters =
        .ok [format, level, output, colors] →
      ∀ text, level.text? = some text → ¬Logging.IsMisnomer text

theorem hasLevel_configureLogging {arguments : Arguments} {s : Store} (hs : s.HasLevel)
    (h : ∀ format level output colors,
      arguments.take "configure_logging" Operation.configureLogging.parameters =
        .ok [format, level, output, colors] →
      ∀ text, level.text? = some text → ¬Logging.IsMisnomer text) :
    ((Operation.configureLogging.run call arguments).after s).HasLevel := by
  rw [run_configureLogging]
  cases htake : arguments.take "configure_logging" Operation.configureLogging.parameters with
  | error error => exact hs
  | ok values =>
      have hlength : values.length = 4 := Arguments.length_of_take htake
      obtain ⟨format, level, output, colors, rfl⟩ := List.length_eq_four.mp hlength
      rw [Run.ofExcept_ok_bind, perform_configureLogging, Run.after_bind_pure]
      exact Logging.hasLevel_configure hs (h _ _ _ _ htake) format output colors

/-- **A step** leaves a number, if it leaves a threshold. -/
theorem hasLevel_after_run (hc : call.Steady) {step : Step} {s : Store} (hs : s.HasLevel)
    (h : step.NamesLevel registers s) : ((step.run call registers).after s).HasLevel := by
  by_cases ho : step.operation? = some .configureLogging
  · have hargs : (step.arguments registers).Uses [.define] :=
      step.uses_arguments registers List.mem_cons_self
    have hafter := hargs.hasLevel_after (by decide) hs
    rw [step.run_operation call ho]
    cases hrun : step.arguments registers s with
    | error error t =>
        rw [Run.after_of_error hrun] at hafter
        rw [Run.after_bind_of_error hrun]
        exact hafter
    | ok arguments t =>
        rw [Run.after_of_ok hrun] at hafter
        rw [Run.after_bind_of_ok hrun]
        exact hasLevel_configureLogging hafter fun format level output colors htake =>
          h ho arguments t format level output colors hrun htake
  · have hk : .configure ∉ step.kinds := by
      unfold kinds
      cases hop : step.operation? with
      | none => exact (by decide)
      | some operation =>
          rw [hop] at ho
          revert ho
          cases operation <;> decide
    exact (step.uses_run registers hc).hasLevel_after hk hs

end Step

namespace Session

def NamesLevels (call : Calls) : Session → List Step → Prop
  | _, [] => True
  | session, step :: rest =>
      step.NamesLevel session.registers session.store.cleared ∧
        NamesLevels call (session.step call step).2 rest

theorem NamesLevels.of_append {session : Session} {steps more : List Step}
    (h : session.NamesLevels call (steps ++ more)) : session.NamesLevels call steps := by
  induction steps generalizing session with
  | nil => trivial
  | cons step rest ih => exact ⟨h.1, ih h.2⟩

theorem hasLevel_step (hc : call.Steady) {session : Session} {step : Step}
    (hs : session.store.HasLevel)
    (h : step.NamesLevel session.registers session.store.cleared) :
    (session.step call step).2.store.HasLevel := by
  have hcleared : session.store.cleared.HasLevel := hs.of_threshold rfl
  rw [store_step]
  exact step.hasLevel_after_run hc hcleared h

/-- **In every reachable state** the threshold in force is a number, if there is one. -/
theorem hasLevel_after (hc : call.Steady) {session : Session} {steps : List Step}
    (hs : session.store.HasLevel) (h : session.NamesLevels call steps) :
    (session.after call steps).store.HasLevel := by
  induction steps generalizing session with
  | nil => exact hs
  | cons step rest ih => exact ih (hasLevel_step hc hs h.1) h.2

def Makes (call : Calls) (session : Session) (steps : List Step) (logger : Logger) : Prop :=
  ∃ earlier step later, steps = earlier ++ step :: later ∧ step.operation? = some .getLogger ∧
    ((session.after call earlier).step call step).1.result = .ok logger.toValue

end Session

/-! ### Loggers that are made -/

theorem threshold_of_getLogger {name : Value} {context : Entries} {s t : Store} (hs : s.HasLevel)
    {logger : Logger} (h : getLogger name context s = .ok logger t) :
    ∃ n : Int, logger.threshold = .int n := by
  obtain ⟨v, u, hthreshold, h⟩ := Run.bind_ok h
  cases h
  cases hset : s.threshold with
  | some w =>
      rw [Logging.currentThreshold_set hset] at hthreshold
      cases hthreshold
      exact hs v hset
  | none =>
      cases hc : s.settings with
      | ok c =>
          rw [Logging.currentThreshold_unset hset hc] at hthreshold
          cases hthreshold
          exact ⟨c.logLevel.number, rfl⟩
      | error error =>
          rw [Logging.currentThreshold_error hset hc] at hthreshold
          cases hthreshold

theorem Operation.threshold_of_getLogger {arguments : Arguments} {s t : Store} (hs : s.HasLevel)
    {v : Value} (h : Operation.getLogger.run call arguments s = .ok v t) :
    ∃ (logger : Logger) (n : Int), v = logger.toValue ∧ logger.threshold = .int n := by
  have hmade : ∀ (name : Value) (context : Entries),
      (Accrual.getLogger name context >>= fun logger => pure logger.toValue) s = .ok v t →
        ∃ (logger : Logger) (n : Int), v = logger.toValue ∧ logger.threshold = .int n := by
    intro name context hrun
    obtain ⟨logger, u, hlogger, hv⟩ := Run.bind_ok hrun
    cases hv
    obtain ⟨n, hn⟩ := Accrual.threshold_of_getLogger hs hlogger
    exact ⟨logger, n, rfl, hn⟩
  rcases hpositional : arguments.positional with _ | ⟨given, _ | ⟨other, rest⟩⟩
  · simp only [run, hpositional] at h
    exact hmade _ _ h
  · cases hname : arguments.byName? "name" with
    | none =>
        simp only [run, hpositional, hname] at h
        exact hmade _ _ h
    | some name =>
        simp only [run, hpositional, hname] at h
        cases h
  · simp only [run, hpositional] at h
    cases h

namespace Session

/-- **A logger that is made** has a number for its threshold. -/
theorem threshold_of_makes (hc : call.Steady) {session : Session} {steps : List Step}
    (hs : session.store.HasLevel) (h : session.NamesLevels call steps) {logger : Logger}
    (hmakes : session.Makes call steps logger) : ∃ n : Int, logger.threshold = .int n := by
  obtain ⟨earlier, step, later, rfl, ho, hresult⟩ := hmakes
  have hearlier : (session.after call earlier).store.cleared.HasLevel :=
    (hasLevel_after hc hs h.of_append).of_threshold rfl
  have hargs : (step.arguments (session.after call earlier).registers).Uses [.define] :=
    step.uses_arguments _ List.mem_cons_self
  have hafter := hargs.hasLevel_after (by decide) hearlier
  cases hrun : step.run call (session.after call earlier).registers
      (session.after call earlier).store.cleared with
  | error error t =>
      rw [step_of_error hrun] at hresult
      cases hresult
  | ok v t =>
      rw [step_of_ok hrun] at hresult
      cases hresult
      rw [step.run_operation call ho] at hrun
      obtain ⟨arguments, u, harguments, hget⟩ := Run.bind_ok hrun
      rw [Run.after_of_ok harguments] at hafter
      obtain ⟨made, n, hvalue, hn⟩ := Operation.threshold_of_getLogger hafter hget
      obtain rfl : logger = made := Option.some.inj (congrArg Logger.ofValue? hvalue)
      exact ⟨n, hn⟩

end Session

/-! ### Comparisons -/

namespace LogCall

def handOver (x : LogCall) : Run Unit :=
  x.logger.activeRenderer >>= x.logger.handOver x.level x.event x.fields

/-- A level that is a number is compared with the threshold: below it nothing happens, and otherwise
the entry is handed over. -/
def IsCompared (threshold : Int) (x : LogCall) : Prop :=
  ∀ level : Int, x.level.toInt? = some level →
    x.run = if level < threshold then pure () else x.handOver

theorem isCompared {x : LogCall} {threshold : Int} (h : x.logger.threshold = .int threshold) :
    x.IsCompared threshold := by
  intro level hlevel
  have hlt : Value.lt x.level x.logger.threshold = .ok (decide (level < threshold)) := by
    rw [h]
    cases hx : x.level with
    | int n =>
        rw [hx] at hlevel
        cases hlevel
        rfl
    | bool b =>
        rw [hx] at hlevel
        cases hlevel
        rfl
    | _ =>
        rw [hx] at hlevel
        cases hlevel
  rw [run, Logger.log_eq, hlt]
  by_cases hbelow : level < threshold
  · rw [decide_eq_true hbelow, if_pos hbelow]
  · rw [decide_eq_false hbelow, if_neg hbelow]
    rfl

end LogCall

namespace Logger

/-- What a log method makes of its arguments is a call of its own logger, at a number if the method
has a level of its own. -/
theorem of_callOf {logger : Logger} {method : Method} {sorted : Arguments → Except Error LogCall}
    (h : logger.callOf method = some sorted) {arguments : Arguments} {x : LogCall}
    (hx : sorted arguments = .ok x) :
    x.logger = logger ∧ (method ≠ .log → ∃ level : Int, x.level = .int level) := by
  have hfixed : ∀ name level, logger.callAt name level arguments = .ok x →
      x.logger = logger ∧ (method ≠ .log → ∃ level : Int, x.level = .int level) := by
    intro name level hcall
    obtain ⟨⟨values, fields⟩, -, hcall⟩ := except_bind_ok hcall
    rcases values with _ | ⟨event, _ | _⟩
    · cases hcall
    · dsimp only at hcall
      split at hcall
      · cases hcall
      · cases hcall
        exact ⟨rfl, fun _ => ⟨_, rfl⟩⟩
    · cases hcall
  cases method <;> cases h
  case debug => exact hfixed _ _ hx
  case info => exact hfixed _ _ hx
  case warning => exact hfixed _ _ hx
  case error => exact hfixed _ _ hx
  case log =>
    obtain ⟨⟨values, fields⟩, -, hcall⟩ := except_bind_ok hx
    rcases values with _ | ⟨level, _ | ⟨event, _ | _⟩⟩
    · cases hcall
    · cases hcall
    · cases hcall
      exact ⟨rfl, fun hne => absurd rfl hne⟩
    · cases hcall

end Logger

/-- **What a report asks for** is a call at a number, of the given logger or of a new one. -/
theorem Validation.of_logCall {log operation : Value} {v : Validation} {s t : Store} {x : LogCall}
    (h : v.logCall log operation s = .ok x t) :
    ∃ (logger : Logger) (u : Store) (level : Int), reportLogger log s = .ok logger u ∧
      x.logger.threshold = logger.threshold ∧ x.level = .int level := by
  obtain ⟨logger, u, hlogger, h⟩ := Run.bind_ok h
  cases v with
  | success value =>
      cases h
      exact ⟨logger, _, _, hlogger, rfl, rfl⟩
  | failure error =>
      obtain ⟨c, w, -, h⟩ := Run.bind_ok h
      split at h <;> cases h
      exact ⟨logger, _, _, hlogger, rfl, rfl⟩

/-- No log method of the logger and no report through it fails on the comparison of its level with
the threshold: what each of them does is one call, if its arguments fit, and the call compares any
number. Only `log` itself can be given a level that is no number. -/
structure Logger.Compares (call : Calls) (threshold : Int) (logger : Logger) : Prop where
  methods : ∀ method ∈ Method.logging, ∃ sorted, logger.callOf method = some sorted ∧
    ∀ arguments : Arguments,
      logger.toValue.send call method.label arguments =
        (Run.ofExcept (sorted arguments) >>= fun x => x.run >>= fun _ => pure .absent) ∧
      ∀ x, sorted arguments = .ok x →
        x.IsCompared threshold ∧ (method ≠ .log → ∃ level : Int, x.level = .int level)
  reports : ∀ (v : Validation) (operation : Value),
    report v.toValue logger.toValue operation =
      (v.logCall logger.toValue operation >>= fun x => x.run >>= fun _ => pure v.toValue) ∧
    ∀ s t x, v.logCall logger.toValue operation s = .ok x t →
      x.IsCompared threshold ∧ ∃ level : Int, x.level = .int level

theorem Logger.compares (call : Calls) {logger : Logger} {threshold : Int}
    (h : logger.threshold = .int threshold) : logger.Compares call threshold where
  methods method hmethod := by
    obtain ⟨sorted, hsorted⟩ := logger.exists_callOf hmethod
    refine ⟨sorted, hsorted, fun arguments => ⟨send_of_callOf call hsorted arguments, ?_⟩⟩
    intro x hx
    obtain ⟨rfl, hlevel⟩ := of_callOf hsorted hx
    exact ⟨LogCall.isCompared h, hlevel⟩
  reports v operation := by
    refine ⟨report_eq_logCall v logger.toValue operation, fun s t x hx => ?_⟩
    obtain ⟨given, u, level, hgiven, hthreshold, hlevel⟩ := v.of_logCall hx
    cases hgiven
    exact ⟨LogCall.isCompared (hthreshold.trans h), level, hlevel⟩

/-- **A report without a logger** compares its level with the threshold in force. -/
theorem Validation.isCompared_of_absent {operation : Value} {v : Validation} {s t : Store}
    (hs : s.HasLevel) {x : LogCall} (h : v.logCall .absent operation s = .ok x t) :
    ∃ threshold level : Int, x.IsCompared threshold ∧ x.level = .int level := by
  obtain ⟨made, u, level, hmade, hthreshold, hlevel⟩ := v.of_logCall h
  obtain ⟨threshold, hnumber⟩ := threshold_of_getLogger hs hmade
  exact ⟨threshold, level, LogCall.isCompared (hthreshold.trans hnumber), hlevel⟩

namespace Session

/-- **Level texts and thresholds.**  A configuration with a level text, a format that is known and
settings that load sets the number that the text asks for, which is that of a standard level written
in any letter case, unless the text is one of the two misnomers; those set no number.  In every
state that is reached without them the threshold in force is a number or there is none.  Every
logger that is made on the way has a number for its threshold, and with it all loggers that it is
changed into, so that their log calls and reports compare each number with it; and so does a report
without a logger. -/
theorem thresholds_compare {call : Calls} (hc : call.Steady) {session : Session}
    (hs : session.store.HasLevel) {steps : List Step} (h : session.NamesLevels call steps) :
    (∀ (arguments : Arguments) (s : Store) (c : Settings) (format output colors : Value)
      (level : String), s.settings = .ok c → ¬Logging.IsUnknown format →
      arguments.take "configure_logging" Operation.configureLogging.parameters =
        .ok [format, .text level, output, colors] →
      ∃ v t, Operation.configureLogging.run call arguments s = .ok v t ∧
        (¬Logging.IsMisnomer level →
          t.threshold = some (.int (Logging.levelNumber c level))) ∧
        (∀ name n, (name, n) ∈ Logging.standardLevels →
          level.toList.map Char.toUpper = name.toList → t.threshold = some (.int n)) ∧
        (Logging.IsMisnomer level → ∀ n : Int, t.threshold ≠ some (.int n))) ∧
    (session.after call steps).store.HasLevel ∧
    (∀ logger : Logger, session.Makes call steps logger →
      ∃ threshold : Int, logger.threshold = .int threshold ∧
        ∀ changes : List ContextChange, (logger.changed changes).Compares call threshold) ∧
    ∀ (v : Validation) (operation : Value) (s t : Store) (x : LogCall), s.HasLevel →
      v.logCall .absent operation s = .ok x t →
      ∃ threshold level : Int, x.IsCompared threshold ∧ x.level = .int level := by
  refine ⟨?_, hasLevel_after hc hs h, ?_, ?_⟩
  · intro arguments s c format output colors level hsettings hf htake
    obtain ⟨r, t, hr, hnumber, hmisnomer⟩ :=
      Logging.configure_level hsettings hf level output colors
    refine ⟨r.toValue, t, ?_, hnumber, fun name n hname hletters => ?_, hmisnomer⟩
    · rw [Step.run_configureLogging, htake, Run.ofExcept_ok_bind, Step.perform_configureLogging]
      exact Run.bind_of_ok hr _
    · obtain ⟨hgood, hn⟩ := Logging.levelNumber_of_letters hname hletters c
      rw [hnumber hgood, hn]
  · intro logger hmakes
    obtain ⟨threshold, hthreshold⟩ := threshold_of_makes hc hs h hmakes
    refine ⟨threshold, hthreshold, fun changes => Logger.compares call ?_⟩
    rw [Logger.threshold_changed, hthreshold]
  · intro v operation s t x hlevel hx
    exact v.isCompared_of_absent hlevel hx

/-- A level in mixed case, and a logger that is made at it. -/
theorem thresholds_compare_mixed_case :
    let configure : Step :=
      { target := .operation "configure_logging", positional := [.text "json", .text "Warn"] }
    let get : Step := { target := .operation "get_logger", positional := [.text "app"] }
    let logger : Logger := ⟨[(.text "logger", .text "app")], .absent, .int 30⟩
    (∃ v t, Operation.configureLogging.run Callback.calls ⟨[.text "json", .text "Warn"], []⟩ {} =
        .ok v t ∧ t.threshold = some (.int 30)) ∧
      ((Session.start {}).after Callback.calls [configure, get]).store.HasLevel ∧
      ∃ threshold : Int, logger.threshold = .int threshold ∧
        (logger.changed [.bind [("form", .text "a")]]).Compares Callback.calls threshold := by
  intro configure get logger
  have hnames : (Session.start {}).NamesLevels Callback.calls [configure, get] := by
    refine ⟨?_, ?_, trivial⟩
    · intro ho arguments t format level output colors hargs htake text htext
      cases hargs
      cases htake
      cases htext
      decide
    · intro ho
      cases ho
  obtain ⟨hconfigure, hlevel, hmade, -⟩ :=
    thresholds_compare Callback.steady_calls (Store.hasLevel_of_none rfl) hnames
  have hformat : ¬Logging.IsUnknown (.text "json") := fun h => h.2 .json rfl
  obtain ⟨v, t, hok, -, hnumber, -⟩ := hconfigure ⟨[.text "json", .text "Warn"], []⟩ {} {}
    (.text "json") .absent .absent "Warn" rfl hformat rfl
  obtain ⟨threshold, hthreshold, hcompares⟩ := hmade logger ⟨[configure], get, [], rfl, rfl, rfl⟩
  have hwarn : t.threshold = some (.int 30) := hnumber "WARN" 30 (by decide) (by decide)
  exact ⟨⟨v, t, hok, hwarn⟩, hlevel, threshold, hthreshold, hcompares _⟩

/-- The name of a layout is taken for a level, and only the first entry fails for it. -/
theorem basic_format_fails_later :
    let configure : Step :=
      { target := .operation "configure_logging",
        positional := [.text "json", .text "basic_format"] }
    let get : Step := { target := .operation "get_logger", register := some "log" }
    let info : Step :=
      { target := .method (.register "log") "info", positional := [.text "saved"] }
    Session.run Callback.calls (.start {}) [configure, get, info] =
        [⟨.ok (.jsonRenderer (.stream .stdout)), [], []⟩,
          ⟨.ok (.logger [] .absent (.text "%(levelname)s:%(name)s:%(message)s")), [], []⟩,
          ⟨.error (.notOrdered "int" "str"), [], []⟩] ∧
      ((Session.start {}).after Callback.calls [configure]).store.threshold =
        some (.text "%(levelname)s:%(name)s:%(message)s") :=
  ⟨rfl, rfl⟩

end Session

end Accrual
