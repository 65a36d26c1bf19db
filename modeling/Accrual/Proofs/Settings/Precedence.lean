import Accrual.Proofs.Logging.Configuration
import Accrual.Proofs.Settings.Groups

/-!
# Which text of a setting counts

Each of the seven settings has one effective content (`Field.effective?`): the
first one there is among the environment under the name of the setting, the file
under that name, and the environment under the short name.  Sources with the
documented names load to the settings in which each setting is what its effective
content means, or the default where there is none (`load_iff`).  Nothing else of
the sources matters, and no setting has to do with another.
-/

namespace Accrual

open Source

namespace Settings

/-! ### Settings one by one -/

/-- A single setting: the debug mode, or a field of a group. -/
inductive Field
  | debug
  | logLevel
  | logFormat
  | logColors
  | reportLevel
  | reportSeparator
  | reportBullet
  deriving DecidableEq

namespace Field

def name : Field → String
  | debug => "VALIDCASE_DEBUG"
  | logLevel => "VALIDCASE_LOGGING__LEVEL"
  | logFormat => "VALIDCASE_LOGGING__FORMAT"
  | logColors => "VALIDCASE_LOGGING__COLORS"
  | reportLevel => "VALIDCASE_REPORT__LEVEL"
  | reportSeparator => "VALIDCASE_REPORT__SEPARATOR"
  | reportBullet => "VALIDCASE_REPORT__BULLET"

def shortName? : Field → Option String
  | debug => none
  | logLevel => some "VALIDCASE_LOG_LEVEL"
  | logFormat => some "VALIDCASE_LOG_FORMAT"
  | logColors => some "VALIDCASE_LOG_COLORS"
  | reportLevel => some "VALIDCASE_REPORT_LEVEL"
  | reportSeparator => some "VALIDCASE_REPORT_SEPARATOR"
  | reportBullet => some "VALIDCASE_REPORT_BULLET"

/-- **The effective content of a setting**: what the environment has under its name, or else the
file, or else the environment under its short name. -/
def effective? (surroundings : Surroundings) (field : Field) : Option (Option String) :=
  let environment := Source.ofEnvironment surroundings.environment
  let file := Source.ofDotEnv surroundings.dotenv
  ((environment.content? field.name).or (file.content? field.name)).or
    (field.shortName?.bind environment.content?)

def truthTexts (b : Bool) : List String := if b then trueTexts else falseTexts

/-- What a content makes of a setting: its default where there is no content, what `nothing` allows
where a name is assigned nothing, as a file can have it, and what a text means. -/
def Fits {α : Type} (fallback : α) (nothing : α → Prop) (means : String → α → Prop) (a : α) :
    Option (Option String) → Prop
  | none => a = fallback
  | some none => nothing a
  | some (some text) => means text a

/-- **The setting is what a content makes of it.** -/
def Is (c : Settings) : Field → Option (Option String) → Prop
  | debug => Fits false (· = false) (fun text b => Text.lower text ∈ truthTexts b) c.debug
  | logLevel =>
      Fits .info (fun _ => False) (fun text level => Text.upper text = level.text) c.logging.level
  | logFormat =>
      Fits .console (fun _ => False) (fun text format => text = format.text) c.logging.format
  | logColors =>
      Fits none (· = none)
        (fun text choice => ∃ b, choice = some b ∧ Text.lower text ∈ truthTexts b) c.logging.colors
  | reportLevel =>
      Fits .warning (fun _ => False) (fun text level => Text.upper text = level.text) c.report.level
  | reportSeparator =>
      Fits "\n" (fun _ => False) (fun text separator => separator = text) c.report.separator
  | reportBullet => Fits "- " (fun _ => False) (fun text bullet => bullet = text) c.report.bullet

end Field

/-! ### Reading a content -/

/-- **A field is read** if its content can be, and has its default where there is none. -/
theorem readField_eq_ok {α : Type} {fields : Json.Fields} {name : String}
    {content : Option (Option String)} (h : fields.lookup name = content.map fieldContent)
    (read : Json → Except Problem.Cause α) {nothing : α → Prop} {means : String → α → Prop}
    (hnothing : ∀ a, read .null = .ok a ↔ nothing a)
    (hmeans : ∀ text a, read (.text text) = .ok a ↔ means text a) (fallback a : α) :
    readField fields name fallback read = .ok a ↔
      Field.Fits fallback nothing means a content := by
  rw [readField, h]
  rcases content with _ | _ | text
  · simp [Field.Fits, eq_comm]
  · exact mapError_eq_ok.trans (hnothing a)
  · exact mapError_eq_ok.trans (hmeans text a)

/-- Of choices with different texts, the one with a text is found by it. -/
theorem find?_eq_some_of_texts {α : Type} {all : List α} {shown : α → String}
    (hall : ∀ a, a ∈ all) (hshown : ∀ a b, shown a = shown b → a = b) {text : String} {a : α} :
    all.find? (fun b => shown b == text) = some a ↔ text = shown a := by
  constructor
  · intro h
    have hbeq := List.find?_some h
    exact (eq_of_beq hbeq).symm
  · rintro rfl
    cases hfound : all.find? fun b => shown b == shown a with
    | none => exact absurd BEq.rfl (List.find?_eq_none.mp hfound a (hall a))
    | some b =>
        have hbeq := List.find?_some hfound
        rw [hshown b a (eq_of_beq hbeq)]

theorem levelOfJson_text {text : String} {level : LevelName} :
    LevelName.ofJson (.text text) = .ok level ↔ Text.upper text = level.text := by
  have hall : ∀ level, level ∈ LevelName.all := fun level => by cases level <;> decide
  have htexts : ∀ level other : LevelName, level.text = other.text → level = other := by
    intro level other
    cases level <;> cases other <;> decide
  rw [LevelName.ofJson, ← find?_eq_some_of_texts hall htexts]
  cases LevelName.all.find? fun level => level.text == Text.upper text <;> simp

theorem formatOfJson_text {text : String} {format : LogFormat} :
    LogFormat.ofJson (.text text) = .ok format ↔ text = format.text := by
  have hall : ∀ format, format ∈ LogFormat.all := fun format => by cases format <;> decide
  have htexts : ∀ format other : LogFormat, format.text = other.text → format = other := by
    intro format other
    cases format <;> cases other <;> decide
  rw [LogFormat.ofJson, LogFormat.ofText?, ← find?_eq_some_of_texts hall htexts]
  cases LogFormat.all.find? fun format => format.text == text <;> simp

theorem boolOfJson_text {text : String} {b : Bool} :
    boolOfJson (.text text) = .ok b ↔ Text.lower text ∈ Field.truthTexts b := by
  have hdisjoint : ∀ t ∈ falseTexts, t ∉ trueTexts := by decide
  rw [boolOfJson]
  by_cases htrue : Text.lower text ∈ trueTexts
  · have hfalse : Text.lower text ∉ falseTexts := fun h => hdisjoint _ h htrue
    cases b <;> simp [htrue, hfalse, Field.truthTexts]
  · by_cases hfalse : Text.lower text ∈ falseTexts <;>
      cases b <;> simp [htrue, hfalse, Field.truthTexts]

theorem optionalBoolOfJson_text {text : String} {choice : Option Bool} :
    optionalBoolOfJson (.text text) = .ok choice ↔
      ∃ b, choice = some b ∧ Text.lower text ∈ Field.truthTexts b := by
  have hread : optionalBoolOfJson (.text text) = some <$> boolOfJson (.text text) := rfl
  simp only [hread, ← boolOfJson_text]
  cases boolOfJson (.text text) <;> simp [Functor.map, Except.map, eq_comm]

/-! ### Groups -/

section

variable {fields : Json.Fields} {level format colors separator bullet : Option (Option String)}

theorem LoggingSettings.ofFields_eq_ok (hlevel : fields.lookup "level" = level.map fieldContent)
    (hformat : fields.lookup "format" = format.map fieldContent)
    (hcolors : fields.lookup "colors" = colors.map fieldContent) (c : Settings) :
    LoggingSettings.ofFields fields = .ok c.logging ↔
      Field.logLevel.Is c level ∧ Field.logFormat.Is c format ∧ Field.logColors.Is c colors := by
  rw [Field.Is, Field.Is, Field.Is,
    ← readField_eq_ok hlevel LevelName.ofJson (by simp [LevelName.ofJson])
      (fun _ _ => levelOfJson_text),
    ← readField_eq_ok hformat LogFormat.ofJson (by simp [LogFormat.ofJson])
      (fun _ _ => formatOfJson_text),
    ← readField_eq_ok hcolors optionalBoolOfJson (by simp [optionalBoolOfJson, eq_comm])
      (fun _ _ => optionalBoolOfJson_text), LoggingSettings.ofFields]
  obtain ⟨debug, ⟨l, f, o⟩, report⟩ := c
  cases readField fields "level" .info LevelName.ofJson <;>
    cases readField fields "format" .console LogFormat.ofJson <;>
    cases readField fields "colors" none optionalBoolOfJson <;> simp

theorem ReportSettings.ofFields_eq_ok (hlevel : fields.lookup "level" = level.map fieldContent)
    (hseparator : fields.lookup "separator" = separator.map fieldContent)
    (hbullet : fields.lookup "bullet" = bullet.map fieldContent) (c : Settings) :
    ReportSettings.ofFields fields = .ok c.report ↔ Field.reportLevel.Is c level ∧
      Field.reportSeparator.Is c separator ∧ Field.reportBullet.Is c bullet := by
  rw [Field.Is, Field.Is, Field.Is,
    ← readField_eq_ok hlevel LevelName.ofJson (by simp [LevelName.ofJson])
      (fun _ _ => levelOfJson_text),
    ← readField_eq_ok hseparator textOfJson (by simp [textOfJson]) (by simp [textOfJson, eq_comm]),
    ← readField_eq_ok hbullet textOfJson (by simp [textOfJson]) (by simp [textOfJson, eq_comm]),
    ReportSettings.ofFields]
  obtain ⟨debug, logging, ⟨l, s, b⟩⟩ := c
  cases readField fields "level" .warning LevelName.ofJson <;>
    cases readField fields "separator" "\n" textOfJson <;>
    cases readField fields "bullet" "- " textOfJson <;> simp

end

/-! ### The whole -/

section

variable {surroundings : Surroundings} {c : Settings}

/-- **The debug mode** is read from the text that the environment has, or else the file. -/
theorem readField_debug : readField
    ((((Source.ofEnvironment surroundings.environment).text? "debug").or
      ((Source.ofDotEnv surroundings.dotenv).text? "debug")).toList.map
        fun s => ("debug", .text s)) "debug" false boolOfJson = .ok c.debug ↔
      Field.debug.Is c (Field.debug.effective? surroundings) := by
  have hname : Text.lower Field.debug.name = family ++ "debug" := by decide +kernel
  have htext : ∀ source : Source, source.text? "debug" =
      (source.content? Field.debug.name).join := fun source => by
    rw [text?, ← hname, lookup_contents]
  have hread : ∀ text, readField [("debug", .text text)] "debug" false boolOfJson = .ok c.debug ↔
      Text.lower text ∈ Field.truthTexts c.debug := fun text => by
    rw [← boolOfJson_text]
    have hlookup : ([("debug", .text text)] : Json.Fields).lookup "debug" = some (.text text) := rfl
    rw [readField, hlookup]
    exact mapError_eq_ok
  have hnothing : readField [] "debug" false boolOfJson = .ok c.debug ↔ c.debug = false := by
    rw [readField, List.lookup_nil]
    exact ⟨fun h => (Except.ok.inj h).symm, fun h => congrArg Except.ok h.symm⟩
  rw [htext, htext, Field.effective?, Field.Is]
  cases henvironment : (Source.ofEnvironment surroundings.environment).content?
      Field.debug.name with
  | some content =>
      obtain ⟨text, rfl⟩ := exists_text_of_content? henvironment
      exact hread text
  | none =>
      rcases (Source.ofDotEnv surroundings.dotenv).content? Field.debug.name with _ | _ | text
      · exact hnothing
      · exact hnothing
      · exact hread text

/-- The whole loads if the debug mode and both groups do. -/
theorem load_eq_ok_iff {logging report fileLogging fileReport : Option Json}
    (hlogging : (Source.ofEnvironment surroundings.environment).group? "logging"
      LoggingSettings.fieldNames = .ok logging)
    (hreport : (Source.ofEnvironment surroundings.environment).group? "report"
      ReportSettings.fieldNames = .ok report)
    (hfileLogging : (Source.ofDotEnv surroundings.dotenv).group? "logging"
      LoggingSettings.fieldNames = .ok fileLogging)
    (hfileReport : (Source.ofDotEnv surroundings.dotenv).group? "report"
      ReportSettings.fieldNames = .ok fileReport) :
    load surroundings = .ok c ↔ Field.debug.Is c (Field.debug.effective? surroundings) ∧
      Group.logging.load surroundings (mergeGroup fileLogging logging) = .ok (.ok c.logging) ∧
      Group.report.load surroundings (mergeGroup fileReport report) = .ok (.ok c.report) := by
  rw [← readField_debug, load]
  dsimp only
  rw [hlogging, hreport, hfileLogging, hfileReport]
  dsimp only [bind, Except.bind]
  obtain ⟨debug, l, r⟩ := c
  rcases Group.logging.load surroundings (mergeGroup fileLogging logging) with _ | _ | _
  · simp
  · rcases Group.report.load surroundings (mergeGroup fileReport report) with _ | _ | _ <;> simp
  · rcases Group.report.load surroundings (mergeGroup fileReport report) with _ | _ | _
    · simp
    · simp
    · cases readField _ "debug" false boolOfJson <;> simp

def found? (surroundings : Surroundings) (group beginning field : String) : Option Json :=
  (((Source.ofEnvironment surroundings.environment).given? group field).or
      ((Source.ofDotEnv surroundings.dotenv).given? group field)).or
    (shortContent? beginning (Source.ofEnvironment surroundings.environment) field)

/-- What is found for a field is the effective content of its setting, under whatever names the
setting has. -/
theorem found?_eq (surroundings : Surroundings) (setting : Field)
    {group beginning field short : String}
    (hname : Text.lower setting.name = longName group field)
    (hshort : setting.shortName? = some short)
    (hlower : Text.lower short = Text.lower (beginning ++ field)) :
    found? surroundings group beginning field =
      (setting.effective? surroundings).map fieldContent := by
  rw [found?, given?_eq _ hname, given?_eq _ hname, shortContent?_ofEnvironment _ hlower,
    Field.effective?, hshort, Option.bind_some, Option.map_or, Option.map_or]

theorem logging_ofFields_iff {fields : Json.Fields}
    (h : ∀ name ∈ LoggingSettings.fieldNames,
      fields.lookup name = found? surroundings "logging" "VALIDCASE_LOG_" name) :
    LoggingSettings.ofFields fields = .ok c.logging ↔
      Field.logLevel.Is c (Field.logLevel.effective? surroundings) ∧
      Field.logFormat.Is c (Field.logFormat.effective? surroundings) ∧
      Field.logColors.Is c (Field.logColors.effective? surroundings) := by
  have hlevel := (h "level" (by decide)).trans
    (found?_eq surroundings .logLevel (by decide +kernel) rfl (by decide +kernel))
  have hformat := (h "format" (by decide)).trans
    (found?_eq surroundings .logFormat (by decide +kernel) rfl (by decide +kernel))
  have hcolors := (h "colors" (by decide)).trans
    (found?_eq surroundings .logColors (by decide +kernel) rfl (by decide +kernel))
  exact LoggingSettings.ofFields_eq_ok hlevel hformat hcolors c

theorem report_ofFields_iff {fields : Json.Fields}
    (h : ∀ name ∈ ReportSettings.fieldNames,
      fields.lookup name = found? surroundings "report" "VALIDCASE_REPORT_" name) :
    ReportSettings.ofFields fields = .ok c.report ↔
      Field.reportLevel.Is c (Field.reportLevel.effective? surroundings) ∧
      Field.reportSeparator.Is c (Field.reportSeparator.effective? surroundings) ∧
      Field.reportBullet.Is c (Field.reportBullet.effective? surroundings) := by
  have hlevel := (h "level" (by decide)).trans
    (found?_eq surroundings .reportLevel (by decide +kernel) rfl (by decide +kernel))
  have hseparator := (h "separator" (by decide)).trans
    (found?_eq surroundings .reportSeparator (by decide +kernel) rfl
      (by decide +kernel))
  have hbullet := (h "bullet" (by decide)).trans
    (found?_eq surroundings .reportBullet (by decide +kernel) rfl (by decide +kernel))
  exact ReportSettings.ofFields_eq_ok hlevel hseparator hbullet c

/-- **Loading, setting by setting.** -/
theorem load_iff (surroundings : Surroundings)
    (henvironment : (Source.ofEnvironment surroundings.environment).IsDocumented)
    (hfile : (Source.ofDotEnv surroundings.dotenv).IsDocumented) (c : Settings) :
    load surroundings = .ok c ↔ ∀ field : Field, field.Is c (field.effective? surroundings) := by
  have hlogging : "logging" ∈ groupNames := by decide
  have hreport : "report" ∈ groupNames := by decide
  obtain ⟨el, hel, hgel⟩ := group?_ok henvironment hlogging LoggingSettings.fieldNames
  obtain ⟨er, her, hger⟩ := group?_ok henvironment hreport ReportSettings.fieldNames
  obtain ⟨fl, hfl, hgfl⟩ := group?_ok hfile hlogging LoggingSettings.fieldNames
  obtain ⟨fr, hfr, hgfr⟩ := group?_ok hfile hreport ReportSettings.fieldNames
  have hplain : ∀ {group : String}, group ∈ groupNames → ∀ name, name ∉ fieldNames →
      ((Source.ofEnvironment surroundings.environment).given? group name).or
        ((Source.ofDotEnv surroundings.dotenv).given? group name) = none := by
    intro group hg name hname
    rw [given?_eq_none henvironment hg hname, given?_eq_none hfile hg hname, Option.or_none]
  obtain ⟨l, hl, hlload⟩ := load_group_iff Group.logging surroundings (by decide)
    (gives_mergeGroup hgfl hgel) (hplain hlogging)
  obtain ⟨r, hr, hrload⟩ := load_group_iff Group.report surroundings (by decide)
    (gives_mergeGroup hgfr hger) (hplain hreport)
  rw [load_eq_ok_iff hel her hfl hfr, hlload c.logging, hrload c.report]
  change _ ∧ LoggingSettings.ofFields l = .ok c.logging ∧
    ReportSettings.ofFields r = .ok c.report ↔ _
  rw [logging_ofFields_iff hl, report_ofFields_iff hr]
  constructor
  · rintro ⟨hdebug, ⟨hlevel, hformat, hcolors⟩, hreportLevel, hseparator, hbullet⟩ field
    cases field with
    | debug => exact hdebug
    | logLevel => exact hlevel
    | logFormat => exact hformat
    | logColors => exact hcolors
    | reportLevel => exact hreportLevel
    | reportSeparator => exact hseparator
    | reportBullet => exact hbullet
  · intro h
    exact ⟨h _, ⟨h _, h _, h _⟩, h _, h _, h _⟩

end

/-! ### The settings in force -/

/-- Settings that can each have what they should can have it all at once. -/
theorem Field.exists_common {content : Field → Option (Option String)}
    (h : ∀ field : Field, ∃ c, field.Is c (content field)) :
    ∃ c, ∀ field : Field, field.Is c (content field) := by
  obtain ⟨c, hc⟩ := Classical.skolem.mp h
  refine ⟨⟨(c .debug).debug,
    ⟨(c .logLevel).logging.level, (c .logFormat).logging.format, (c .logColors).logging.colors⟩,
    ⟨(c .reportLevel).report.level, (c .reportSeparator).report.separator,
      (c .reportBullet).report.bullet⟩⟩, fun field => ?_⟩
  cases field with
  | debug => exact hc .debug
  | logLevel => exact hc .logLevel
  | logFormat => exact hc .logFormat
  | logColors => exact hc .logColors
  | reportLevel => exact hc .reportLevel
  | reportSeparator => exact hc .reportSeparator
  | reportBullet => exact hc .reportBullet

theorem getSettings_eq_ok_iff {s : Store} (hnew : s.cached = none)
    (henvironment : (Source.ofEnvironment s.surroundings.environment).IsDocumented)
    (hfile : (Source.ofDotEnv s.surroundings.dotenv).IsDocumented) (c : Settings) (t : Store) :
    getSettings s = .ok c t ↔
      (∀ field : Field, field.Is c (field.effective? s.surroundings)) ∧ t = s.loaded c := by
  rw [← load_iff s.surroundings henvironment hfile, ← Store.settings_of_not_cached hnew]
  constructor
  · intro h
    cases hs : s.settings with
    | error error =>
        rw [(getSettings_error hs).1] at h
        cases h
    | ok c' =>
        rw [getSettings_ok hs] at h
        cases h
        exact ⟨rfl, rfl⟩
  · rintro ⟨hs, rfl⟩
    exact getSettings_ok hs

/-- **Settings are resolved one by one.**  From sources with the documented names, settings that are
not there yet load to those in which each setting is what its effective content makes of it, and are
kept.  They load if every setting by itself can be what its effective content makes of it.  Whatever
else the sources hold, shadowed contents among it, they load the same. -/
theorem getSettings_resolves {s : Store} (hnew : s.cached = none)
    (henvironment : (Source.ofEnvironment s.surroundings.environment).IsDocumented)
    (hfile : (Source.ofDotEnv s.surroundings.dotenv).IsDocumented) :
    (∀ c t, getSettings s = .ok c t ↔
      (∀ field : Field, field.Is c (field.effective? s.surroundings)) ∧ t = s.loaded c) ∧
    ((∃ c t, getSettings s = .ok c t) ↔
      ∀ field : Field, ∃ c, field.Is c (field.effective? s.surroundings)) ∧
    ∀ u : Store, u.cached = none →
      (Source.ofEnvironment u.surroundings.environment).IsDocumented →
      (Source.ofDotEnv u.surroundings.dotenv).IsDocumented →
      (∀ field : Field, field.effective? u.surroundings = field.effective? s.surroundings) →
      ∀ c, (∃ t, getSettings u = .ok c t) ↔ ∃ t, getSettings s = .ok c t := by
  refine ⟨getSettings_eq_ok_iff hnew henvironment hfile, ?_, ?_⟩
  · simp only [getSettings_eq_ok_iff hnew henvironment hfile]
    constructor
    · rintro ⟨c, t, hc, -⟩ field
      exact ⟨c, hc field⟩
    · intro h
      obtain ⟨c, hc⟩ := Field.exists_common h
      exact ⟨c, _, hc, rfl⟩
  · intro u hnewu henvironmentu hfileu heffective c
    simp only [getSettings_eq_ok_iff hnew henvironment hfile,
      getSettings_eq_ok_iff hnewu henvironmentu hfileu, heffective]
    exact ⟨fun ⟨t, hc, _⟩ => ⟨_, hc, rfl⟩, fun ⟨t, hc, _⟩ => ⟨_, hc, rfl⟩⟩

/-- Texts that count come from the environment under a long name, from the file, and from the
environment under a short name in small letters; the other texts for the level of logging are not
valid, and do not count. -/
theorem getSettings_resolves_shadowed :
    let s : Store := { surroundings := {
      environment := [("HOME", "/root"), ("VALIDCASE_LOG_LEVEL", "loud"),
        ("VALIDCASE_LOGGING__LEVEL", "debug"), ("validcase_report_bullet", "* ")]
      dotenv := "VALIDCASE_LOGGING__LEVEL=quiet\nVALIDCASE_DEBUG=yes\n" } }
    let c : Settings :=
      { debug := true, logging := { level := .debug }, report := { bullet := "* " } }
    (Source.ofEnvironment s.surroundings.environment).IsDocumented ∧
      (Source.ofDotEnv s.surroundings.dotenv).IsDocumented ∧
      getSettings s = .ok c (s.loaded c) := by
  intro s c
  have henvironment : (Source.ofEnvironment s.surroundings.environment).IsDocumented := by
    decide +kernel
  have hfile : (Source.ofDotEnv s.surroundings.dotenv).IsDocumented := by decide +kernel
  refine ⟨henvironment, hfile, ?_⟩
  refine ((getSettings_resolves rfl henvironment hfile).1 c _).mpr ⟨fun field => ?_, rfl⟩
  let content : Field → Option (Option String) := fun
    | .debug => some (some "yes")
    | .logLevel => some (some "debug")
    | .reportBullet => some (some "* ")
    | _ => none
  have heffective : field.effective? s.surroundings = content field := by
    cases field <;> decide +kernel
  rw [heffective]
  cases field with
  | debug => exact (by decide : Text.lower "yes" ∈ Field.truthTexts true)
  | logLevel => exact (by decide : Text.upper "debug" = "DEBUG")
  | _ => rfl

end Settings

end Accrual
