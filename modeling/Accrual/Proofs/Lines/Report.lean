import Accrual.Proofs.Lines.Text
import Accrual.Proofs.Logging.Steps
import Accrual.Proofs.Values.Literals

/-!
# Reports write single lines

Texts that a caller chooses reach a line by three ways: as a text in the context,
which the console quotes if it holds a blank, as a text inside a list, which is
always quoted, and as a text of a record, which is always escaped.  None of them
lets a line feed through, so that an entry which holds such values only comes to
one line (`isLine_of_texts`), and a report writes that line or nothing
(`report_writes_one_line`).
-/

namespace Accrual

open Text

/-- A text that is a line: its only line feed is its last character. -/
def IsLine (text : String) : Prop :=
  text.toList.count '\n' = 1 ∧ text.toList.getLast? = some '\n'

theorem isLine_of_oneLine {cs : List Char} (h : OneLine cs) :
    IsLine (String.ofList (cs ++ ['\n'])) := by
  constructor
  · simp [List.count_append, List.count_eq_zero_of_not_mem h]
  · simp

/-! ### Values on a line -/

namespace Value

theorem plain_list (items : List Value) : plain (list items) = '[' :: literals items ++ [']'] := rfl

theorem plain_int (n : Int) : plain (int n) = signedDecimal n := rfl

theorem oneLine_literals_texts (ss : List String) : OneLine (literals (ss.map text)) := by
  rw [literals_eq]
  refine (printable_row fun v hv => ?_).oneLine
  obtain ⟨s, -, rfl⟩ := List.mem_map.mp hv
  exact printable_quoted s.toList

end Value

namespace Console

theorem formatValue_text (s : String) :
    formatValue (.text s) = if s.toList.any isBlank then quoted s.toList else s.toList := rfl

theorem formatValue_list (items : List Value) :
    formatValue (.list items) = (Value.list items).plain := rfl

theorem formatValue_int (n : Int) : formatValue (.int n) = (Value.int n).plain := rfl

/-- A text that is not quoted has no blank in it, and so no line feed. -/
theorem oneLine_formatValue_text (s : String) : OneLine (formatValue (.text s)) := by
  rw [formatValue_text]
  split
  · exact oneLine_quoted s.toList
  next h => exact oneLine_of_no_blank (Bool.eq_false_iff.mpr h)

theorem oneLine_formatValue_int (n : Int) : OneLine (formatValue (.int n)) := by
  rw [formatValue_int, Value.plain_int]
  exact oneLine_signedDecimal n

theorem oneLine_formatValue_texts (ss : List String) :
    OneLine (formatValue (.list (ss.map .text))) := by
  rw [formatValue_list, Value.plain_list]
  simp [Value.oneLine_literals_texts]

end Console

/-- A context that fits on a line of the console: no key and no content is shown with a line
feed. -/
def Entries.FitLine (entries : Entries) : Prop :=
  ∀ e ∈ entries, (∃ key, e.1 = .text key ∧ OneLine key.toList) ∧ OneLine (Console.formatValue e.2)

theorem Entries.FitLine.merge {entries more : Entries} (h : entries.FitLine)
    (hm : more.FitLine) : Entries.FitLine (Keyed.merge entries more) :=
  Keyed.forall_mem_merge (K := fun key => ∃ s, key = Value.text s ∧ OneLine s.toList)
    (C := fun v => OneLine (Console.formatValue v)) hm h

theorem Entries.fitLine_ofTexts {fields : List (String × Value)}
    (h : ∀ f ∈ fields, OneLine f.1.toList ∧ OneLine (Console.formatValue f.2)) :
    (Entries.ofTexts fields).FitLine := by
  intro e he
  obtain ⟨f, hf, rfl⟩ := List.mem_map.mp he
  exact ⟨⟨f.1, rfl, (h f hf).1⟩, (h f hf).2⟩

structure LogEntry.FitsLine (entry : LogEntry) : Prop where
  level : OneLine entry.level.toList
  event : OneLine entry.event.plain
  context : entry.context.FitLine

/-! ### Lines of the renderers -/

theorem Moment.oneLine_humanText (m : Moment) : OneLine m.humanText := by
  simp [humanText, clockText, oneLine_padded (oneLine_decimal _)]

theorem oneLine_humanTime {entry : LogEntry} {cs : List Char} (h : entry.humanTime = .ok cs) :
    OneLine cs := by
  unfold LogEntry.humanTime at h
  cases hm : momentOf entry.time.micros with
  | error error =>
      rw [hm] at h
      cases h
  | ok m =>
      rw [hm] at h
      cases h
      exact m.oneLine_humanText

namespace Console

def Palette.OneLine (palette : Palette) : Prop :=
  Text.OneLine palette.reset ∧ Text.OneLine palette.dim ∧ Text.OneLine palette.bold ∧
    Text.OneLine palette.cyan ∧ ∀ level, Text.OneLine (palette.level level)

theorem oneLine_levelCode (level : String) : OneLine (levelCode level) := by
  unfold levelCode
  split <;> decide

theorem oneLine_palette (colors : Value) : (Renderer.palette colors).OneLine := by
  unfold Renderer.palette
  split
  · exact ⟨by decide, by decide, by decide, by decide, oneLine_levelCode⟩
  · exact ⟨by decide, by decide, by decide, by decide, fun _ => oneLine_nil⟩

theorem oneLine_timePart {palette : Palette} (hp : palette.OneLine) {showTimestamp : Bool}
    {entry : LogEntry} {time : List (List Char)}
    (h : timePart palette showTimestamp entry = .ok time) : ∀ part ∈ time, OneLine part := by
  unfold timePart at h
  split at h
  · obtain ⟨cs, htime, h⟩ := except_bind_ok h
    cases h
    have hcs := oneLine_humanTime htime
    obtain ⟨hreset, hdim, -⟩ := hp
    simp [hreset, hdim, hcs]
  · cases h
    exact fun _ hm => absurd hm List.not_mem_nil

/-- **A console line is of one line.** -/
theorem oneLine_line {palette : Palette} (hp : palette.OneLine) {showTimestamp : Bool}
    {entry : LogEntry} (he : entry.FitsLine) {cs : List Char}
    (h : line palette showTimestamp entry = .ok cs) : OneLine cs := by
  obtain ⟨time, pairs, htime, hpairs, rfl⟩ := parts_of_line h
  have hkeys : entry.context.HaveTextKeys := fun e hm =>
    (he.context e hm).1.imp fun _ hk => hk.1
  obtain ⟨hreset, -, hbold, hcyan, hlevel⟩ := id hp
  refine oneLine_intercalate (by decide) fun part hm => ?_
  simp only [List.mem_append, List.mem_cons, List.not_mem_nil, or_false, List.mem_map] at hm
  obtain (hm | rfl | rfl) | ⟨pair, hm, rfl⟩ := hm
  · exact oneLine_timePart hp htime part hm
  · simp [hlevel, hreset, he.level]
  · simp [hbold, hreset, he.event]
  · obtain ⟨⟨key, hkey, hk⟩, hv⟩ := he.context pair ((perm_of_sortedPairs hkeys hpairs).subset hm)
    have hplain : OneLine pair.1.plain := by
      rw [hkey]
      exact hk
    simp [formatPair, hcyan, hreset, hplain, hv]

end Console

/-- **A record is of one line**, whatever the entry holds. -/
theorem LogRecord.oneLine_line {entry : LogEntry} {cs : List Char} (h : line entry = .ok cs) :
    OneLine cs := by
  obtain ⟨time, -, h⟩ := except_bind_ok h
  obtain ⟨j, -, h⟩ := except_bind_ok h
  cases h
  exact j.oneLine_print

namespace Renderer

theorem isLine_of_lineTo {output : Value} {cs : List Char} (hcs : OneLine cs)
    {texts : List (Stream × String)} (h : lineTo output cs = .ok texts) :
    ∃ stream text, texts = [(stream, text)] ∧ IsLine text := by
  cases output with
  | stream stream =>
      cases h
      exact ⟨stream, _, rfl, isLine_of_oneLine hcs⟩
  | _ => cases h

/-- **An entry comes to one line**, or to nothing through a silent renderer. -/
theorem isLine_of_texts {entry : LogEntry} (he : entry.FitsLine) {r : Renderer}
    {texts : List (Stream × String)} (h : r.texts entry = .ok texts) :
    texts = [] ∨ ∃ stream text, texts = [(stream, text)] ∧ IsLine text := by
  cases r with
  | console output colors showTimestamp =>
      obtain ⟨cs, hline, h⟩ := except_bind_ok h
      have hcs := Console.oneLine_line (Console.oneLine_palette colors) he hline
      exact .inr (isLine_of_lineTo hcs h)
  | json output =>
      obtain ⟨cs, hline, h⟩ := except_bind_ok h
      exact .inr (isLine_of_lineTo (LogRecord.oneLine_line hline) h)
  | silent =>
      cases h
      exact .inl rfl

end Renderer

/-! ### What a call writes -/

/-- Only writing writes. -/
theorem Access.written_after {α : Type} (x : Access α) (hx : x.kind ≠ .write) (s : Store) :
    (x.run.after s).written = s.written := by
  have hconfigure : ∀ format level output colors,
      ((Logging.configure format level output colors).after s).written = s.written := by
    intro format level output colors
    cases hs : s.settings with
    | error error =>
        rw [Run.after_of_error (Logging.configure_of_settings_error hs _ _ _ _)]
    | ok c =>
        obtain ⟨error, he⟩ | ⟨error, v, he⟩ | ⟨r, v, hr⟩ :=
          Logging.configure_cases hs format level output colors
        · rw [Run.after_of_error he]
          rfl
        · rw [Run.after_of_error he]
          rfl
        · rw [Run.after_of_ok hr]
          rfl
  cases x with
  | write stream text => exact absurd rfl hx
  | settings =>
      obtain h | ⟨c, -, h⟩ := Run.after_getSettings s
      · exact congrArg Store.written h
      · exact (congrArg Store.written h).trans rfl
  | threshold =>
      obtain h | ⟨c, -, h⟩ := Run.after_currentThreshold s
      · exact congrArg Store.written h
      · exact (congrArg Store.written h).trans rfl
  | renderer =>
      cases hr : s.renderer with
      | some r =>
          exact congrArg Store.written (Run.after_of_ok (Logging.currentRenderer_installed hr))
      | none =>
          have hlazy : Logging.currentRenderer s =
              Logging.configure .absent .absent .absent .absent s := by
            rw [Logging.currentRenderer, Run.get_bind, hr]
          change (Logging.currentRenderer.after s).written = s.written
          rw [Run.after, hlazy]
          exact hconfigure _ _ _ _
  | configure format level output colors => exact hconfigure format level output colors
  | noteCall _ _ | freshId | define _ | callback _ | clock | reset | clear | setEnvironment _
  | setDotEnv _ | setClock _ => rfl

theorem Run.Uses.written_after {α : Type} {allowed : List Access.Kind} {run : Run α}
    (h : run.Uses allowed) (hw : .write ∉ allowed) (s : Store) :
    (run.after s).written = s.written :=
  h.preserves (I := fun t => t.written = s.written)
    (fun x hx t ht => (x.written_after (fun hk => hw (hk ▸ hx)) t).trans ht) rfl

/-- **What a call writes**: nothing, or what some renderer makes of its entry. -/
theorem LogCall.written_after_run (x : LogCall) (s : Store) :
    (x.run.after s).written = s.written ∨
      ∃ (r : Renderer) (entry : LogEntry) (texts : List (Stream × String)),
        Logging.levelName x.level = .ok entry.level ∧ entry.event = x.event ∧
          entry.context = x.context ∧ r.texts entry = .ok texts ∧
          (x.run.after s).written = s.written ++ texts := by
  rw [run, Logger.log_eq]
  cases Value.lt x.level x.logger.threshold with
  | error error => exact .inl rfl
  | ok below =>
      cases below with
      | true => exact .inl rfl
      | false =>
          have hwritten : (x.logger.activeRenderer.after s).written = s.written :=
            (Logger.uses_activeRenderer (List.mem_singleton_self _) x.logger).written_after
              (by decide) s
          cases hr : x.logger.activeRenderer s with
          | error error t =>
              rw [Run.after_of_error hr] at hwritten
              rw [Run.after_bind_of_error hr]
              exact .inl hwritten
          | ok r t =>
              rw [Run.after_of_ok hr] at hwritten
              rw [Run.after_bind_of_ok hr, ← hwritten]
              unfold Logger.handOver
              cases hl : Logging.levelName x.level with
              | error error => exact .inl rfl
              | ok name =>
                  have hclock : Access.clock.run t = .ok t.surroundings.clock t := rfl
                  dsimp only
                  rw [Run.after_bind_of_ok hclock]
                  cases hx : r.texts ⟨t.surroundings.clock, name, x.event, x.context⟩ with
                  | error error =>
                      have hrender := Renderer.render_of_texts_error hx t
                      exact .inl (congrArg Store.written (Run.after_of_error hrender))
                  | ok texts =>
                      have hrender := Renderer.render_of_texts hx t
                      exact .inr ⟨r, _, texts, rfl, rfl, rfl, hx,
                        congrArg Store.written (Run.after_of_ok hrender)⟩

/-! ### Reports -/

theorem LevelName.oneLine_shown (level : LevelName) : OneLine level.shown.toList := by
  cases level <;> decide

/-- Without a logger, a report asks for its call a logger that is bound to nothing but the name of
the library. -/
theorem Validation.logCall_absent {v : Validation} {operation : Value} {s t : Store} {x : LogCall}
    (h : v.logCall .absent operation s = .ok x t) :
    ∃ c threshold, x =
      reportCall c ⟨Entries.ofTexts [("logger", .text "validcase")], .absent, threshold⟩
        operation v := by
  obtain ⟨logger, u, hlogger, h⟩ := Run.bind_ok h
  obtain ⟨threshold, w, -, hthreshold⟩ := Run.bind_ok
    (show (Logging.currentThreshold >>= fun threshold =>
      (pure ⟨Entries.ofTexts [("logger", .text "validcase")], .absent, threshold⟩ : Run Logger)) s =
        .ok logger u from hlogger)
  cases hthreshold
  cases v with
  | success value =>
      cases h
      exact ⟨{}, threshold, rfl⟩
  | failure error =>
      obtain ⟨c, _, -, h⟩ := Run.bind_ok h
      split at h <;> cases h
      exact ⟨c, threshold, rfl⟩

/-- **What a report logs fits on a line**: the texts of the errors stand in a list, and the name of
the operation is quoted where it has to be. -/
theorem fitLine_reportCall (c : Settings) (threshold : Value) (operation : String)
    (v : Validation) :
    (reportCall c ⟨Entries.ofTexts [("logger", .text "validcase")], .absent, threshold⟩
      (.text operation) v).context.FitLine := by
  have hlogger : (Entries.ofTexts [("logger", .text "validcase")]).FitLine :=
    Entries.fitLine_ofTexts (by simpa using Console.oneLine_formatValue_text _)
  have hoperation : (Entries.ofTexts [("operation", .text operation)]).FitLine :=
    Entries.fitLine_ofTexts (by simpa using Console.oneLine_formatValue_text _)
  have hbound := hlogger.merge hoperation
  cases v with
  | success value => exact hbound
  | failure error =>
      refine hbound.merge (Entries.fitLine_ofTexts ?_)
      have htexts : OneLine (Console.formatValue
          (.list ((errorItems error).map fun e => .text e.toPlain))) := by
        have h := Console.oneLine_formatValue_texts ((errorItems error).map Value.toPlain)
        rwa [List.map_map] at h
      simpa using And.intro (Console.oneLine_formatValue_int _) htexts

theorem fitsLine_reportCall {c : Settings} {threshold : Value} {operation : String}
    {v : Validation} {entry : LogEntry} {x : LogCall}
    (hx : x = reportCall c ⟨Entries.ofTexts [("logger", .text "validcase")], .absent, threshold⟩
      (.text operation) v)
    (hlevel : Logging.levelName x.level = .ok entry.level) (hevent : entry.event = x.event)
    (hcontext : entry.context = x.context) : entry.FitsLine := by
  have hshown : ∃ level : LevelName, x.level = .int level.number := by
    cases v <;> exact ⟨_, by rw [hx]; rfl⟩
  obtain ⟨level, hl⟩ := hshown
  rw [hl, LevelName.levelName_number, Except.ok.injEq] at hlevel
  refine ⟨?_, ?_, ?_⟩
  · rw [← hlevel]
    exact level.oneLine_shown
  · rw [hevent, hx]
    cases v with
    | success value => exact (by decide : OneLine "validation passed".toList)
    | failure error => exact (by decide : OneLine "validation failed".toList)
  · rw [hcontext, hx]
    exact fitLine_reportCall c threshold operation v

/-- **A report cannot forge a line.**  Whatever the validation holds, whatever the operation is
called, and whatever is configured, a report without a logger of its own writes nothing, or one text
to one stream; the only line feed of that text is its last character. -/
theorem report_writes_one_line (v : Validation) (operation : String) (s : Store) :
    ∃ texts : List (Stream × String),
      ((report v.toValue .absent (.text operation)).after s).written = s.written ++ texts ∧
      (texts = [] ∨ ∃ stream text, texts = [(stream, text)] ∧ IsLine text) := by
  have hsearch := (v.uses_logCall .absent (.text operation)).written_after (by decide) s
  rw [report_eq_logCall]
  cases hx : v.logCall .absent (.text operation) s with
  | error error t =>
      rw [Run.after_of_error hx] at hsearch
      rw [Run.after_bind_of_error hx, hsearch]
      exact ⟨[], (List.append_nil _).symm, .inl rfl⟩
  | ok x t =>
      rw [Run.after_of_ok hx] at hsearch
      rw [Run.after_bind_of_ok hx, Run.after_bind_pure, ← hsearch]
      obtain ⟨c, threshold, hcall⟩ := Validation.logCall_absent hx
      obtain hnone | ⟨r, entry, texts, hlevel, hevent, hcontext, htexts, hwritten⟩ :=
        x.written_after_run t
      · exact ⟨[], hnone.trans (List.append_nil _).symm, .inl rfl⟩
      · have hfits := fitsLine_reportCall hcall hlevel hevent hcontext
        exact ⟨texts, hwritten, Renderer.isLine_of_texts hfits htexts⟩

end Accrual
