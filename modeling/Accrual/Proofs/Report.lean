import Accrual.Proofs.Logging.Calls
import Accrual.Report

/-!
# Reports observe

A report is one call of a logger: the one that is given, or else one at the
threshold in force (`report_eq_logCall`).  The call of a failure is made only if
each item of its error can be written out (`logCall_failure`).  Nothing but that
call touches the store, so that a report hands back the validation as it is and
writes one record at most; `report_observes` says which one, and when.
-/

namespace Accrual

/-! ### The items of an error -/

/-- The items of an error are the entries of a tuple or of a list, and else the error itself. -/
inductive Value.HasErrorItems : Value → List Value → Prop
  | tuple (items : List Value) : HasErrorItems (.tuple items) items
  | list (items : List Value) : HasErrorItems (.list items) items
  | single {error : Value} (hsingle : ∀ items, error ≠ .tuple items ∧ error ≠ .list items) :
      HasErrorItems error [error]

theorem Value.HasErrorItems.eq_errorItems {error : Value} {items : List Value}
    (h : error.HasErrorItems items) : items = errorItems error := by
  cases h with
  | tuple => rfl
  | list => rfl
  | single hsingle =>
      cases error with
      | tuple items => exact absurd rfl (hsingle items).1
      | list items => exact absurd rfl (hsingle items).2
      | _ => rfl

/-! ### The logger of a report -/

def Store.reportLogger (c : Settings) (s : Store) : Logger :=
  ⟨Entries.ofTexts [("logger", .text "validcase")], .absent,
    s.threshold.getD (.int c.logLevel.number)⟩

/-- The argument stands for the logger: it is the logger, or it is absent and the logger is the one
that reports go to then. -/
def Logger.StandsFor (c : Settings) (s : Store) (log : Value) (logger : Logger) : Prop :=
  log = logger.toValue ∨ log = .absent ∧ logger = s.reportLogger c

/-! ### What a report logs -/

def reportCall (c : Settings) (logger : Logger) (operation : Value) : Validation → LogCall
  | .success _ =>
      ⟨logger.bind (Entries.ofTexts [("operation", operation)]), .int LevelName.debug.number,
        .text "validation passed", []⟩
  | .failure error =>
      ⟨logger.bind (Entries.ofTexts [("operation", operation)]), .int c.report.level.number,
        .text "validation failed",
        Entries.ofTexts [("error_count", .int (errorItems error).length),
          ("errors", .list ((errorItems error).map fun e => .text e.toPlain))]⟩

variable {s : Store} {c : Settings}

theorem reportLogger_eq (hc : s.settings = .ok c) {log : Value} {logger : Logger}
    (h : logger.StandsFor c s log) :
    ∃ u, (u = s ∨ u = s.loaded c) ∧ reportLogger log s = .ok logger u := by
  obtain rfl | ⟨rfl, rfl⟩ := h
  · exact ⟨s, .inl rfl, rfl⟩
  · cases ht : s.threshold with
    | some v =>
        refine ⟨s, .inl rfl, ?_⟩
        have hrun := Run.bind_of_ok (Logging.currentThreshold_set ht) fun threshold =>
          (pure ⟨Entries.ofTexts [("logger", .text "validcase")], .absent, threshold⟩ : Run Logger)
        rw [Store.reportLogger, ht]
        exact hrun
    | none =>
        refine ⟨s.loaded c, .inr rfl, ?_⟩
        have hrun := Run.bind_of_ok (Logging.currentThreshold_unset ht hc) fun threshold =>
          (pure ⟨Entries.ofTexts [("logger", .text "validcase")], .absent, threshold⟩ : Run Logger)
        rw [Store.reportLogger, ht]
        exact hrun

/-- What a report asks its logger to log.  The items of an error are written out first, and the
report of one that cannot be stops there. -/
def Validation.logCall (log operation : Value) (v : Validation) : Run LogCall := do
  let logger ← reportLogger log
  match v with
  | success _ => return reportCall {} logger operation v
  | failure error =>
      let settings ← getSettings
      if Value.areWritable (errorItems error) then return reportCall settings logger operation v
      else throw .numberTooLong

/-- **A report is one call of its logger**, if it makes a call at all. -/
theorem report_eq_logCall (v : Validation) (log operation : Value) :
    report v.toValue log operation =
      (v.logCall log operation >>= fun x => x.run >>= fun _ => pure v.toValue) := by
  unfold report Validation.logCall
  rw [bind_assoc]
  refine bind_congr fun logger => ?_
  cases v with
  | success value => rfl
  | failure error =>
      rw [bind_assoc]
      refine bind_congr fun settings => ?_
      rw [Value.mapM_written]
      cases hw : Value.areWritable (errorItems error) with
      | false => rfl
      | true =>
          simp only [if_true, Run.ofExcept_ok_bind, pure_bind, List.map_map]
          rfl

theorem logCall_success (hc : s.settings = .ok c) (value operation : Value) {log : Value}
    {logger : Logger} (h : logger.StandsFor c s log) :
    ∃ u, (u = s ∨ u = s.loaded c) ∧ (Validation.success value).logCall log operation s =
      .ok (reportCall c logger operation (.success value)) u := by
  obtain ⟨u, hu, hlogger⟩ := reportLogger_eq hc h
  exact ⟨u, hu, Run.bind_of_ok hlogger _⟩

theorem logCall_failure (hc : s.settings = .ok c) (error operation : Value) {log : Value}
    {logger : Logger} (h : logger.StandsFor c s log) :
    (Validation.failure error).logCall log operation s =
      if Value.areWritable (errorItems error) then
        .ok (reportCall c logger operation (.failure error)) (s.loaded c)
      else .error .numberTooLong (s.loaded c) := by
  obtain ⟨u, hu, hlogger⟩ := reportLogger_eq hc h
  have huc : u.settings = .ok c ∧ u.loaded c = s.loaded c := by
    obtain rfl | rfl := hu
    · exact ⟨hc, rfl⟩
    · exact ⟨rfl, rfl⟩
  refine (Run.bind_of_ok hlogger _).trans ((Run.bind_of_ok (getSettings_ok huc.1) _).trans ?_)
  rw [huc.2]
  cases Value.areWritable (errorItems error) <;> rfl

/-- A failure is reported by one call, or not at all. -/
theorem report_failure_eq (hc : s.settings = .ok c) (error operation : Value) {log : Value}
    {logger : Logger} (h : logger.StandsFor c s log) :
    report (.failure error) log operation s =
      if Value.areWritable (errorItems error) then
        ((reportCall c logger operation (.failure error)).run >>= fun _ =>
          pure (.failure error)) (s.loaded c)
      else .error .numberTooLong (s.loaded c) := by
  have hreport := report_eq_logCall (.failure error) log operation
  have hcall := logCall_failure hc error operation h
  rw [show (Validation.failure error).toValue = .failure error from rfl] at hreport
  rw [hreport]
  cases hw : Value.areWritable (errorItems error) with
  | true =>
      rw [hw] at hcall
      exact Run.bind_of_ok hcall _
  | false =>
      rw [hw] at hcall
      exact Run.bind_of_error hcall _

/-! ### What a report writes -/

/-- No collection holds more items than this, so that every count of items can be encoded. -/
def maxItems : Nat := 9223372036854775807

/-- What all contents of the logger's context and of the report itself have, the whole context of
the record has, under keys that are texts. -/
theorem forall_mem_context_reportCall {C : Value → Prop} {logger : Logger} {operation : Value}
    {v : Validation} (ho : C operation)
    (he : ∀ error, v = .failure error → C (.int (errorItems error).length) ∧
      C (.list ((errorItems error).map fun e => .text e.toPlain)))
    (h : ∀ e ∈ logger.context, (∃ key, e.1 = .text key) ∧ C e.2) :
    ∀ e ∈ (reportCall c logger operation v).context, (∃ key, e.1 = .text key) ∧ C e.2 := by
  have hbound : ∀ e ∈ Keyed.merge logger.context (Entries.ofTexts [("operation", operation)]),
      (∃ key, e.1 = .text key) ∧ C e.2 :=
    Keyed.forall_mem_merge (K := fun key => ∃ s, key = Value.text s) (C := C)
      (Entries.forall_mem_ofTexts (by simpa using ho)) h
  cases v with
  | success value => exact hbound
  | failure error =>
      refine Keyed.forall_mem_merge (K := fun key => ∃ s, key = Value.text s) (C := C) ?_ hbound
      exact Entries.forall_mem_ofTexts (by simpa using he error rfl)

section

variable {logger : Logger} {v : Validation} (hk : logger.context.HaveTextKeys)
include hk

theorem haveTextKeys_reportCall (operation : Value) :
    (reportCall c logger operation v).context.HaveTextKeys := fun e hm =>
  (forall_mem_context_reportCall (C := fun _ => True) trivial (fun _ _ => ⟨trivial, trivial⟩)
    (fun e hm => ⟨hk e hm, trivial⟩) e hm).1

/-- What a report adds to the context of a logger can be encoded by every renderer. -/
theorem canEncode_reportCall {operation : String} {r : Renderer} {time : Seconds}
    (he : r.CanEncode time logger.context)
    (hitems : ∀ error, v = .failure error → (errorItems error).length ≤ maxItems) :
    r.CanEncode time (reportCall c logger (.text operation) v).context := by
  cases r with
  | console output colors showTimestamp =>
      obtain ⟨ho, ht, hv⟩ := he
      refine ⟨ho, ht, fun e hm => ?_⟩
      refine (forall_mem_context_reportCall (C := fun v => v.isWritable = true) rfl ?_
        (fun e hm => ⟨hk e hm, hv e hm⟩) e hm).2
      intro error hv
      refine ⟨Value.isWritable_int (Nat.lt_of_le_of_lt (hitems error hv) (by decide)), ?_⟩
      refine Value.areWritable_iff.mpr fun e hm => ?_
      obtain ⟨item, -, rfl⟩ := List.mem_map.mp hm
      rfl
  | silent => exact he
  | json output =>
      obtain ⟨ho, ht, hv⟩ := he
      refine ⟨ho, ht, fun e hm => ?_⟩
      refine (forall_mem_context_reportCall (C := Value.IsEncodable) (Value.isEncodable_text _) ?_
        (fun e hm => ⟨hk e hm, hv e hm⟩) e hm).2
      intro error hv
      have hle := hitems error hv
      refine ⟨Value.isEncodable_int ?_, ?_⟩
      · simp only [maxItems] at hle
        simp only [Value.isWide, Bool.or_eq_false_iff, decide_eq_false_iff_not]
        omega
      · have htexts := Value.isEncodable_texts ((errorItems error).map Value.toPlain)
        rwa [List.map_map] at htexts

end

/-- A run hands back a value.  It writes the one record of an entry if the level of the entry
reaches a threshold and the renderer is not silent, and nothing otherwise; besides, it may only keep
the settings and configure logging from them. -/
def Observes (c : Settings) (r : Renderer) (threshold level : Int) (entry : LogEntry) (v : Value)
    (run : Run Value) (s : Store) : Prop :=
  ∃ u texts, run s = .ok v (u.writes texts) ∧ (u = s ∨ u = s.loaded c ∨ u = s.configured c) ∧
    texts.length ≤ 1 ∧ (texts.length = 1 ↔ threshold ≤ level ∧ r ≠ .silent) ∧
    (threshold ≤ level → r.texts entry = .ok texts)

/-- **A run that makes one call** writes one record at most, namely the entry of the call. -/
theorem observes_of_run {run : Run Value} {x : LogCall} {v : Value} {u : Store}
    (hc : s.settings = .ok c) (hu : u = s ∨ u = s.loaded c)
    (hrun : run s = (x.run >>= fun _ => pure v) u) {level threshold : Int}
    (hlevel : x.level = .int level) (hshort : (Value.int level).isWritable = true)
    (ht : x.logger.threshold = .int threshold) {r : Renderer} (hr : x.logger.RendersBy c s r)
    (he : r.CanEncode s.surroundings.clock x.context) (hk : x.context.HaveTextKeys)
    {event : String} (hevent : x.event = .text event) :
    Observes c r threshold level (x.entry s.surroundings.clock level) v run s := by
  have huc : u.settings = .ok c ∧ u.renderer = s.renderer ∧ u.surroundings = s.surroundings := by
    obtain rfl | rfl := hu
    · exact ⟨hc, rfl, rfl⟩
    · exact ⟨rfl, rfl, rfl⟩
  by_cases h : threshold ≤ level
  · have hru : x.logger.RendersBy c u r := by
      rw [Logger.RendersBy, huc.2.1]
      exact hr
    obtain ⟨w, hw, hx⟩ := LogCall.run_rendersBy hlevel ht h huc.1 hru
    have hclock : w.surroundings = s.surroundings := by
      obtain rfl | rfl := hw <;> exact huc.2.2
    obtain ⟨texts, htexts⟩ : ∃ texts, r.texts (x.entry s.surroundings.clock level) = .ok texts :=
      Renderer.texts_of_canEncode he hk hevent
    rw [LogCall.handTo_of_isWritable hshort, hclock, Renderer.render_of_texts htexts] at hx
    obtain ⟨hle, hone⟩ := Renderer.length_texts htexts
    refine ⟨w, texts, ?_, ?_, hle, hone.trans (and_iff_right h).symm, fun _ => htexts⟩
    · rw [hrun, Run.bind_of_ok hx]
      rfl
    · obtain rfl | rfl := hw
      · exact hu.imp_right .inl
      · obtain rfl | rfl := hu <;> exact .inr (.inr rfl)
  · refine ⟨u, [], ?_, hu.imp_right .inl, Nat.zero_le 1, ?_, fun hle => absurd hle h⟩
    · rw [hrun, Run.bind_of_ok (LogCall.run_below hlevel ht (by omega) u), Store.writes_nil]
      rfl
    · exact iff_of_false (by simp) fun hle => h hle.1

/-- **A report observes and never alters.**  With settings that load, a logger at a threshold, and a
renderer that can encode what the logger's context holds, a report hands back the validation itself
and writes at most one record, which is the one described here.  The report of a failure needs the
texts of all items of its error; if one of them holds a number that is too long to be written out,
there is the error for that and nothing is written.  Without a logger and without a configured
threshold, the threshold is that of the settings, which lets everything through in debug mode. -/
theorem report_observes (hc : s.settings = .ok c) (operation : String) {log : Value}
    {logger : Logger} (hlog : logger.StandsFor c s log) {threshold : Int}
    (ht : logger.threshold = .int threshold) (hk : logger.context.HaveTextKeys) {r : Renderer}
    (hr : logger.RendersBy c s r) (he : r.CanEncode s.surroundings.clock logger.context) :
    (∀ value, Observes c r threshold 10
      ⟨s.surroundings.clock, "debug", .text "validation passed",
        Keyed.merge logger.context (Entries.ofTexts [("operation", .text operation)])⟩
      (.success value) (report (.success value) log (.text operation)) s) ∧
    (∀ error items, error.HasErrorItems items → items.length ≤ maxItems →
      ((∀ e ∈ items, e.isWritable = true) → Observes c r threshold c.report.level.number
        ⟨s.surroundings.clock, c.report.level.shown, .text "validation failed",
          Keyed.merge
            (Keyed.merge logger.context (Entries.ofTexts [("operation", .text operation)]))
            (Entries.ofTexts [("error_count", .int items.length),
              ("errors", .list (items.map fun e => .text e.toPlain))])⟩
        (.failure error) (report (.failure error) log (.text operation)) s) ∧
      ((∃ e ∈ items, e.isWritable = false) →
        report (.failure error) log (.text operation) s = .error .numberTooLong (s.loaded c))) ∧
    (log = .absent → s.threshold = none →
      threshold = if c.debug then 10 else c.logging.level.number) := by
  refine ⟨fun value => ?_, fun error items hitems hle => ⟨fun hw => ?_, fun hw => ?_⟩, ?_⟩
  · obtain ⟨u, hu, hcall⟩ := logCall_success hc value (.text operation) hlog
    have hrun : report (.success value) log (.text operation) s = _ :=
      (congrFun (report_eq_logCall (.success value) log (.text operation)) s).trans
        (Run.bind_of_ok hcall _)
    have hencode : r.CanEncode _ (reportCall c logger (.text operation) (.success value)).context :=
      canEncode_reportCall hk he fun _ h => by cases h
    have hobserves := observes_of_run hc hu hrun rfl LevelName.debug.isWritable_number ht hr
      hencode (haveTextKeys_reportCall hk _) rfl
    rw [LogCall.entry, LevelName.levelText_number] at hobserves
    exact hobserves
  · obtain rfl := hitems.eq_errorItems
    have hrun := report_failure_eq hc error (.text operation) hlog
    rw [if_pos (Value.areWritable_iff.mpr hw)] at hrun
    have hencode : r.CanEncode _ (reportCall c logger (.text operation) (.failure error)).context :=
      canEncode_reportCall hk he fun _ h => by cases h; exact hle
    have hobserves := observes_of_run hc (.inr rfl) hrun rfl
      c.report.level.isWritable_number ht hr hencode (haveTextKeys_reportCall hk _) rfl
    rw [LogCall.entry, LevelName.levelText_number] at hobserves
    exact hobserves
  · obtain rfl := hitems.eq_errorItems
    obtain ⟨e, hmem, hlong⟩ := hw
    rw [report_failure_eq hc error (.text operation) hlog, if_neg]
    intro hall
    rw [Value.areWritable_iff.mp hall e hmem] at hlong
    cases hlong
  · intro habsent hnone
    obtain rfl | ⟨_, rfl⟩ := hlog
    · cases habsent
    · rw [Store.reportLogger, hnone] at ht
      cases ht
      rw [Settings.logLevel]
      split <;> rfl

/-- In debug mode, with nothing configured, a failure with two errors is written to the screen. -/
theorem report_observes_debug :
    ∃ t : Store,
      report (.failure (.tuple [.text "name: empty", .int 3])) .absent (.text "signup")
          { cached := some { debug := true } } =
        .ok (.failure (.tuple [.text "name: empty", .int 3])) t ∧
      t.written = [(.stderr,
        "00:00:00.000 [warning] validation failed error_count=2 errors=['name: empty', '3']" ++
          " logger=validcase operation=signup\n")] := by
  let c : Settings := { debug := true }
  let s : Store := { cached := some c }
  have hclock : momentOf Seconds.zero.micros = .ok ⟨⟨1970, 1, 1⟩, 0⟩ := by rfl
  have hlog : (s.reportLogger c).StandsFor c s .absent := .inr ⟨rfl, rfl⟩
  have hthreshold : (s.reportLogger c).threshold = .int 10 := rfl
  have hrenderer : (s.reportLogger c).RendersBy c s c.renderer := .inr ⟨rfl, rfl⟩
  have hkeys : (s.reportLogger c).context.HaveTextKeys := Entries.haveTextKeys_ofTexts _
  have hencode : c.renderer.CanEncode Seconds.zero (s.reportLogger c).context :=
    ⟨⟨.stderr, rfl⟩, fun _ => ⟨_, hclock⟩, List.forall_mem_singleton.mpr rfl⟩
  obtain ⟨-, hfailure, -⟩ :=
    report_observes (s := s) rfl "signup" hlog hthreshold hkeys hrenderer hencode
  obtain ⟨u, texts, hrun, hu, -, -, htexts⟩ :=
    (hfailure _ _ (.tuple [.text "name: empty", .int 3]) (by decide)).1 (by decide +kernel)
  have hnothing : u.written = [] := by
    obtain rfl | rfl | rfl := hu <;> rfl
  -- the pairs of the line, which in the context stand the other way round
  let errors : List (String × Value) :=
    [("error_count", .int 2), ("errors", .list [.text "name: empty", .text "3"])]
  let bound : List (String × Value) :=
    [("logger", .text "validcase"), ("operation", .text "signup")]
  let entry : LogEntry :=
    ⟨.zero, "warning", .text "validation failed", Entries.ofTexts (bound ++ errors)⟩
  have hpairs : Console.sortedPairs entry.context = .ok (Entries.ofTexts (errors ++ bound)) :=
    Console.sortedPairs_of_perm List.perm_append_comm (by simp only [errors, bound]; decide)
  have htime : Console.timePart (Renderer.palette (.bool false)) true entry =
      .ok ["00:00:00.000".toList] := by
    rw [Console.timePart, LogEntry.humanTime, hclock]
    decide +kernel
  have hline := Renderer.texts_console htime hpairs rfl (by decide +kernel) .stderr
  have htext : String.ofList (Console.lineOf .plain entry ["00:00:00.000".toList]
      (Entries.ofTexts (errors ++ bound)) ++ ['\n']) =
        "00:00:00.000 [warning] validation failed error_count=2 errors=['name: empty', '3']" ++
          " logger=validcase operation=signup\n" := by
    decide +kernel
  obtain rfl := Except.ok.inj ((htexts (by decide)).symm.trans hline)
  refine ⟨_, hrun, ?_⟩
  rw [Store.writes, hnothing, ← htext]
  rfl

end Accrual
