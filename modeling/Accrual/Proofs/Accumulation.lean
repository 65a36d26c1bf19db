import Accrual.Proofs.Agreement
import Accrual.Proofs.Keyed
import Accrual.Proofs.Report

/-!
# Accumulated errors, shown

Accumulated errors travel as one payload, a tuple, and are shown by two functions
that take the payload apart again: as text (`renderErrors`) and in a log record
(`report`).  Both take it apart in the same way (`errorItems`), and only one
level deep, so that an error that is a tuple itself stays one error.
`errors_shown` follows the errors of a row all the way: each is shown once, and
in order.
-/

namespace Accrual

open Validation

/-! ### Ways to accumulate -/

/-- A run that accumulates the validations of a row: going through a value that yields them, or
applying the stage of two to eight of them to a function. -/
inductive Accumulates (call : Calls) (vs : List Validation) : Run Validation → Prop
  | sequence {validations : Value} : validations.elements? = some (vs.map toValue) →
      Accumulates call vs (Accrual.sequence validations)
  | combine {f : Value} : f.isCallable → 2 ≤ vs.length → vs.length ≤ 8 →
      Accumulates call vs (do (← Accrual.combine (vs.map toValue)).apply call f)

/-- **However a row with a failure is accumulated**, what comes out is the failure with the tuple of
its errors; at most a number for a stage was taken. -/
theorem Accumulates.run {call : Calls} {vs : List Validation} {accumulate : Run Validation}
    (h : Accumulates call vs accumulate) (he : errorsOf vs ≠ []) (s : Store) :
    ∃ n, accumulate s = .ok (failure (.tuple (errorsOf vs))) { s with nextId := n } := by
  cases h with
  | sequence helements =>
      refine ⟨s.nextId, ?_⟩
      rw [sequence_row helements, Gathered.of_ne_nil _ he]
      rfl
  | @combine f hf hmin hmax =>
      have hpresent : f.isAbsent = false := by
        cases f with
        | function g => rfl
        | _ => cases hf
      refine ⟨s.nextId + 1, ?_⟩
      rw [Run.bind_of_ok (Stage.combine_row hmin hmax s),
        Stage.apply_failures call hpresent rfl he (.inl hf)]
      rfl

/-! ### Errors as text -/

/-- **Rendered errors** are the items of the payload, each behind the bullet, joined by the
separator, if each of them can be written out. -/
theorem renderErrors_eq {s : Store} {c : Settings} (hc : s.settings = .ok c) (errors : Value)
    (bullet separator : String) :
    renderErrors errors (.text bullet) (.text separator) s =
      if Value.areWritable (errorItems errors) then
        .ok (separator.intercalate ((errorItems errors).map fun e => bullet ++ e.toPlain))
          (s.loaded c)
      else .error .numberTooLong (s.loaded c) := by
  have htext : String.ofList (separator.toList.intercalate
        ((errorItems errors).map fun e => bullet.toList ++ e.plain)) =
      separator.intercalate ((errorItems errors).map fun e => bullet ++ e.toPlain) := by
    refine String.toList_injective ?_
    rw [String.toList_ofList, String.toList_intercalate, List.map_map]
    congr 2
    funext e
    simp [Value.toPlain]
  have hparts : (errorItems errors).mapM (fun e => do
        return (← (Value.text bullet).written Value.plain) ++ (← e.written Value.plain)) =
      (errorItems errors).mapM (Value.written fun e => bullet.toList ++ e.plain) := by
    refine congrArg (fun f => (errorItems errors).mapM f) (funext fun e => ?_)
    rw [Value.written_eq, Value.written_eq, Value.written_eq]
    cases e.isWritable <;> rfl
  rw [← htext, renderErrors, Run.bind_of_ok (getSettings_ok hc)]
  simp only [Value.isAbsent, Bool.false_eq_true, if_false, Value.text?, hparts, Value.mapM_written]
  cases Value.areWritable (errorItems errors) <;> rfl

/-! ### Errors in a record -/

/-- The entry tells how many errors there are, and the text of each of them in order. -/
structure LogEntry.TellsErrors (errors : List Value) (entry : LogEntry) : Prop where
  count : entry.context.lookup (.text "error_count") = some (.int errors.length)
  texts : entry.context.lookup (.text "errors") =
    some (.list (errors.map fun e => .text e.toPlain))

/-- What a reported failure is told by: its own fields come last and override what the logger is
bound to. -/
theorem tellsErrors_reportCall (c : Settings) (logger : Logger) (operation error : Value)
    (time : Seconds) (level : Int) :
    ((reportCall c logger operation (.failure error)).entry time level).TellsErrors
      (errorItems error) where
  count := (Keyed.lookup_insert_other_text _ _ (show "error_count" ≠ "errors" by decide)).trans
    (Keyed.lookup_insert_text _ _ _)
  texts := Keyed.lookup_insert_text _ _ _

/-- **A reported failure** whose items can be written out is one record to one renderer. -/
theorem report_failure {s : Store} {c : Settings} (hc : s.settings = .ok c)
    {log : Value} {logger : Logger} (hlog : logger.StandsFor c s log) {threshold : Int}
    (ht : logger.threshold = .int threshold) (hle : threshold ≤ c.report.level.number)
    {r : Renderer} (hr : logger.RendersBy c s r) (operation : Value) {error : Value}
    (hw : Value.areWritable (errorItems error) = true) :
    ∃ u entry, (u = s ∨ u = s.loaded c ∨ u = s.configured c) ∧
      report (.failure error) log operation s =
        (r.render entry >>= fun _ => pure (.failure error)) u ∧
      entry.event = .text "validation failed" ∧ entry.level = c.report.level.shown ∧
      entry.TellsErrors (errorItems error) := by
  have hrun := report_failure_eq hc error operation hlog
  rw [if_pos hw] at hrun
  have hlevel : (reportCall c logger operation (.failure error)).level =
      .int c.report.level.number := rfl
  have hthreshold : (reportCall c logger operation (.failure error)).logger.threshold =
      .int threshold := ht
  have hru : (reportCall c logger operation (.failure error)).logger.RendersBy c (s.loaded c) r :=
    hr
  obtain ⟨w, hw, hx⟩ := LogCall.run_rendersBy hlevel hthreshold hle rfl hru
  rw [LogCall.handTo_of_isWritable c.report.level.isWritable_number] at hx
  refine ⟨w, _, ?_, hrun.trans (Run.bind_of_eq hx _), rfl, LevelName.levelText_number _,
    tellsErrors_reportCall c logger operation error _ _⟩
  obtain rfl | rfl := hw
  · exact .inr (.inl rfl)
  · exact .inr (.inr rfl)

/-! ### From the row to what is shown -/

/-- **Every error is shown exactly once and in order.**  With settings that load, a row with a
failure is accumulated to a failure `r`, and of the payloads of its failures, whatever they are,
each is one error for both ways to show `r`.  Rendered, they are joined by the separator, each
behind the bullet.  Reported to a logger whose threshold lets it through, they are one record that
tells their number, which is that of the failures, and their texts.  If one of the payloads holds a
number that is too long to be written out, none of them is shown in either way. -/
theorem errors_shown {call : Calls} {vs : List Validation} {accumulate : Run Validation}
    (h : Accumulates call vs accumulate) (hf : ∃ v ∈ vs, v.isFailure) {s : Store} {c : Settings}
    (hc : s.settings = .ok c) :
    (vs.filterMap error?).length = vs.countP isFailure ∧ ∃ r t, accumulate s = .ok r t ∧
      ((∀ e ∈ vs.filterMap error?, e.isWritable = true) →
        (∀ bullet separator : String,
          (do renderErrors (← r.getError) (.text bullet) (.text separator)) t =
            .ok (separator.intercalate ((vs.filterMap error?).map fun e => bullet ++ e.toPlain))
              (t.loaded c)) ∧
        (∀ (log : Value) (logger : Logger) (operation : String) (threshold : Int)
          (renderer : Renderer),
          logger.StandsFor c t log → logger.threshold = .int threshold →
          threshold ≤ c.report.level.number → logger.RendersBy c t renderer →
          ∃ u entry, (u = t ∨ u = t.loaded c ∨ u = t.configured c) ∧
            report r.toValue log (.text operation) t =
              (renderer.render entry >>= fun _ => pure r.toValue) u ∧
            entry.event = .text "validation failed" ∧ entry.level = c.report.level.shown ∧
            entry.TellsErrors (vs.filterMap error?))) ∧
      ((∃ e ∈ vs.filterMap error?, e.isWritable = false) →
        (∀ bullet separator : String,
          (do renderErrors (← r.getError) (.text bullet) (.text separator)) t =
            .error .numberTooLong (t.loaded c)) ∧
        ∀ (log : Value) (logger : Logger) (operation : String), logger.StandsFor c t log →
          report r.toValue log (.text operation) t = .error .numberTooLong (t.loaded c)) := by
  obtain ⟨n, hrun⟩ := h.run (errorsOf_ne_nil hf) s
  have htc : Store.settings { s with nextId := n } = .ok c := hc
  have hrender := renderErrors_eq htc (.tuple (errorsOf vs))
  refine ⟨length_errorsOf vs, _, _, hrun, fun hw => ⟨fun bullet separator => ?_, ?_⟩,
    fun ⟨e, he, hlong⟩ => ?_⟩
  · exact (hrender bullet separator).trans (if_pos (Value.areWritable_iff.mpr hw))
  · intro log logger operation threshold r hlog ht hle hr
    exact report_failure htc hlog ht hle hr (.text operation) (Value.areWritable_iff.mpr hw)
  · have hnot : ¬Value.areWritable (errorItems (.tuple (errorsOf vs))) = true := fun hall => by
      rw [Value.areWritable_iff.mp hall e he] at hlong
      cases hlong
    refine ⟨fun bullet separator => ?_, fun log logger operation hlog => ?_⟩
    · exact (hrender bullet separator).trans (if_neg hnot)
    · exact (report_failure_eq htc _ _ hlog).trans (if_neg hnot)

/-- An error that is a pair stays one error, between a success and an error that is a text. -/
theorem errors_shown_pair :
    let pair : Value := .tuple [.text "a", .int 2]
    let row : List Validation := [failure pair, success (.int 1), failure (.text "b")]
    let s : Store := { cached := some {} }
    (∃ v ∈ row, v.isFailure) ∧ ∃ r t,
      Accrual.sequence (.list [.failure pair, .success (.int 1), .failure (.text "b")]) s =
        .ok r t ∧
      (do renderErrors (← r.getError) (.text "* ") (.text "; ")) t =
        .ok "* ('a', 2); * b" (t.loaded {}) ∧
      ∃ u entry, report r.toValue .absent (.text "signup") t =
          ((Settings.renderer {}).render entry >>= fun _ => pure r.toValue) u ∧
        entry.level = "warning" ∧ entry.TellsErrors [pair, .text "b"] := by
  intro pair row s
  have hf : ∃ v ∈ row, v.isFailure := ⟨failure pair, List.mem_cons_self, rfl⟩
  have hrow : (Value.list [.failure pair, .success (.int 1), .failure (.text "b")]).elements? =
      some (row.map toValue) := rfl
  obtain ⟨-, r, t, hrun, hshown, -⟩ :=
    errors_shown (show Accumulates (fun _ _ => pure .absent) row _ from .sequence hrow) hf
      (show s.settings = .ok {} from rfl)
  obtain ⟨hrender, hreport⟩ := hshown (by decide +kernel)
  have ht : t = s := by
    rw [sequence_row hrow] at hrun
    cases hrun
    rfl
  subst ht
  obtain ⟨u, entry, -, hwritten, -, hlevel, htells⟩ :=
    hreport .absent (s.reportLogger {}) "signup" 20 (Settings.renderer {}) (.inr ⟨rfl, rfl⟩) rfl
      (by decide) (.inr ⟨rfl, rfl⟩)
  refine ⟨hf, r, s, hrun, ?_, u, entry, hwritten, hlevel, htells⟩
  have htext : "* ('a', 2); * b" =
      "; ".intercalate ((row.filterMap error?).map fun e => "* " ++ e.toPlain) := by decide
  rw [htext]
  exact hrender "* " "; "

end Accrual
