import Accrual.Callback.Meaning
import Accrual.Proofs.Filled.Method

/-!
# Callbacks on filled values

A callback returns its argument, a value it holds, a value it makes of plain
numbers and texts, or what other functions return; the validations among these
come from `Validation.succeed` and `Validation.fail`.  So a filled callback
comes to filled values if the functions it calls do (`Callback.keeps_apply`),
and by induction on the depth of the calls all callbacks do.
-/

namespace Accrual.Callback

open Value

theorem keeps_withArgument (name : String) {arguments : List Value} (h : FilledRow arguments)
    {body : Value → Run Value} (hb : ∀ x, x.Filled → (body x).Keeps Value.Filled) :
    (withArgument name arguments body).Keeps Value.Filled := by
  unfold withArgument
  split
  next x => exact hb x h.head
  next => exact Run.keeps_throw _

theorem keeps_integer (name : String) (v : Value) : (integer name v).Keeps fun _ => True := by
  cases v with
  | int n => exact Run.keeps_pure trivial
  | _ => exact Run.keeps_throw _

theorem keeps_written (text : Value → String) (v : Value) :
    (written text v).Keeps fun _ => True :=
  Run.keeps_ofExcept_any _

theorem keeps_parsed (x : Value) : (parsed x).Keeps fun v => v.toValue.Filled := by
  unfold parsed
  split
  · exact (Run.keeps_ofExcept_any _).bind fun _ _ => Validation.keeps_succeed (filled_int _)
  · exact (keeps_written _ _).bind fun _ _ => Validation.keeps_fail (filled_text _)

/-- A callback that makes a text of its argument. -/
theorem keeps_withWritten (name : String) (text : Value → String) (close : String → String)
    {arguments : List Value} (h : FilledRow arguments) :
    (withArgument name arguments fun x =>
      return .text (close (← written text x))).Keeps Value.Filled := by
  refine keeps_withArgument name h fun x _ => ?_
  exact (keeps_written text x).bind fun _ _ => Run.keeps_pure (filled_text _)

/-- A callback that makes something of a number. -/
theorem keeps_withInteger (name : String) {make : Int → Value} (hm : ∀ n, (make n).Filled)
    {arguments : List Value} (h : FilledRow arguments) :
    (withArgument name arguments fun x =>
      return make (← integer name x)).Keeps Value.Filled := by
  refine keeps_withArgument name h fun x _ => ?_
  exact (keeps_integer name x).bind fun n _ => Run.keeps_pure (hm n)

/-- **A call of a filled callback** comes to a filled value, if the calls inside it do. -/
theorem keeps_apply {call : Calls} (hc : call.KeepFilled) {callback : Callback Value}
    (hf : callback.Filled) {arguments : List Value} (h : FilledRow arguments) :
    (callback.apply call arguments).Keeps Value.Filled := by
  cases callback with
  | identity => exact keeps_withArgument _ h fun x hx => Run.keeps_pure hx
  | constant v => exact Run.keeps_pure hf.head
  | tuple => exact Run.keeps_pure (filled_tuple.mpr h)
  | list => exact Run.keeps_pure (filled_list.mpr h)
  | literal => exact keeps_withWritten _ _ id h
  | plain => exact keeps_withWritten _ _ id h
  | join separator =>
      refine (Run.keeps_mapM arguments fun x _ => keeps_written toPlain x).bind fun parts _ => ?_
      exact Run.keeps_pure (filled_text _)
  | enclose before after => exact keeps_withWritten _ _ (fun s => before ++ s ++ after) h
  | add n => exact keeps_withInteger _ (fun m => filled_int (m + n)) h
  | multiply n => exact keeps_withInteger _ (fun m => filled_int (m * n)) h
  | sum =>
      refine (Run.keeps_mapM arguments fun x _ => keeps_integer _ x).bind fun numbers _ => ?_
      exact Run.keeps_pure (filled_int _)
  | greaterThan n => exact keeps_withInteger _ (fun m => filled_bool (n < m)) h
  | isEven => exact keeps_withInteger _ (fun m => filled_bool (m % 2 == 0)) h
  | equals v => exact keeps_withArgument _ h fun x _ => Run.keeps_pure (filled_bool _)
  | length =>
      refine keeps_withArgument _ h fun x _ => ?_
      exact (Run.keeps_ofExcept_any _).bind fun _ _ => Run.keeps_pure (filled_int _)
  | nonblank => exact keeps_withArgument _ h fun x _ => Run.keeps_pure (filled_bool _)
  | success =>
      refine keeps_withArgument _ h fun x hx => ?_
      exact (Validation.keeps_succeed hx).bind fun _ => Run.keeps_pure
  | failure =>
      refine keeps_withArgument _ h fun x hx => ?_
      exact (Validation.keeps_fail hx).bind fun _ => Run.keeps_pure
  | parseInt =>
      refine keeps_withArgument _ h fun x _ => ?_
      exact (keeps_parsed x).bind fun _ => Run.keeps_pure
  | check predicate error =>
      refine keeps_withArgument _ h fun x hx => ?_
      refine (keeps_invoke hc predicate (filledRow_single hx)).bind fun passed _ => ?_
      split
      · exact (Validation.keeps_succeed hx).bind fun _ => Run.keeps_pure
      · exact (Validation.keeps_fail hf.tail.head).bind fun _ => Run.keeps_pure
  | stop message => exact Run.keeps_throw _
  | stopIf predicate message =>
      refine keeps_withArgument _ h fun x hx => ?_
      refine (keeps_invoke hc predicate (filledRow_single hx)).bind fun stopped _ => ?_
      split
      · exact Run.keeps_throw _
      · exact Run.keeps_pure hx
  | compose functions =>
      refine keeps_withArgument _ h fun x hx => ?_
      exact Run.keeps_foldlM functions (fun y f _ hy => keeps_invoke hc f (filledRow_single hy)) hx
  | method name values =>
      refine keeps_withArgument _ h fun x hx => ?_
      refine (keeps_method hc hx name).bind fun bound hb => ?_
      exact hb ⟨values, []⟩ ⟨hf, fun _ ha => by cases ha⟩
  | curry missing inner collected =>
      refine keeps_withArgument _ h fun x hx => ?_
      have hmore := hf.tail.append (filledRow_single hx)
      split
      · exact keeps_invoke hc inner hmore
      · exact Run.keeps_define (FilledRow.cons hf.head hmore)
  | trace tag inner =>
      exact (Run.keeps_noteCall tag h).bind fun _ _ => keeps_invoke hc inner h

/-- Calls nested up to a bound: what a function may call is nested one less deep. -/
theorem keepFilled_meaning (bound : Nat) : (meaning bound).KeepFilled := by
  induction bound with
  | zero => exact fun _ _ _ => Run.keeps_throw _
  | succ bound ih =>
      intro f arguments h
      refine Run.keeps_get.bind fun s hs => ?_
      cases hf : s.callbacks[f.id]? with
      | some callback => exact keeps_apply ih (hs.callbacks callback (List.mem_of_getElem? hf)) h
      | none => exact Run.keeps_throw _

theorem keepFilled_calls : calls.KeepFilled := keepFilled_meaning maxDepth

end Accrual.Callback
