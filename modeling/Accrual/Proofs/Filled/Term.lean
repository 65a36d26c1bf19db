import Accrual.Proofs.Filled.Method
import Accrual.Session.Term

/-!
# Terms over filled registers

The value of a term is built from what the registers hold and from what the
constructors let through, so it is filled if the registers are.  The callbacks
that a term defines hold the values of its parts.
-/

namespace Accrual

open Value

def Registers.Filled (registers : Registers) : Prop := ∀ r ∈ registers, r.2.Filled

namespace Term

variable {registers : Registers}

theorem keeps_register (hr : registers.Filled) (name : String) :
    (eval registers (.register name)).Keeps Value.Filled := by
  unfold eval
  split
  next v hv => exact Run.keeps_pure (hr (name, v) (mem_of_lookup hv))
  next => exact Run.keeps_throw _

theorem filled_colorsOf {choice : Value} (h : choice.Filled) : (colorsOf choice).Filled := by
  unfold colorsOf
  split
  · exact filled_bool _
  · exact h

mutual

theorem keeps_eval (hr : registers.Filled) (term : Term) :
    (term.eval registers).Keeps Value.Filled := by
  match term with
  | .absent => exact Run.keeps_pure filled_absent
  | .bool b => exact Run.keeps_pure (filled_bool b)
  | .int n => exact Run.keeps_pure (filled_int n)
  | .text s => exact Run.keeps_pure (filled_text s)
  | .list items =>
      exact (keeps_evalAll hr items).bind fun _ h => Run.keeps_pure (filled_list.mpr h)
  | .tuple items =>
      exact (keeps_evalAll hr items).bind fun _ h => Run.keeps_pure (filled_tuple.mpr h)
  | .dictionary entries =>
      refine (keeps_evalEntries hr [] (fun _ he => by cases he) entries).bind fun _ h => ?_
      exact Run.keeps_pure (filled_dictionary.mpr h)
  | .success v =>
      refine (keeps_eval hr v).bind fun _ h => ?_
      exact (Validation.keeps_succeed h).bind fun _ => Run.keeps_pure
  | .failure v =>
      refine (keeps_eval hr v).bind fun _ h => ?_
      exact (Validation.keeps_fail h).bind fun _ => Run.keeps_pure
  | .ok v => exact (keeps_eval hr v).bind fun _ h => Run.keeps_pure (filled_ok.mpr h)
  | .err v => exact (keeps_eval hr v).bind fun _ h => Run.keeps_pure (filled_err.mpr h)
  | .violation field message shown =>
      refine (keeps_eval hr field).bind fun _ _ => ?_
      refine (keeps_eval hr message).bind fun _ _ => ?_
      refine (keeps_eval hr shown).bind fun _ _ => ?_
      exact (Run.keeps_ofExcept_any _).bind fun _ _ => Run.keeps_pure (filled_of_parts_nil rfl)
  | .callback c => exact (keeps_evalCallback hr c).bind fun _ h => Run.keeps_define h
  | .consoleRenderer colors showTimestamp =>
      refine (keeps_eval hr colors).bind fun _ h => ?_
      exact Run.keeps_pure (filled_consoleRenderer.mpr ⟨filled_stream _, filled_colorsOf h⟩)
  | .jsonRenderer => exact Run.keeps_pure (filled_jsonRenderer.mpr (filled_stream _))
  | .silentRenderer => exact Run.keeps_pure (filled_of_parts_nil rfl)
  | .logger context r threshold =>
      refine (keeps_evalEntries hr [] (fun _ he => by cases he) context).bind fun _ hcontext => ?_
      refine (keeps_eval hr r).bind fun _ hrenderer => ?_
      refine (keeps_eval hr threshold).bind fun _ hthreshold => ?_
      exact Run.keeps_pure (filled_logger.mpr ⟨hrenderer, hthreshold, hcontext⟩)
  | .entry time level event context =>
      refine (keeps_eval hr event).bind fun _ hevent => ?_
      refine (keeps_evalEntries hr [] (fun _ he => by cases he) context).bind fun _ hcontext => ?_
      exact Run.keeps_pure (filled_entry.mpr ⟨hevent, hcontext⟩)
  | .stream s => exact Run.keeps_pure (filled_stream s)
  | .register name => exact keeps_register hr name
termination_by structural term

theorem keeps_evalAll (hr : registers.Filled) (terms : List Term) :
    (evalAll registers terms).Keeps FilledRow := by
  match terms with
  | [] => exact Run.keeps_pure filledRow_nil
  | term :: rest =>
      refine (keeps_eval hr term).bind fun _ hv => ?_
      exact (keeps_evalAll hr rest).bind fun _ hvs => Run.keeps_pure (.cons hv hvs)
termination_by structural terms

theorem keeps_evalEntries (hr : registers.Filled) (entries : Entries) (he : Entries.Filled entries)
    (terms : List (Term × Term)) :
    (evalEntries registers entries terms).Keeps Entries.Filled := by
  match terms with
  | [] => exact Run.keeps_pure he
  | (key, content) :: rest =>
      refine (keeps_eval hr key).bind fun key hk => ?_
      refine (keeps_eval hr content).bind fun content hv => ?_
      cases key.unhashable? with
      | some typeName => exact Run.keeps_throw _
      | none => exact keeps_evalEntries hr _ (he.insert hk hv) rest
termination_by structural terms

theorem keeps_evalCallback (hr : registers.Filled) (callback : Callback Term) :
    (evalCallback registers callback).Keeps Callback.Filled := by
  match callback with
  | .identity | .tuple | .list | .literal | .plain | .join _ | .enclose _ _ | .add _ | .multiply _
  | .sum | .greaterThan _ | .isEven | .length | .nonblank | .success | .failure | .parseInt
  | .stop _ => exact Run.keeps_pure filledRow_nil
  | .constant v | .equals v | .trace _ v =>
      exact (keeps_eval hr v).bind fun _ h => Run.keeps_pure (filledRow_single h)
  | .check predicate error =>
      refine (keeps_eval hr predicate).bind fun _ hp => ?_
      exact (keeps_eval hr error).bind fun _ he => Run.keeps_pure (.cons hp (filledRow_single he))
  | .stopIf predicate _ =>
      exact (keeps_eval hr predicate).bind fun _ h => Run.keeps_pure (filledRow_single h)
  | .compose terms | .method _ terms =>
      exact (keeps_evalAll hr terms).bind fun _ h => Run.keeps_pure h
  | .curry _ inner collected =>
      refine (keeps_eval hr inner).bind fun _ hi => ?_
      exact (keeps_evalAll hr collected).bind fun _ hvs => Run.keeps_pure (.cons hi hvs)
termination_by structural callback

end

end Term

end Accrual
