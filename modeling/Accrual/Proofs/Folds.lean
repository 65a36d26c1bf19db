import Accrual.Proofs.Sending
import Accrual.Proofs.Sequence
import Accrual.Proofs.Stage

/-!
# Accumulation as a fold by `ap`

What a row of validations comes to is given step by step by `Gathered.add`.  The
same comes out of `ap` alone, where what the row has come to so far is a
validation itself, and each item is applied to it in turn (`Value.apTo`).  For a
stage it starts as a success with the function, written as nested functions of
one argument (`Stage.apply_eq_foldlM`); for a sequence it starts as a success
with the empty tuple, which each step maps to the function that appends one
value (`sequence_eq_foldlM`).

Functions are tokens, so the nested ones are described by what their calls come
to (`Curries`, `Appends`), and only for the values in front of the first item
that is no success, as no other ones are ever handed over.  There are such
functions for every row (`curries_curryCalls`, `appends_appendCalls`).
-/

namespace Accrual

open Validation

def leadingValues : List Value → List Value
  | .success value :: rest => value :: leadingValues rest
  | _ => []

theorem append_leadingValues_success (taken : List Value) (x : Value) (rest : List Value) :
    taken ++ leadingValues (.success x :: rest) = (taken ++ [x]) ++ leadingValues rest := by
  rw [leadingValues, List.append_assoc, List.singleton_append]

/-! ### One step -/

/-- Makes ready what came before, and calls the method `ap` of the item on it.  The method is looked
up first. -/
def Value.apTo (call : Calls) (ready : Value → Run Value) (before item : Value) : Run Value := do
  let ap ← item.method call Method.ap.label
  ap ⟨[← ready before], []⟩

section

variable (call : Calls) (ready : Value → Run Value)

theorem apTo_misfit {item : Value} (h : ofValue? item = none) (before : Value) :
    Value.apTo call ready before item = throw (.noAttribute item.typeName "ap") := by
  have hmethod : item.method call Method.ap.label = throw (.noAttribute item.typeName "ap") := by
    cases item <;> first | rfl | cases h
  rw [Value.apTo, hmethod, Run.throw_bind]

theorem apTo_validation (v : Validation) (before : Value) :
    Value.apTo call ready before v.toValue = (ready before >>= fun other => v.ap call other) := by
  have hmethod : v.toValue.method call Method.ap.label =
      pure (Method.withOne "ap" "other" fun other => v.ap call other) := by
    cases v <;> rfl
  rw [Value.apTo, hmethod, pure_bind]
  rfl

theorem ap_success {f : Value} (x : Value) :
    (success x).ap call (.success f) = (do
      let y ← invoke call f [x]
      require y "value" "success"
      return .success y) := by
  simp [ap, succeed]

/-- **Errors add up by `ap`** as they do in a row, and nothing is called. -/
theorem foldlM_apTo_errors {α : Type} (feed : α → Value → Run α) (out : α → Value)
    (hready : ∀ error, ready (.failure error) = pure (.failure error)) (items : List Value)
    (found : List Value) :
    items.foldlM (Value.apTo call ready) (.failure (.tuple found)) =
      (fun gathered => (gathered.toValidation out).toValue) <$>
        items.foldlM (Gathered.add feed) (.errors found) := by
  induction items generalizing found with
  | nil => rfl
  | cons item rest ih =>
      rw [List.foldlM_cons, List.foldlM_cons]
      cases hitem : ofValue? item with
      | none =>
          rw [apTo_misfit call ready hitem, Gathered.add_misfit feed hitem]
          rfl
      | some v =>
          obtain rfl := toValue_eq_of_ofValue? hitem
          rw [apTo_validation, hready, pure_bind]
          cases v with
          | success value => exact ih found
          | failure error => exact ih (found ++ [error])

end

/-! ### Stages -/

/-- Nested functions of one argument stand for a function of several arguments, as far as the given
values go: `nested taken` has taken some of them.  It waits for more, for which it looks whether
there is a function to wait for at all, and the last one calls the function. -/
structure Curries (call : Calls) (f : Value) (arity : Nat) (values : List Value)
    (nested : List Value → Value) : Prop where
  present : ∀ taken, (nested taken).isAbsent = false
  waits : ∀ taken x, taken ++ [x] <+: values → taken.length + 1 < arity →
    invoke call (nested taken) [x] =
      if f.isCallable then pure (nested (taken ++ [x])) else throw .nothingToApply
  calls : ∀ taken x, taken ++ [x] <+: values → taken.length + 1 = arity →
    invoke call (nested taken) [x] = invoke call f (taken ++ [x])

def nestedToken (taken : List Value) : Value := .function ⟨taken.length + 1, "curry", true⟩

/-- A meaning for nested functions that stand for the first one. -/
def curryCalls (whole : List Value → Run Value) (arity : Nat) (values : List Value) : Calls :=
  fun f arguments =>
    match f.id with
    | 0 => whole arguments
    | taken + 1 =>
        if taken + 1 < arity then pure (nestedToken (values.take taken ++ arguments))
        else whole (values.take taken ++ arguments)

theorem curries_curryCalls (whole : List Value → Run Value) (arity : Nat) (values : List Value) :
    Curries (curryCalls whole arity values) (.function ⟨0, "f", false⟩) arity values
      nestedToken where
  present _ := rfl
  waits taken x h hlt := by
    have htaken : values.take taken.length = taken :=
      (List.prefix_iff_eq_take.mp ((List.prefix_append _ _).trans h)).symm
    change (if taken.length + 1 < arity then _ else _) = _
    rw [if_pos hlt, htaken]
    rfl
  calls taken x h heq := by
    have htaken : values.take taken.length = taken :=
      (List.prefix_iff_eq_take.mp ((List.prefix_append _ _).trans h)).symm
    change (if taken.length + 1 < arity then _ else _) = _
    rw [if_neg (by omega), htaken]
    rfl

namespace Curries

variable {call : Calls} {f : Value} {arity : Nat} {values : List Value}
  {nested : List Value → Value} (h : Curries call f arity values nested) {taken : List Value}
include h

/-- A value that is not the last one is taken, if there is a function at all. -/
theorem apTo_of_lt {x : Value} (hx : taken ++ [x] <+: values) (hlt : taken.length + 1 < arity) :
    Value.apTo call pure (.success (nested taken)) (.success x) =
      if f.isCallable then pure (.success (nested (taken ++ [x]))) else throw .nothingToApply := by
  refine (apTo_validation call pure (success x) _).trans ?_
  rw [pure_bind, ap_success, h.waits taken x hx hlt]
  cases f.isCallable with
  | false => rfl
  | true =>
      rw [if_pos rfl, if_pos rfl, pure_bind, require_of_present (h.present _)]
      rfl

/-- The last value calls the function. -/
theorem apTo_of_eq {x : Value} (hx : taken ++ [x] <+: values) (heq : taken.length + 1 = arity) :
    Value.apTo call pure (.success (nested taken)) (.success x) =
      (fun curried => .success curried.value) <$> Curried.finish call f (taken ++ [x]) := by
  refine (apTo_validation call pure (success x) _).trans ?_
  rw [pure_bind, ap_success, h.calls taken x hx heq]
  simp [Curried.finish, Curried.value]

/-- What has taken some values goes on by `ap` as it does in a stage. -/
theorem foldlM_apTo {items : List Value} (hitems : items ≠ [])
    (hlength : taken.length + items.length = arity)
    (hvalues : taken ++ leadingValues items <+: values) :
    items.foldlM (Value.apTo call pure) (.success (nested taken)) =
      (fun gathered => (gathered.toValidation Curried.value).toValue) <$>
        items.foldlM (Gathered.add (Curried.feed call))
          (.values (.waiting f items.length taken)) := by
  -- `taken` grows with each success; from the first failure on, `foldlM_apTo_errors` takes over
  induction items generalizing taken with
  | nil => exact absurd rfl hitems
  | cons item rest ih =>
      rw [List.foldlM_cons, List.foldlM_cons]
      cases hitem : ofValue? item with
      | none =>
          rw [apTo_misfit call pure hitem, Gathered.add_misfit _ hitem]
          rfl
      | some v =>
          obtain rfl := toValue_eq_of_ofValue? hitem
          cases v with
          | failure error =>
              rw [apTo_validation, pure_bind]
              exact foldlM_apTo_errors call pure _ Curried.value (fun _ => rfl) rest [error]
          | success x =>
              rw [toValue_success, append_leadingValues_success] at hvalues
              have hx := (List.prefix_append (taken ++ [x]) (leadingValues rest)).trans hvalues
              rw [toValue_success, Gathered.add_success_values, Curried.feed]
              -- only the last value calls the function; the ones before it are kept
              cases rest with
              | nil =>
                  have hlast : [Value.success x].length ≤ 1 := Nat.le_refl 1
                  rw [h.apTo_of_eq hx hlength, if_pos hlast]
                  simp [Gathered.toValidation]
              | cons next rest =>
                  have hmore : ¬(Value.success x :: next :: rest).length ≤ 1 := by simp
                  have hlength' : (taken ++ [x]).length + (next :: rest).length = arity := by
                    rw [← hlength, List.length_append, List.length_cons]
                    simp only [List.length_cons, List.length_nil]
                    omega
                  have hlt : taken.length + 1 < arity := by
                    rw [← hlength, List.length_cons, List.length_cons]
                    omega
                  rw [h.apTo_of_lt hx hlt, if_neg hmore]
                  cases f.isCallable with
                  | false => rfl
                  | true => exact ih (List.cons_ne_nil _ _) hlength' hvalues

end Curries

/-- **A stage is a fold by `ap`** from a success with the nested function. -/
theorem Stage.apply_eq_foldlM {call : Calls} {f : Value} (hf : f.isAbsent = false) {stage : Stage}
    (hitems : stage.items ≠ []) {nested : List Value → Value}
    (h : Curries call f stage.items.length (leadingValues stage.items) nested) :
    (do return (← stage.apply call f).toValue) =
      stage.items.foldlM (Value.apTo call pure) (.success (nested [])) := by
  rw [h.foldlM_apTo hitems (Nat.zero_add _) (List.prefix_refl _)]
  simp [Stage.apply, require_of_present hf]

/-! ### Sequences -/

/-- A function that makes of a tuple the function that appends one value to it, as far as the given
values go. -/
structure Appends (call : Calls) (append : Value) (values : List Value)
    (appending : List Value → Value) : Prop where
  present : append.isAbsent = false
  appending_present : ∀ taken, (appending taken).isAbsent = false
  makes : ∀ taken, taken <+: values → invoke call append [.tuple taken] = pure (appending taken)
  appends : ∀ taken x, taken ++ [x] <+: values →
    invoke call (appending taken) [x] = pure (.tuple (taken ++ [x]))

/-- A meaning for the function that makes functions, and for those that it makes. -/
def appendCalls (values : List Value) : Calls := fun f arguments =>
  match f.id, arguments with
  | 0, [.tuple taken] => pure (nestedToken taken)
  | taken, arguments => pure (.tuple (values.take (taken - 1) ++ arguments))

theorem appends_appendCalls (values : List Value) :
    Appends (appendCalls values) (.function ⟨0, "append", false⟩) values nestedToken where
  present := rfl
  appending_present _ := rfl
  makes _ _ := rfl
  appends taken x h := by
    have htaken : values.take taken.length = taken :=
      (List.prefix_iff_eq_take.mp ((List.prefix_append _ _).trans h)).symm
    change (pure (.tuple (values.take (taken.length + 1 - 1) ++ [x])) : Run Value) = _
    rw [Nat.add_sub_cancel, htaken]

def appended (call : Calls) (append before : Value) : Run Value :=
  before.send call Method.map.label ⟨[append], []⟩

theorem appended_toValue (call : Calls) (append : Value) (v : Validation) :
    appended call append v.toValue = (do return (← v.map call append).toValue) := by
  have hfind : Method.find? call v.toValue .map =
      some (Method.withOne "map" "f" fun f => do return (← v.map call f).toValue) := by
    cases v <;> rfl
  rw [appended, Method.send_of_find hfind]
  rfl

namespace Appends

variable {call : Calls} {append : Value} {values : List Value} {appending : List Value → Value}
  (h : Appends call append values appending) {taken : List Value}
include h

/-- A success is mapped to the function that appends to it, a failure stays what it is. -/
theorem appended_success (htaken : taken <+: values) :
    appended call append (.success (.tuple taken)) = pure (.success (appending taken)) := by
  refine (appended_toValue call append (success (.tuple taken))).trans ?_
  simp [map, succeed, require_of_present h.present, h.makes taken htaken,
    require_of_present (h.appending_present taken)]

theorem appended_failure (error : Value) :
    appended call append (.failure error) = pure (.failure error) := by
  refine (appended_toValue call append (failure error)).trans ?_
  simp [map, require_of_present h.present]

theorem apTo_success {x : Value} (hx : taken ++ [x] <+: values) :
    Value.apTo call (appended call append) (.success (.tuple taken)) (.success x) =
      pure (.success (.tuple (taken ++ [x]))) := by
  refine (apTo_validation call _ (success x) _).trans ?_
  rw [h.appended_success ((List.prefix_append _ _).trans hx), pure_bind, ap_success,
    h.appends taken x hx, pure_bind]
  rfl

/-- What has appended some values goes on by `ap` as it does in a sequence. -/
theorem foldlM_apTo {items : List Value} (hvalues : taken ++ leadingValues items <+: values) :
    items.foldlM (Value.apTo call (appended call append)) (.success (.tuple taken)) =
      (fun gathered => (gathered.toValidation .tuple).toValue) <$>
        items.foldlM (Gathered.add collect) (.values taken) := by
  induction items generalizing taken with
  | nil => rfl
  | cons item rest ih =>
      have htaken := (List.prefix_append taken _).trans hvalues
      rw [List.foldlM_cons, List.foldlM_cons]
      cases hitem : ofValue? item with
      | none =>
          rw [apTo_misfit call _ hitem, Gathered.add_misfit _ hitem]
          rfl
      | some v =>
          obtain rfl := toValue_eq_of_ofValue? hitem
          cases v with
          | failure error =>
              rw [apTo_validation, h.appended_success htaken, pure_bind]
              exact foldlM_apTo_errors call _ collect .tuple h.appended_failure rest [error]
          | success x =>
              rw [toValue_success, append_leadingValues_success] at hvalues
              have hx := (List.prefix_append (taken ++ [x]) (leadingValues rest)).trans hvalues
              rw [toValue_success, h.apTo_success hx, pure_bind]
              exact ih hvalues

end Appends

/-- **A sequence is a fold by `ap`** from a success with the empty tuple. -/
theorem sequence_eq_foldlM {call : Calls} {append validations : Value} {items : List Value}
    (hitems : validations.elements? = some items) {appending : List Value → Value}
    (h : Appends call append (leadingValues items) appending) :
    (do return (← sequence validations).toValue) =
      items.foldlM (Value.apTo call (appended call append)) (.success (.tuple [])) := by
  rw [h.foldlM_apTo (List.prefix_refl _), sequence_eq hitems]
  simp

end Accrual
