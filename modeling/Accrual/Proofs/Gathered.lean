import Accrual.Proofs.Run
import Accrual.Validation

/-!
# What a row of validations gathers

`Gathered.add` takes in one item.  This file says what a whole row comes to,
whatever is made of its values: the values in front of the first failure
(`leading`) are fed one by one, nothing is fed behind it, and all errors of the
row are kept in order (`errorsOf`).

* `foldlM_add`: a row of validations.
* `foldlM_add_misfit`: a row with something else in it stops at the first item
  that is no validation, whatever follows.
-/

namespace Accrual

namespace Validation

@[simp] theorem toValue_success (value : Value) : (success value).toValue = .success value := rfl

@[simp] theorem toValue_failure (error : Value) : (failure error).toValue = .failure error := rfl

theorem toValue_eq_of_ofValue? {item : Value} {v : Validation} (h : ofValue? item = some v) :
    v.toValue = item := by
  cases item <;> simp only [ofValue?, reduceCtorEq, Option.some.injEq] at h <;> subst h <;> rfl

/-! ### Values and errors of a row -/

def error? : Validation → Option Value
  | success _ => none
  | failure error => some error

def errorsOf (vs : List Validation) : List Value := vs.filterMap error?

def leading : List Validation → List Value
  | success value :: rest => value :: leading rest
  | _ => []

@[simp] theorem errorsOf_nil : errorsOf [] = [] := rfl

@[simp] theorem errorsOf_success (value : Value) (rest : List Validation) :
    errorsOf (success value :: rest) = errorsOf rest := rfl

@[simp] theorem errorsOf_failure (error : Value) (rest : List Validation) :
    errorsOf (failure error :: rest) = error :: errorsOf rest := rfl

/-- There are as many errors as failures. -/
theorem length_errorsOf (vs : List Validation) :
    (errorsOf vs).length = vs.countP isFailure := by
  induction vs with
  | nil => rfl
  | cons v rest ih =>
      cases v with
      | success value => simpa [List.countP_cons, isFailure, isSuccess] using ih
      | failure error => simpa [List.countP_cons, isFailure, isSuccess] using ih

theorem errorsOf_map_success (xs : List Value) : errorsOf (xs.map success) = [] := by
  induction xs with
  | nil => rfl
  | cons x rest ih => exact ih

theorem leading_map_success (xs : List Value) : leading (xs.map success) = xs := by
  induction xs with
  | nil => rfl
  | cons x rest ih => exact congrArg (x :: ·) ih

/-- A row without errors is one of successes. -/
theorem exists_map_success_of_errorsOf_nil {vs : List Validation} (h : errorsOf vs = []) :
    ∃ xs : List Value, vs = xs.map success := by
  induction vs with
  | nil => exact ⟨[], rfl⟩
  | cons v rest ih =>
      cases v with
      | success value =>
          obtain ⟨xs, rfl⟩ := ih h
          exact ⟨value :: xs, rfl⟩
      | failure error => simp at h

theorem errorsOf_ne_nil {vs : List Validation} (h : ∃ v ∈ vs, v.isFailure) : errorsOf vs ≠ [] := by
  intro hn
  obtain ⟨xs, rfl⟩ := exists_map_success_of_errorsOf_nil hn
  obtain ⟨v, hv, hf⟩ := h
  obtain ⟨x, _, rfl⟩ := List.mem_map.mp hv
  simp [isFailure, isSuccess] at hf

/-- With a failure in the row, not all items are in front of the first one. -/
theorem length_leading_lt {vs : List Validation} (h : errorsOf vs ≠ []) :
    (leading vs).length < vs.length := by
  induction vs with
  | nil => exact absurd rfl h
  | cons v rest ih =>
      cases v with
      | success value => exact Nat.succ_lt_succ (ih h)
      | failure error => exact Nat.succ_pos _

/-- Items that are all validations are the row of some validations. -/
theorem exists_map_toValue {items : List Value} (h : ∀ item ∈ items, (ofValue? item).isSome) :
    ∃ vs : List Validation, items = vs.map toValue := by
  induction items with
  | nil => exact ⟨[], rfl⟩
  | cons item rest ih =>
      obtain ⟨vs, hvs⟩ := ih fun i hi => h i (List.mem_cons_of_mem item hi)
      obtain ⟨v, hv⟩ := Option.isSome_iff_exists.mp (h item List.mem_cons_self)
      exact ⟨v :: vs, by rw [List.map_cons, toValue_eq_of_ofValue? hv, hvs]⟩

/-- Up to the first item that is no validation, a row consists of validations. -/
theorem exists_append_of_find? {items : List Value} {misfit : Value}
    (h : items.find? (fun item => (ofValue? item).isNone) = some misfit) :
    ofValue? misfit = none ∧
      ∃ (vs : List Validation) (rest : List Value), items = vs.map toValue ++ misfit :: rest := by
  obtain ⟨hm, front, rest, rfl, hfront⟩ := List.find?_eq_some_iff_append.mp h
  refine ⟨Option.isNone_iff_eq_none.mp hm, ?_⟩
  have hall : ∀ item ∈ front, (ofValue? item).isSome := by
    intro item hi
    simpa using hfront item hi
  obtain ⟨vs, rfl⟩ := exists_map_toValue hall
  exact ⟨vs, rest, rfl⟩

end Validation

namespace Gathered

open Validation

variable {α : Type} (feed : α → Value → Run α)

/-- What a row has come to whose values make `made` and whose errors are `found`. -/
def of (made : α) (found : List Value) : Gathered α :=
  if found.isEmpty then values made else errors found

@[simp] theorem of_nil (made : α) : of made [] = values made := rfl

@[simp] theorem of_cons (made : α) (error : Value) (found : List Value) :
    of made (error :: found) = errors (error :: found) := rfl

theorem of_ne_nil (made : α) {found : List Value} (h : found ≠ []) :
    of made found = errors found := by
  cases found with
  | nil => exact absurd rfl h
  | cons error rest => rfl

@[simp] theorem add_success_values (made : α) (value : Value) :
    add feed (values made) (.success value) = values <$> feed made value := rfl

@[simp] theorem add_success_errors (found : List Value) (value : Value) :
    add feed (errors found) (.success value) = pure (errors found) := rfl

@[simp] theorem add_failure_values (made : α) (error : Value) :
    add feed (values made) (.failure error) = pure (errors [error]) := rfl

@[simp] theorem add_failure_errors (found : List Value) (error : Value) :
    add feed (errors found) (.failure error) = pure (errors (found ++ [error])) := rfl

theorem add_misfit {item : Value} (h : ofValue? item = none) (gathered : Gathered α) :
    add feed gathered item = throw (.noAttribute item.typeName "ap") := by
  simp only [add, h]

/-- Once there are errors, nothing is fed any more. -/
theorem foldlM_add_errors (vs : List Validation) (found : List Value) :
    (vs.map toValue).foldlM (add feed) (errors found) = pure (errors (found ++ errorsOf vs)) := by
  induction vs generalizing found with
  | nil => simp
  | cons v rest ih =>
      cases v with
      | success value => simp [ih]
      | failure error => simp [ih]

/-- **A row of validations** feeds the values in front of its first failure, and comes to all its
errors if there are any. -/
theorem foldlM_add (vs : List Validation) (made : α) :
    (vs.map toValue).foldlM (add feed) (values made) = (do
      let made ← (leading vs).foldlM feed made
      return of made (errorsOf vs)) := by
  induction vs generalizing made with
  | nil => simp [leading]
  | cons v rest ih =>
      cases v with
      | success value => simp [leading, ih]
      | failure error => simp [leading, foldlM_add_errors]

/-- **A row with a misfit** stops at the first one, whatever follows. -/
theorem foldlM_add_misfit {misfit : Value} (hm : ofValue? misfit = none) (vs : List Validation)
    (rest : List Value) (made : α) :
    (vs.map toValue ++ misfit :: rest).foldlM (add feed) (values made) = (do
      let _ ← (leading vs).foldlM feed made
      throw (.noAttribute misfit.typeName "ap")) := by
  simp [List.foldlM_append, foldlM_add, add_misfit feed hm]

end Gathered

end Accrual
