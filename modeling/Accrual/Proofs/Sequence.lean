import Accrual.Proofs.Gathered
import Accrual.Sequence

/-!
# What a sequence comes to

`sequence_row` gives the validation of a row of any length: the tuple of all
values, or the tuple of all errors.  `sequence_misfit` gives the error of a row
with something else than validations in it.  `sequence_of_elements` joins them
for everything that can be gone through.
-/

namespace Accrual

open Validation

theorem foldlM_collect (xs made : List Value) : xs.foldlM collect made = pure (made ++ xs) := by
  induction xs generalizing made with
  | nil => simp
  | cons x rest ih => simp [collect, ih]

theorem foldlM_add_collect (vs : List Validation) :
    (vs.map toValue).foldlM (Gathered.add collect) (.values []) =
      pure (Gathered.of (leading vs) (errorsOf vs)) := by
  simp [Gathered.foldlM_add, foldlM_collect]

/-- What has elements is not absent, so that a sequence is made of its elements. -/
theorem sequence_eq {validations : Value} {items : List Value}
    (h : validations.elements? = some items) :
    sequence validations = (do
      return (← items.foldlM (Gathered.add collect) (.values [])).toValidation .tuple) := by
  have hp : validations.isAbsent = false := by
    cases validations <;> first | rfl | simp [Value.elements?, Value.recordFields?] at h
  simp [sequence, elementsOf, h, require_of_present hp]

/-- **A row of validations** has no effect, and comes to all its values or all its errors. -/
theorem sequence_row {validations : Value} {vs : List Validation}
    (h : validations.elements? = some (vs.map toValue)) :
    sequence validations =
      pure ((Gathered.of (leading vs) (errorsOf vs)).toValidation .tuple) := by
  rw [sequence_eq h, foldlM_add_collect]
  rfl

theorem sequence_misfit {validations misfit : Value} {items : List Value}
    (h : validations.elements? = some items)
    (hm : items.find? (fun item => (ofValue? item).isNone) = some misfit) :
    sequence validations = throw (.noAttribute misfit.typeName "ap") := by
  obtain ⟨hnone, vs, rest, rfl⟩ := exists_append_of_find? hm
  rw [sequence_eq h, Gathered.foldlM_add_misfit collect hnone]
  simp [foldlM_collect]

/-- **A sequence of any length.**  A row of successes comes to the tuple of all values; a row of
validations with a failure comes to the tuple of the errors of all failures, one for each; a row
with something else in it is refused for the first item that is no validation.  Payloads stay as
they are, and nothing in the store changes. -/
theorem sequence_of_elements {validations : Value} {items : List Value}
    (h : validations.elements? = some items) (s : Store) :
    (∀ xs : List Value, items = xs.map Value.success →
      sequence validations s = .ok (.success (.tuple xs)) s) ∧
    (∀ vs : List Validation, items = vs.map toValue → (∃ v ∈ vs, v.isFailure) →
      sequence validations s = .ok (.failure (.tuple (vs.filterMap error?))) s ∧
        (vs.filterMap error?).length = vs.countP isFailure) ∧
    (∀ misfit, items.find? (fun item => (ofValue? item).isNone) = some misfit →
      sequence validations s = .error (.noAttribute misfit.typeName "ap") s ∧
        (Error.noAttribute misfit.typeName "ap").kind = "AttributeError") := by
  refine ⟨?_, ?_, ?_⟩
  · intro xs hxs
    have hrow : validations.elements? = some ((xs.map Validation.success).map toValue) := by
      rw [h, hxs, List.map_map]
      rfl
    rw [sequence_row hrow, errorsOf_map_success, leading_map_success]
    rfl
  · intro vs hvs hf
    rw [sequence_row (hvs ▸ h), Gathered.of_ne_nil _ (errorsOf_ne_nil hf)]
    exact ⟨rfl, length_errorsOf vs⟩
  · intro misfit hm
    rw [sequence_misfit h hm]
    exact ⟨rfl, rfl⟩

/-- Payloads that are rows themselves, an empty row, and a row of misfits. -/
theorem sequence_of_elements_mixed :
    sequence (.list [.success (.tuple []), .failure (.tuple [.int 1]), .failure (.list [])]) {} =
        .ok (.failure (.tuple [.tuple [.int 1], .list []])) {} ∧
      sequence (.tuple []) {} = .ok (.success (.tuple [])) {} ∧
      sequence (.list [.failure (.int 1), .absent, .int 3]) {} =
        .error (.noAttribute "NoneType" "ap") {} := by
  have helements : ∀ items : List Value, (Value.list items).elements? = some items := fun _ => rfl
  refine ⟨?_, ?_, ?_⟩
  · exact ((sequence_of_elements (helements _) {}).2.1
      [.success (.tuple []), .failure (.tuple [.int 1]), .failure (.list [])] rfl
      ⟨.failure (.tuple [.int 1]), by simp, rfl⟩).1
  · exact (sequence_of_elements (show (Value.tuple []).elements? = some [] from rfl) {}).1 [] rfl
  · exact ((sequence_of_elements (helements _) {}).2.2 .absent rfl).1

end Accrual
