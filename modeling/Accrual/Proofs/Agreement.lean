import Accrual.Proofs.Sequence
import Accrual.Proofs.Stage

/-!
# Stages and sequences agree

A stage hands values to a function one at a time, a sequence puts them into a
tuple first.  Both come from the same row (`Gathered.foldlM_add`), so that
applying a stage of a row is the same run as mapping over the sequence of the
row, whatever the function does.
-/

namespace Accrual

open Validation

/-- Mapping over the tuple of all values is one call on that tuple. -/
theorem map_success_function (call : Calls) (g : FunctionRef) (value : Value) :
    (success value).map call (.function g) = (do
      let result ← call g [value]
      require result "value" "success"
      return success result) := by
  have hg : (Value.function g).isAbsent = false := rfl
  simp [map, require_of_present hg, invoke, succeed]

theorem map_failure_function (call : Calls) (g : FunctionRef) (error : Value) :
    (failure error).map call (.function g) = pure (failure error) := by
  have hg : (Value.function g).isAbsent = false := rfl
  simp [map, require_of_present hg]

namespace Stage

variable (call : Calls) {stage : Stage} {vs : List Validation}

/-- **Applying a stage is mapping over a sequence**, as runs, if `g` does with a tuple what `f` does
with its entries. -/
theorem apply_eq_sequence_map {f g : FunctionRef} (hg : ∀ xs, call g [.tuple xs] = call f xs)
    (hs : stage.items = vs.map Validation.toValue) (hv : vs ≠ []) :
    stage.apply call (.function f) = (do
      let v ← sequence (.list (vs.map Validation.toValue))
      v.map call (.function g)) := by
  rw [sequence_row rfl, pure_bind]
  by_cases he : errorsOf vs = []
  · obtain ⟨xs, rfl⟩ := exists_map_success_of_errorsOf_nil he
    have hx : xs ≠ [] := by
      rintro rfl
      exact hv rfl
    rw [apply_successes call hx hs, he, leading_map_success, Gathered.of_nil,
      Gathered.toValidation, map_success_function, hg]
  · rw [apply_failures call rfl hs he (.inl rfl), Gathered.of_ne_nil _ he, Gathered.toValidation,
      map_failure_function]

/-- Collecting all arguments in a tuple gives the sequence itself. -/
theorem apply_tuple_eq_sequence {h : FunctionRef} (hh : ∀ xs, call h xs = pure (.tuple xs))
    (hs : stage.items = vs.map Validation.toValue) (hv : vs ≠ []) :
    stage.apply call (.function h) = sequence (.list (vs.map Validation.toValue)) := by
  rw [sequence_row rfl]
  by_cases he : errorsOf vs = []
  · obtain ⟨xs, rfl⟩ := exists_map_success_of_errorsOf_nil he
    have hx : xs ≠ [] := by
      rintro rfl
      exact hv rfl
    have hp : (Value.tuple xs).isAbsent = false := rfl
    rw [apply_successes call hx hs, he, leading_map_success, Gathered.of_nil,
      Gathered.toValidation, hh, pure_bind, require_of_present hp, pure_bind]
  · rw [apply_failures call rfl hs he (.inl rfl), Gathered.of_ne_nil _ he, Gathered.toValidation]

/-- **The stage of two to eight validations and their sequence agree.**  Combining them takes a
number for the stage and does nothing else.  Applying the stage to a function is the same run as
mapping the function of a tuple over the sequence: the same calls in every store, and the same
result or error after them.  Applying it to the function that collects its arguments in a tuple is
the same run as the sequence. -/
theorem apply_combine_agrees (hmin : 2 ≤ vs.length) (hmax : vs.length ≤ 8) (s : Store) :
    ∃ stage, Accrual.combine (vs.map Validation.toValue) s =
        .ok stage { s with nextId := s.nextId + 1 } ∧
      (∀ f g : FunctionRef, (∀ xs, call g [.tuple xs] = call f xs) →
        stage.apply call (.function f) = (do
          let v ← sequence (.list (vs.map Validation.toValue))
          v.map call (.function g))) ∧
      (∀ h : FunctionRef, (∀ xs, call h xs = pure (.tuple xs)) →
        stage.apply call (.function h) = sequence (.list (vs.map Validation.toValue))) := by
  have hv : vs ≠ [] := by
    rintro rfl
    exact absurd hmin (by decide)
  refine ⟨⟨s.nextId, vs.map Validation.toValue⟩, combine_row hmin hmax s, ?_, ?_⟩
  · intro f g hg
    exact apply_eq_sequence_map call hg rfl hv
  · intro h hh
    exact apply_tuple_eq_sequence call hh rfl hv

/-- A function that counts its arguments, one that counts the entries of a tuple, and one that
collects its arguments, on a pair of successes. -/
theorem apply_combine_agrees_pair :
    let call : Calls := fun f xs =>
      match f.id, xs with
      | 0, xs => pure (.int xs.length)
      | 1, [.tuple xs] => pure (.int xs.length)
      | _, xs => pure (.tuple xs)
    let row : List Value := [.success (.text "a"), .success (.int 2)]
    2 ≤ row.length ∧ row.length ≤ 8 ∧
      ∃ stage, Accrual.combine row {} = .ok stage { nextId := 1 } ∧
        stage.apply call (.function ⟨0, "f", false⟩) = (do
          let v ← sequence (.list row)
          v.map call (.function ⟨1, "g", false⟩)) ∧
        stage.apply call (.function ⟨2, "h", false⟩) = sequence (.list row) := by
  intro call row
  obtain ⟨stage, hstage, hmap, htuple⟩ := apply_combine_agrees call
    (show 2 ≤ [success (.text "a"), success (.int 2)].length by decide) (by decide) {}
  exact ⟨by decide, by decide, stage, hstage, hmap _ _ fun _ => rfl, htuple _ fun _ => rfl⟩

end Stage

end Accrual
