import Accrual.Value.Text

/-!
# Which values can be written out

A value can be written out if none of its numbers has more than 4300 digits
(`Value.isWritable`).  A collection can be if all that it holds can
(`areWritable_iff`, `areEntriesWritable_iff`), and a row of values is either
written throughout or refused (`mapM_written`).
-/

namespace Accrual.Value

theorem written_eq {α : Type} (text : Value → α) (v : Value) :
    v.written text = if v.isWritable then .ok (text v) else .error .numberTooLong := by
  unfold written checkWritable
  split <;> rfl

theorem areWritable_iff {vs : List Value} :
    areWritable vs = true ↔ ∀ v ∈ vs, v.isWritable = true := by
  induction vs with
  | nil => exact iff_of_true rfl (List.forall_mem_nil _)
  | cons v rest ih => rw [areWritable, Bool.and_eq_true, ih, List.forall_mem_cons]

theorem areEntriesWritable_iff {entries : Entries} : areEntriesWritable entries = true ↔
    ∀ e ∈ entries, e.1.isWritable = true ∧ e.2.isWritable = true := by
  induction entries with
  | nil => exact iff_of_true rfl (List.forall_mem_nil _)
  | cons e rest ih =>
      obtain ⟨key, v⟩ := e
      rw [areEntriesWritable, Bool.and_eq_true, Bool.and_eq_true, ih, List.forall_mem_cons]

/-- **A row is written throughout**, or it is refused. -/
theorem mapM_written {α : Type} (text : Value → α) (vs : List Value) :
    vs.mapM (written text) =
      if areWritable vs then .ok (vs.map text) else .error .numberTooLong := by
  induction vs with
  | nil => rfl
  | cons v rest ih =>
      rw [List.mapM_cons, ih, written_eq, areWritable]
      cases v.isWritable <;> cases areWritable rest <;> rfl

/-- Numbers of up to twenty digits can be written out. -/
theorem isWritable_int {n : Int} (h : n.natAbs < Nat.pow 10 20) : (int n).isWritable = true := by
  have hdigits : 20 ≤ Error.maxDigits := by decide
  unfold isWritable digitsBound
  generalize Error.maxDigits = digits at hdigits ⊢
  exact decide_eq_true (Nat.lt_of_lt_of_le h (Nat.pow_le_pow_right (by decide) hdigits))

end Accrual.Value
