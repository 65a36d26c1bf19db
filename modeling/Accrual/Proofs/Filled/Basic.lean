import Accrual.Value

/-!
# Filled values

A validation is hollow if its payload is absent.  A value is **filled** if no
hollow validation is inside it, at any depth and in any kind of container
(`Value.Inside`).  `filled_iff` says this part by part, and the lemmas after it
say it for each kind of value.
-/

namespace Accrual

namespace Value

/-! ### Inside a value -/

def parts : Value → List Value
  | list items | tuple items | stage _ items => items
  | dictionary entries => entries.flatMap fun e => [e.1, e.2]
  | success v | failure v | ok v | err v => [v]
  | logger context renderer threshold =>
      renderer :: threshold :: context.flatMap fun e => [e.1, e.2]
  | consoleRenderer output colors _ => [output, colors]
  | jsonRenderer output => [output]
  | entry _ _ event context => event :: context.flatMap fun e => [e.1, e.2]
  | _ => []

/-- A value is inside itself, and whatever is inside a part of a value is inside the value. -/
inductive Inside : Value → Value → Prop
  | refl (v : Value) : Inside v v
  | part {u w v : Value} : w ∈ v.parts → Inside u w → Inside u v

def IsHollow (v : Value) : Prop := v = success absent ∨ v = failure absent

/-- No validation inside is hollow. -/
def Filled (v : Value) : Prop := ∀ u, Inside u v → ¬ u.IsHollow

theorem filled_iff {v : Value} : v.Filled ↔ ¬ v.IsHollow ∧ ∀ w ∈ v.parts, w.Filled := by
  constructor
  · intro h
    exact ⟨h v (.refl v), fun w hw u hu => h u (.part hw hu)⟩
  · rintro ⟨hv, hparts⟩ u hu
    cases hu with
    | refl => exact hv
    | part hw hu => exact hparts _ hw u hu

end Value

open Value

def FilledRow (vs : List Value) : Prop := ∀ v ∈ vs, v.Filled

theorem filledRow_nil : FilledRow [] := by simp [FilledRow]

theorem filledRow_cons {v : Value} {vs : List Value} :
    FilledRow (v :: vs) ↔ v.Filled ∧ FilledRow vs := List.forall_mem_cons

theorem filledRow_single {v : Value} (h : v.Filled) : FilledRow [v] :=
  List.forall_mem_singleton.mpr h

theorem FilledRow.append {vs ws : List Value} (hv : FilledRow vs) (hw : FilledRow ws) :
    FilledRow (vs ++ ws) :=
  List.forall_mem_append.mpr ⟨hv, hw⟩

theorem FilledRow.cons {v : Value} {vs : List Value} (hv : v.Filled) (h : FilledRow vs) :
    FilledRow (v :: vs) :=
  filledRow_cons.mpr ⟨hv, h⟩

theorem FilledRow.head {v : Value} {vs : List Value} (h : FilledRow (v :: vs)) : v.Filled :=
  (filledRow_cons.mp h).1

theorem FilledRow.tail {v : Value} {vs : List Value} (h : FilledRow (v :: vs)) : FilledRow vs :=
  (filledRow_cons.mp h).2

/-- What is found under a key stands in the list. -/
theorem mem_of_lookup {α β : Type} [BEq α] [LawfulBEq α] {l : List (α × β)} {key : α} {b : β}
    (h : l.lookup key = some b) : (key, b) ∈ l := by
  obtain ⟨front, rest, rfl, _⟩ := List.lookup_eq_some_iff.mp h
  simp

def Entries.Filled (entries : Entries) : Prop := ∀ e ∈ entries, e.1.Filled ∧ e.2.Filled

theorem Entries.filledRow_flatMap {entries : Entries} :
    FilledRow (entries.flatMap fun e => [e.1, e.2]) ↔ Entries.Filled entries := by
  simp only [FilledRow, List.mem_flatMap, List.mem_cons, List.not_mem_nil, or_false,
    forall_exists_index, and_imp, Entries.Filled]
  constructor
  · intro h e he
    exact ⟨h _ e he (.inl rfl), h _ e he (.inr rfl)⟩
  · rintro h w e he (rfl | rfl)
    · exact (h e he).1
    · exact (h e he).2

namespace Value

/-! ### Filled values of each kind -/

/-- A value that is not hollow itself is filled if the row of its parts is. -/
theorem filled_iff_row {v : Value} (row : List Value) (hp : v.parts = row) (hv : ¬ v.IsHollow) :
    v.Filled ↔ FilledRow row := by
  rw [filled_iff, hp]
  exact and_iff_right hv

/-- A validation is hollow only if its payload is absent. -/
theorem filled_iff_payload {v payload : Value} (hp : v.parts = [payload])
    (hv : v.IsHollow ↔ payload = absent) :
    v.Filled ↔ payload.isAbsent = false ∧ payload.Filled := by
  have hpresent : payload.isAbsent = false ↔ payload ≠ absent := by
    cases payload <;> simp [isAbsent]
  rw [filled_iff, hp, hv, hpresent, List.forall_mem_singleton]

@[simp] theorem filled_success {v : Value} :
    (success v).Filled ↔ v.isAbsent = false ∧ v.Filled :=
  filled_iff_payload rfl (by simp [IsHollow])

@[simp] theorem filled_failure {v : Value} :
    (failure v).Filled ↔ v.isAbsent = false ∧ v.Filled :=
  filled_iff_payload rfl (by simp [IsHollow])

@[simp] theorem filled_ok {v : Value} : (ok v).Filled ↔ v.Filled :=
  (filled_iff_row [v] rfl (by simp [IsHollow])).trans List.forall_mem_singleton

@[simp] theorem filled_err {v : Value} : (err v).Filled ↔ v.Filled :=
  (filled_iff_row [v] rfl (by simp [IsHollow])).trans List.forall_mem_singleton

@[simp] theorem filled_list {items : List Value} : (list items).Filled ↔ FilledRow items :=
  filled_iff_row items rfl (by simp [IsHollow])

@[simp] theorem filled_tuple {items : List Value} : (tuple items).Filled ↔ FilledRow items :=
  filled_iff_row items rfl (by simp [IsHollow])

@[simp] theorem filled_stage {id : Nat} {items : List Value} :
    (stage id items).Filled ↔ FilledRow items :=
  filled_iff_row items rfl (by simp [IsHollow])

@[simp] theorem filled_dictionary {entries : Entries} :
    (dictionary entries).Filled ↔ Entries.Filled entries :=
  (filled_iff_row _ rfl (by simp [IsHollow])).trans Entries.filledRow_flatMap

@[simp] theorem filled_logger {context : Entries} {renderer threshold : Value} :
    (logger context renderer threshold).Filled ↔
      renderer.Filled ∧ threshold.Filled ∧ Entries.Filled context := by
  rw [filled_iff_row (renderer :: threshold :: context.flatMap fun e => [e.1, e.2]) rfl
      (by simp [IsHollow]), filledRow_cons, filledRow_cons, Entries.filledRow_flatMap]

@[simp] theorem filled_consoleRenderer {output colors : Value} {showTimestamp : Bool} :
    (consoleRenderer output colors showTimestamp).Filled ↔ output.Filled ∧ colors.Filled := by
  rw [filled_iff_row [output, colors] rfl (by simp [IsHollow]), filledRow_cons, FilledRow,
    List.forall_mem_singleton]

@[simp] theorem filled_jsonRenderer {output : Value} :
    (jsonRenderer output).Filled ↔ output.Filled :=
  (filled_iff_row [output] rfl (by simp [IsHollow])).trans List.forall_mem_singleton

@[simp] theorem filled_entry {time : Seconds} {level : String} {event : Value}
    {context : Entries} :
    (entry time level event context).Filled ↔ event.Filled ∧ Entries.Filled context := by
  rw [filled_iff_row (event :: context.flatMap fun e => [e.1, e.2]) rfl (by simp [IsHollow]),
    filledRow_cons, Entries.filledRow_flatMap]

/-- A value that holds no others, and is none of the two validations, is filled. -/
theorem filled_of_parts_nil {v : Value} (h : v.parts = []) : v.Filled := by
  rw [filled_iff, h]
  refine ⟨?_, by simp⟩
  rintro (rfl | rfl) <;> cases h

@[simp] theorem filled_absent : absent.Filled := filled_of_parts_nil rfl

@[simp] theorem filled_bool (b : Bool) : (bool b).Filled := filled_of_parts_nil rfl

@[simp] theorem filled_int (n : Int) : (int n).Filled := filled_of_parts_nil rfl

@[simp] theorem filled_text (s : String) : (text s).Filled := filled_of_parts_nil rfl

@[simp] theorem filled_code (c : Fault.Code) : (code c).Filled := filled_of_parts_nil rfl

@[simp] theorem filled_stream (s : Stream) : (stream s).Filled := filled_of_parts_nil rfl

@[simp] theorem filled_function (f : FunctionRef) : (function f).Filled := filled_of_parts_nil rfl

end Value

end Accrual
