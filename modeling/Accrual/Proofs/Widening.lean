import Accrual.Interface.Operation
import Accrual.Proofs.Sending
import Accrual.Proofs.Stage

/-!
# Ways to build a stage

A stage is built from all its values at once, from a validation that is widened
value by value, or from a narrower stage that is.  All ways come to a stage with
the same values, and so to one of the same class, since the class goes by the
number of values.  Nothing is called on the way, and the store only counts the
stages (`widenAll_stage`).  An absent value stops the way at its step
(`widen_validation_absent`, `widen_stage_absent`), and there is no step beyond
eight (`widen_full`).
-/

namespace Accrual

def Store.counted (n : Nat) (s : Store) : Store := { s with nextId := s.nextId + n }

theorem Store.counted_counted (m n : Nat) (s : Store) :
    (s.counted m).counted n = s.counted (m + n) := by
  simp only [counted, Nat.add_assoc]

def Value.ArePresent (items : List Value) : Prop := ∀ item ∈ items, item.isAbsent = false

/-- Widens what was built so far, a validation or a stage, by one more value. -/
def Value.widen (call : Calls) (built next : Value) : Run Value :=
  built.send call Method.combine.label ⟨[next], []⟩

def Value.widenAll (call : Calls) (built : Value) (rest : List Value) : Run Value :=
  rest.foldlM (Value.widen call) built

theorem Value.widenAll_cons (call : Calls) (built next : Value) (rest : List Value) :
    built.widenAll call (next :: rest) =
      (built.widen call next >>= fun wider => wider.widenAll call rest) := List.foldlM_cons

theorem Value.widenAll_append (call : Calls) (built : Value) (front back : List Value) :
    built.widenAll call (front ++ back) =
      (built.widenAll call front >>= fun wide => wide.widenAll call back) := List.foldlM_append

def Error.arity (given : Nat) : Error :=
  .misuse ⟨.arityOutOfRange, "expected 2 to 8 validations, got " ++ toString given, "combine"⟩

namespace Stage

variable (call : Calls)

/-! ### All at once -/

theorem ofList_of_absent {items : List Value} {i : Nat}
    (h : items.findIdx? Value.isAbsent = some i) (s : Store) :
    ofList items s = .error (.nullArgument ("validation" ++ toString (i + 1)) "combine") s := by
  unfold ofList
  rw [h]
  rfl

theorem run_combine (items : List Value) :
    Operation.combine.run call ⟨items, []⟩ =
      (Accrual.combine items >>= fun stage => pure stage.toValue) := rfl

section AtOnce

variable {items : List Value} (s : Store)

theorem run_combine_of_arity (h : items.length < 2 ∨ 8 < items.length) :
    Operation.combine.run call ⟨items, []⟩ s = .error (.arity items.length) s := by
  have hout : ¬(minArity ≤ items.length ∧ items.length ≤ maxArity) := by
    simp only [minArity, maxArity]
    omega
  rw [run_combine, Accrual.combine, if_neg hout]
  rfl

variable (hmin : 2 ≤ items.length) (hmax : items.length ≤ 8)
include hmin hmax

theorem run_combine_of_absent {i : Nat} (h : items.findIdx? Value.isAbsent = some i) :
    Operation.combine.run call ⟨items, []⟩ s =
      .error (.nullArgument ("validation" ++ toString (i + 1)) "combine") s := by
  rw [run_combine, Accrual.combine, if_pos ⟨hmin, hmax⟩]
  exact Run.bind_of_error (ofList_of_absent h s) _

theorem run_combine_of_present (h : Value.ArePresent items) :
    Operation.combine.run call ⟨items, []⟩ s = .ok (.stage s.nextId items) (s.counted 1) := by
  rw [run_combine, Accrual.combine, if_pos ⟨hmin, hmax⟩]
  exact Run.bind_of_ok (ofList_of_present h s) _

end AtOnce

/-- **Too few or too many values**, and nothing else, are refused for their number. -/
theorem run_combine_arity_iff (items : List Value) (s : Store) :
    (∃ error t, Operation.combine.run call ⟨items, []⟩ s = .error error t ∧
      error.kind = "ArityError") ↔ items.length < 2 ∨ 8 < items.length := by
  constructor
  · rintro ⟨error, t, hrun, hkind⟩
    by_cases hin : 2 ≤ items.length ∧ items.length ≤ 8
    · cases hi : items.findIdx? Value.isAbsent with
      | none =>
          have hpresent := List.findIdx?_eq_none_iff.mp hi
          rw [run_combine_of_present call s hin.1 hin.2 hpresent] at hrun
          cases hrun
      | some i =>
          rw [run_combine_of_absent call s hin.1 hin.2 hi] at hrun
          cases hrun
          exact absurd hkind (show "NullArgumentError" ≠ "ArityError" by decide)
    · omega
  · intro h
    exact ⟨_, _, run_combine_of_arity call s h, rfl⟩

/-! ### One more value -/

theorem widen_validation (v : Validation) {other : Value} (h : other.isAbsent = false)
    (s : Store) :
    v.toValue.widen call other s = .ok (.stage s.nextId [v.toValue, other]) (s.counted 1) := by
  have hrow : Value.ArePresent [v.toValue, other] := by
    intro item hitem
    rcases List.mem_cons.mp hitem with rfl | hlast
    · cases v <;> rfl
    · rw [List.mem_singleton.mp hlast, h]
  have hrun : v.toValue.widen call other =
      (v.combine other >>= fun stage => pure stage.toValue) := by
    cases v <;> rfl
  rw [hrun, Validation.combine, require_of_present h, pure_bind]
  exact Run.bind_of_ok (ofList_of_present hrow s) _

theorem widen_validation_absent (v : Validation) (s : Store) :
    v.toValue.widen call .absent s = .error (.nullArgument "other" "combine") s := by
  cases v <;> rfl

section Widen

variable {items : List Value} (id : Nat)

theorem widen_of_lt (h : items.length < 8) (next : Value) :
    (Value.stage id items).widen call next =
      (ofList (items ++ [next]) >>= fun stage => pure stage.toValue) := by
  have hwidenable : (Stage.mk id items).isWidenable = true := decide_eq_true h
  have hfind : Method.find? call (.stage id items) .combine =
      some (Method.withOne "combine" ("v" ++ toString (items.length + 1)) fun v =>
        return (← (Stage.mk id items).combine v).toValue) := by
    simp only [Method.find?, Method.ofStage, hwidenable, if_true]
  rw [Value.widen, Method.send_of_find hfind]
  refine Method.withOne_of_take ?_ _
  simp only [Arguments.take, Arguments.assign, Arguments.byName?, Parameter.required]
  rfl

theorem widen_stage (h : items.length < 8) (hitems : Value.ArePresent items) {next : Value}
    (hnext : next.isAbsent = false) (s : Store) :
    (Value.stage id items).widen call next s =
      .ok (.stage s.nextId (items ++ [next])) (s.counted 1) := by
  have hrow : Value.ArePresent (items ++ [next]) := by
    intro item hitem
    rcases List.mem_append.mp hitem with hold | hlast
    · exact hitems item hold
    · rw [List.mem_singleton.mp hlast, hnext]
  rw [widen_of_lt call id h]
  exact Run.bind_of_ok (ofList_of_present hrow s) _

theorem widen_stage_absent (h : items.length < 8) (hitems : Value.ArePresent items) (s : Store) :
    (Value.stage id items).widen call .absent s =
      .error (.nullArgument ("validation" ++ toString (items.length + 1)) "combine") s := by
  have hfirst : (items ++ [Value.absent]).findIdx? Value.isAbsent = some items.length := by
    rw [List.findIdx?_append, List.findIdx?_eq_none_iff.mpr hitems]
    simp [Value.isAbsent]
  rw [widen_of_lt call id h]
  exact Run.bind_of_error (ofList_of_absent hfirst s) _

/-- **A stage of eight** has no way to be widened. -/
theorem widen_full (h : items.length = 8) (next : Value) :
    (Value.stage id items).widen call next = throw (.noAttribute "Builder8" "combine") := by
  have hwidenable : (Stage.mk id items).isWidenable = false := by
    rw [isWidenable, h]
    rfl
  have hfind : Method.find? call (.stage id items) .combine = none := by
    simp [Method.find?, Method.ofStage, hwidenable]
  have hname : (Value.stage id items).typeName = "Builder8" := by
    rw [Value.typeName, h]
    rfl
  have hmethod : (Value.stage id items).method call Method.combine.label =
      throw (.noAttribute "Builder8" "combine") := by
    have hbound : (Method.ofName? Method.combine.label).bind
        (Method.find? call (.stage id items)) = none := by
      rw [Method.ofName?_label]
      exact hfind
    have hfield : (Value.stage id items).field? Method.combine.label = none := rfl
    simp only [Value.method, hbound, hfield, hname]
    rfl
  rw [Value.widen, Value.send, hmethod, Run.throw_bind]

end Widen

/-! ### One value after the other -/

/-- **Widening value by value** comes to the stage of all the values, and calls nothing. -/
theorem widenAll_stage {items rest : List Value} (hlen : items.length + rest.length ≤ 8)
    (hitems : Value.ArePresent items) (hrest : Value.ArePresent rest) (id : Nat) (s : Store) :
    ∃ number, (Value.stage id items).widenAll call rest s =
      .ok (.stage number (items ++ rest)) (s.counted rest.length) := by
  induction rest generalizing items id s with
  | nil => exact ⟨id, by rw [List.append_nil]; rfl⟩
  | cons next rest ih =>
      rw [List.length_cons] at hlen
      obtain ⟨hnext, hrest⟩ := List.forall_mem_cons.mp hrest
      have hwider : Value.ArePresent (items ++ [next]) :=
        List.forall_mem_append.mpr ⟨hitems, List.forall_mem_singleton.mpr hnext⟩
      have hlen' : (items ++ [next]).length + rest.length ≤ 8 := by
        rw [List.length_append, List.length_singleton]
        omega
      obtain ⟨number, hrun⟩ := ih hlen' hwider hrest s.nextId (s.counted 1)
      refine ⟨number, ?_⟩
      have hstep := widen_stage call id (by omega) hitems hnext s
      rw [Store.counted_counted, List.append_assoc] at hrun
      rw [Value.widenAll_cons, Run.bind_of_ok hstep, hrun, List.length_cons, Nat.add_comm 1]
      rfl

theorem widenAll_validation (v : Validation) {rest : List Value} (hne : rest ≠ [])
    (hlen : rest.length < 8) (hrest : Value.ArePresent rest) (s : Store) :
    ∃ number, v.toValue.widenAll call rest s =
      .ok (.stage number (v.toValue :: rest)) (s.counted rest.length) := by
  obtain ⟨other, rest, rfl⟩ := List.exists_cons_of_ne_nil hne
  obtain ⟨hother, hrest⟩ := List.forall_mem_cons.mp hrest
  have hpair : Value.ArePresent [v.toValue, other] := by
    refine List.forall_mem_cons.mpr ⟨?_, List.forall_mem_singleton.mpr hother⟩
    cases v <;> rfl
  have hlen' : [v.toValue, other].length + rest.length ≤ 8 := by
    simp only [List.length_cons, List.length_nil] at hlen ⊢
    omega
  obtain ⟨number, hrun⟩ := widenAll_stage call hlen' hpair hrest s.nextId (s.counted 1)
  refine ⟨number, ?_⟩
  rw [Store.counted_counted] at hrun
  rw [Value.widenAll_cons, Run.bind_of_ok (widen_validation call v hother s), hrun,
    List.length_cons, Nat.add_comm 1]
  rfl

/-- A way stops at the step that fails, whatever was to follow. -/
theorem widenAll_of_error {built wide : Value} {front back : List Value} {next : Value}
    {s t u : Store} {error : Error} (hfront : built.widenAll call front s = .ok wide t)
    (hnext : wide.widen call next t = .error error u) :
    built.widenAll call (front ++ next :: back) s = .error error u := by
  rw [Value.widenAll_append, Run.bind_of_ok hfront, Value.widenAll_cons]
  exact Run.bind_of_error hnext _

/-- The name of the value that is asked for when so many are there already: the second one is the
other one of a pair. -/
def nextName (present : Nat) : String :=
  if present = 1 then "other" else "validation" ++ toString (present + 1)

theorem widenAll_validation_absent (v : Validation) {front : List Value} (hlen : front.length < 7)
    (hfront : Value.ArePresent front) (back : List Value) (s : Store) :
    v.toValue.widenAll call (front ++ .absent :: back) s =
      .error (.nullArgument (nextName (front.length + 1)) "combine") (s.counted front.length) := by
  by_cases hne : front = []
  · subst hne
    have hfront : v.toValue.widenAll call [] s = .ok v.toValue s := rfl
    exact widenAll_of_error call hfront (widen_validation_absent call v s)
  · obtain ⟨number, hrun⟩ := widenAll_validation call v hne (by omega) hfront s
    have hrow : Value.ArePresent (v.toValue :: front) :=
      List.forall_mem_cons.mpr ⟨by cases v <;> rfl, hfront⟩
    have hname : nextName (front.length + 1) =
        "validation" ++ toString ((v.toValue :: front).length + 1) := by
      have hpos : front.length ≠ 0 := fun h => hne (List.length_eq_zero_iff.mp h)
      rw [nextName, if_neg (by omega), List.length_cons]
    rw [hname]
    refine widenAll_of_error call hrun (widen_stage_absent call number ?_ hrow _)
    rw [List.length_cons]
    omega

theorem widenAll_stage_absent {items front : List Value} (hlen : items.length + front.length < 8)
    (hitems : Value.ArePresent items) (hfront : Value.ArePresent front) (back : List Value)
    (id : Nat) (s : Store) :
    (Value.stage id items).widenAll call (front ++ .absent :: back) s =
      .error (.nullArgument ("validation" ++ toString (items.length + front.length + 1)) "combine")
        (s.counted front.length) := by
  obtain ⟨number, hrun⟩ := widenAll_stage call (Nat.le_of_lt hlen) hitems hfront id s
  rw [← List.length_append] at hlen ⊢
  have hrow : Value.ArePresent (items ++ front) := List.forall_mem_append.mpr ⟨hitems, hfront⟩
  exact widenAll_of_error call hrun (widen_stage_absent call number hlen hrow _)

/-- **All ways to build a stage agree.**  Values that are combined at once are refused for their
number if there are fewer than two or more than eight of them, whatever they are, else for the first
absent one, and else come to the stage of just these values.  Where none is absent, a validation
that is widened by the others, or a stage of the first ones that is widened by the rest, comes to a
stage of the same values and so of the same class; nothing is called on the way.  An absent value
stops the way at its step, with what was built before it, and a stage of eight cannot be widened. -/
theorem ways_agree (call : Calls) (s : Store) :
    (∀ items : List Value,
      ((∃ error t, Operation.combine.run call ⟨items, []⟩ s = .error error t ∧
        error.kind = "ArityError") ↔ items.length < 2 ∨ 8 < items.length) ∧
      (items.length < 2 ∨ 8 < items.length →
        Operation.combine.run call ⟨items, []⟩ s = .error (.arity items.length) s) ∧
      (2 ≤ items.length → items.length ≤ 8 →
        (∀ i, items.findIdx? Value.isAbsent = some i →
          Operation.combine.run call ⟨items, []⟩ s =
            .error (.nullArgument ("validation" ++ toString (i + 1)) "combine") s) ∧
        (Value.ArePresent items →
          Operation.combine.run call ⟨items, []⟩ s = .ok (.stage s.nextId items) (s.counted 1) ∧
          ∀ number, (Value.stage number items).typeName = "Builder" ++ toString items.length))) ∧
    (∀ (v : Validation) (rest : List Value), rest ≠ [] → rest.length < 8 →
      Value.ArePresent rest →
      ∃ number, v.toValue.widenAll call rest s =
        .ok (.stage number (v.toValue :: rest)) (s.counted rest.length)) ∧
    (∀ items rest : List Value, 2 ≤ items.length → items.length + rest.length ≤ 8 →
      Value.ArePresent items → Value.ArePresent rest →
      ∃ number, (Operation.combine.run call ⟨items, []⟩ >>= fun built =>
          built.widenAll call rest) s =
        .ok (.stage number (items ++ rest)) (s.counted (rest.length + 1))) ∧
    (∀ (v : Validation) (front back : List Value), front.length < 7 → Value.ArePresent front →
      v.toValue.widenAll call (front ++ .absent :: back) s =
        .error (.nullArgument (nextName (front.length + 1)) "combine")
          (s.counted front.length)) ∧
    (∀ items front back : List Value, 2 ≤ items.length → items.length + front.length < 8 →
      Value.ArePresent items → Value.ArePresent front →
      (Operation.combine.run call ⟨items, []⟩ >>= fun built =>
          built.widenAll call (front ++ .absent :: back)) s =
        .error (.nullArgument ("validation" ++ toString (items.length + front.length + 1))
          "combine") (s.counted (front.length + 1))) ∧
    ∀ (id : Nat) (items : List Value) (next : Value), items.length = 8 →
      (Value.stage id items).widen call next s = .error (.noAttribute "Builder8" "combine") s := by
  refine ⟨fun items => ⟨run_combine_arity_iff call items s, run_combine_of_arity call s, ?_⟩,
    ?_, ?_, ?_, ?_, ?_⟩
  · intro hmin hmax
    refine ⟨fun i hi => run_combine_of_absent call s hmin hmax hi, fun hpresent => ?_⟩
    exact ⟨run_combine_of_present call s hmin hmax hpresent, fun number => rfl⟩
  · intro v rest hne hlen hrest
    exact widenAll_validation call v hne hlen hrest s
  · intro items rest hmin hlen hitems hrest
    obtain ⟨number, hrun⟩ := widenAll_stage call hlen hitems hrest s.nextId (s.counted 1)
    refine ⟨number, ?_⟩
    have hmax : items.length ≤ 8 := by omega
    rw [Run.bind_of_ok (run_combine_of_present call s hmin hmax hitems), hrun,
      Store.counted_counted, Nat.add_comm 1]
  · intro v front back hlen hfront
    exact widenAll_validation_absent call v hlen hfront back s
  · intro items front back hmin hlen hitems hfront
    have hmax : items.length ≤ 8 := by omega
    rw [Run.bind_of_ok (run_combine_of_present call s hmin hmax hitems),
      widenAll_stage_absent call hlen hitems hfront, Store.counted_counted, Nat.add_comm 1]
  · intro id items next h
    rw [widen_full call id h]
    rfl

/-- A failure, a number and a text: combined at once, widened from the failure, and widened from the
pair, in a store in which two stages were made before; and a third value that is absent. -/
theorem ways_agree_triple :
    let call : Calls := fun r arguments => do
      Run.noteCall r.name arguments
      return .absent
    let v := Validation.failure (.text "bad")
    let s : Store := { nextId := 2 }
    let rest : List Value := [.int 1, .text "x"]
    rest ≠ [] ∧ rest.length < 8 ∧ Value.ArePresent rest ∧
      Value.ArePresent (v.toValue :: rest) ∧
      Operation.combine.run call ⟨v.toValue :: rest, []⟩ s =
        .ok (.stage 2 (v.toValue :: rest)) { nextId := 3 } ∧
      (∃ number, v.toValue.widenAll call rest s =
        .ok (.stage number (v.toValue :: rest)) { nextId := 4 }) ∧
      (∃ number, (Operation.combine.run call ⟨[v.toValue, .int 1], []⟩ >>= fun built =>
        built.widenAll call [.text "x"]) s =
          .ok (.stage number (v.toValue :: rest)) { nextId := 4 }) ∧
      v.toValue.widenAll call [.int 1, .absent, .text "x"] s =
        .error (.nullArgument "validation3" "combine") { nextId := 3 } := by
  intro call v s rest
  have hpresent : Value.ArePresent rest := by
    intro item hitem
    simp only [rest, List.mem_cons, List.not_mem_nil, or_false] at hitem
    rcases hitem with rfl | rfl <;> rfl
  have hrow : Value.ArePresent (v.toValue :: rest) := List.forall_mem_cons.mpr ⟨rfl, hpresent⟩
  have hone : Value.ArePresent [.int 1] := List.forall_mem_singleton.mpr rfl
  have hlast : Value.ArePresent [.text "x"] := List.forall_mem_singleton.mpr rfl
  have hpair : Value.ArePresent [v.toValue, .int 1] := List.forall_mem_cons.mpr ⟨rfl, hone⟩
  obtain ⟨hitems, hchain, hwiden, habsent, -, -⟩ := ways_agree call s
  obtain ⟨-, -, hin⟩ := hitems (v.toValue :: rest)
  obtain ⟨-, hbuilt⟩ := hin (by decide) (by decide)
  have hne : rest ≠ [] := List.cons_ne_nil _ _
  exact ⟨hne, by decide, hpresent, hrow, (hbuilt hrow).1, hchain v rest hne (by decide) hpresent,
    hwiden [v.toValue, .int 1] [.text "x"] (by decide) (by decide) hpair hlast,
    habsent v [.int 1] [.text "x"] (by decide) hone⟩

end Stage

end Accrual
