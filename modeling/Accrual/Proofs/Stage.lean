import Accrual.Proofs.Gathered
import Accrual.Stage

/-!
# What a stage comes to

A stage hands the values of its row to a function one at a time.  The function
is called when the last of them arrives, so that a single failure keeps it from
being called at all; and it is first looked at when the first value arrives, so
that a failure in front keeps even an unfit function from being found out.

* `apply_successes`: one call with all values.
* `apply_failures`: all errors, and no call.
* `apply_unfit`: a first value for something that is no function.
* `apply_of_builtFrom`: the three together, for every stage of two to eight
  validations, however it was built.
-/

namespace Accrual

open Validation

namespace Curried

variable (call : Calls)

/-- A function waits as long as arguments are missing. -/
theorem foldlM_feed_of_lt {f : Value} (hf : f.isCallable) :
    ∀ (xs : List Value) (missing : Nat) (collected : List Value), xs.length < missing →
      xs.foldlM (feed call) (waiting f missing collected) =
        pure (waiting f (missing - xs.length) (collected ++ xs)) := by
  intro xs
  induction xs with
  | nil => intro missing collected _; simp
  | cons x rest ih =>
      intro missing collected h
      rw [List.length_cons] at h
      have hm : ¬ missing ≤ 1 := by omega
      have hstep : feed call (waiting f missing collected) x =
          pure (waiting f (missing - 1) (collected ++ [x])) := by
        simp only [feed, if_neg hm, if_pos hf]
      rw [List.foldlM_cons, hstep, pure_bind, ih (missing - 1) (collected ++ [x]) (by omega),
        List.append_assoc, List.singleton_append, List.length_cons]
      congr 2
      omega

/-- The last argument calls the function with everything collected. -/
theorem foldlM_feed_all {f : Value} (hf : f.isCallable) {xs : List Value} (hx : xs ≠ []) :
    xs.foldlM (feed call) (waiting f xs.length []) = finish call f xs := by
  obtain ⟨front, last, rfl⟩ : ∃ front last, xs = front ++ [last] :=
    ⟨_, _, (List.dropLast_concat_getLast hx).symm⟩
  have hlen : (front ++ [last]).length - front.length = 1 := by simp
  rw [List.foldlM_append, foldlM_feed_of_lt call hf front _ [] (by simp), pure_bind, hlen,
    List.foldlM_cons, feed, if_pos (Nat.le_refl 1), List.nil_append]
  exact bind_pure _

/-- A first argument finds out that there is nothing to apply, if more are to come. -/
theorem foldlM_feed_unfit {f : Value} (hf : f.isCallable = false) (x : Value) (rest : List Value)
    {missing : Nat} (hm : 2 ≤ missing) :
    (x :: rest).foldlM (feed call) (waiting f missing []) = throw .nothingToApply := by
  have hstep : feed call (waiting f missing []) x = throw .nothingToApply := by
    have hm' : ¬ missing ≤ 1 := by omega
    simp only [feed, if_neg hm', hf]
    rfl
  rw [List.foldlM_cons, hstep, Run.throw_bind]

end Curried

namespace Stage

variable (call : Calls) {f : Value} {stage : Stage} {vs : List Validation}

/-- A stage feeds the values in front of its first failure. -/
theorem apply_eq (hf : f.isAbsent = false) (hs : stage.items = vs.map Validation.toValue) :
    stage.apply call f = (do
      let curried ← (leading vs).foldlM (Curried.feed call) (.waiting f vs.length [])
      return (Gathered.of curried (errorsOf vs)).toValidation Curried.value) := by
  simp [apply, require_of_present hf, hs, Gathered.foldlM_add]

/-- **One call with all values**, in order, if no validation is a failure. -/
theorem apply_successes {function : FunctionRef} {xs : List Value} (hx : xs ≠ [])
    (hs : stage.items = (xs.map success).map Validation.toValue) :
    stage.apply call (.function function) = (do
      let result ← call function xs
      require result "value" "success"
      return success result) := by
  rw [apply_eq call rfl hs, leading_map_success, errorsOf_map_success, List.length_map,
    Curried.foldlM_feed_all call rfl hx]
  simp [Curried.finish, invoke, Gathered.toValidation, Curried.value]

/-- **All errors and no call**, if some validation is a failure and no value comes in front of it
that an unfit function would be asked to take. -/
theorem apply_failures (hf : f.isAbsent = false) (hs : stage.items = vs.map Validation.toValue)
    (he : errorsOf vs ≠ []) (hfit : f.isCallable ∨ leading vs = []) :
    stage.apply call f = pure (failure (.tuple (errorsOf vs))) := by
  have hfeed : ∃ curried, (leading vs).foldlM (Curried.feed call) (.waiting f vs.length []) =
      pure curried := by
    rcases hfit with hc | hl
    · exact ⟨_, Curried.foldlM_feed_of_lt call hc _ _ _ (length_leading_lt he)⟩
    · exact ⟨_, by rw [hl, List.foldlM_nil]⟩
  obtain ⟨curried, hcurried⟩ := hfeed
  rw [apply_eq call hf hs, hcurried, pure_bind, Gathered.of_ne_nil _ he]
  rfl

/-- **A first value for no function** is refused, whatever validations follow. -/
theorem apply_unfit (hf : f.isAbsent = false) (hc : f.isCallable = false)
    (hs : stage.items = vs.map Validation.toValue) (hl : leading vs ≠ [])
    (h2 : minArity ≤ vs.length) : stage.apply call f = throw .nothingToApply := by
  obtain ⟨x, rest, hx⟩ := List.exists_cons_of_ne_nil hl
  rw [apply_eq call hf hs, hx, Curried.foldlM_feed_unfit call hc x rest h2, Run.throw_bind]

/-! ### Ways to build a stage -/

/-- A stage that was built from a row of items: as a stage of that arity at once, from two
validations, or from a narrower stage by widening it. -/
inductive BuiltFrom : List Value → Stage → Prop
  | combined {items : List Value} {stage : Stage} {s t : Store} :
      Accrual.combine items s = .ok stage t → BuiltFrom items stage
  | constructed {items : List Value} {stage : Stage} {s t : Store} :
      minArity ≤ items.length → items.length ≤ maxArity → ofList items s = .ok stage t →
        BuiltFrom items stage
  | paired {v : Validation} {other : Value} {stage : Stage} {s t : Store} :
      v.combine other s = .ok stage t → BuiltFrom [v.toValue, other] stage
  | widened {items : List Value} {narrow stage : Stage} {next : Value} {s t : Store} :
      BuiltFrom items narrow → narrow.isWidenable → narrow.combine next s = .ok stage t →
        BuiltFrom (items ++ [next]) stage

theorem items_of_ofList {items : List Value} {s t : Store} (h : ofList items s = .ok stage t) :
    stage.items = items := by
  unfold ofList at h
  cases hfind : items.findIdx? Value.isAbsent with
  | none =>
      rw [hfind] at h
      cases h
      rfl
  | some i =>
      rw [hfind] at h
      cases h

/-- A stage of items that are all present takes the next number, and does nothing else. -/
theorem ofList_of_present {items : List Value} (h : ∀ item ∈ items, item.isAbsent = false)
    (s : Store) : ofList items s = .ok ⟨s.nextId, items⟩ { s with nextId := s.nextId + 1 } := by
  unfold ofList
  rw [List.findIdx?_eq_none_iff.mpr h]
  rfl

/-- **Combining two to eight validations** makes the stage of them. -/
theorem combine_row (hmin : 2 ≤ vs.length) (hmax : vs.length ≤ 8) (s : Store) :
    Accrual.combine (vs.map Validation.toValue) s =
      .ok ⟨s.nextId, vs.map Validation.toValue⟩ { s with nextId := s.nextId + 1 } := by
  have hlen : minArity ≤ (vs.map Validation.toValue).length ∧
      (vs.map Validation.toValue).length ≤ maxArity := by
    rw [List.length_map]
    exact ⟨hmin, hmax⟩
  rw [Accrual.combine, if_pos hlen]
  refine ofList_of_present (fun item hi => ?_) s
  obtain ⟨v, _, rfl⟩ := List.mem_map.mp hi
  cases v <;> rfl

theorem ofList_of_combine {items : List Value} {s t : Store}
    (h : Accrual.combine items s = .ok stage t) :
    minArity ≤ items.length ∧ items.length ≤ maxArity ∧ ofList items s = .ok stage t := by
  unfold Accrual.combine at h
  split at h
  next hlen => exact ⟨hlen.1, hlen.2, h⟩
  next => cases h

/-- **A stage holds the row it was built from**, and no stage is narrower than two or wider than
eight. -/
theorem BuiltFrom.holds {items : List Value} (h : BuiltFrom items stage) :
    stage.items = items ∧ minArity ≤ items.length ∧ items.length ≤ maxArity := by
  induction h with
  | combined h =>
      obtain ⟨hmin, hmax, hlist⟩ := ofList_of_combine h
      exact ⟨items_of_ofList hlist, hmin, hmax⟩
  | constructed hmin hmax h => exact ⟨items_of_ofList h, hmin, hmax⟩
  | paired h =>
      obtain ⟨_, _, _, hlist⟩ := Run.bind_ok h
      exact ⟨items_of_ofList hlist, Nat.le_refl 2, Nat.le_add_left 2 6⟩
  | widened _ hw h ih =>
      obtain ⟨hi, hmin, hmax⟩ := ih
      have hlt := of_decide_eq_true hw
      rw [hi] at hlt
      refine ⟨?_, ?_, ?_⟩
      · rw [items_of_ofList h, hi]
      · rw [List.length_append]
        omega
      · rw [List.length_append, List.length_singleton]
        exact hlt

/-- How a call turns out whose result has to be present. -/
theorem bind_require_success (run : Run Value) (s : Store) :
    (do let result ← run; require result "value" "success"; return success result : Run _) s =
      match run s with
      | .ok result t =>
          if result.isAbsent then .error (.nullArgument "value" "success") t
          else .ok (success result) t
      | .error error t => .error error t := by
  change EStateM.bind run _ s = _
  unfold EStateM.bind
  cases run s with
  | error error t => rfl
  | ok result t =>
      cases ha : result.isAbsent with
      | true => simp [require, ha]; rfl
      | false => simp [ha]; rfl

/-- **Applying a stage**, however it was built from a row of validations, to anything that is
present.  If all validations are successes, a function is called once, with all values in order,
and its result, its error or the absence of its result decides; nothing else happens in the store.
If some validation is a failure, and either `f` is a function or the first validation is a failure,
nothing is called and all errors come out in order.  If `f` is no function and the first validation
is a success, that is the error, whatever follows. -/
theorem apply_of_builtFrom (call : Calls) {f : Value} (hf : f.isAbsent = false)
    {vs : List Validation} {stage : Stage}
    (hb : BuiltFrom (vs.map Validation.toValue) stage) (s : Store) :
    (∀ (function : FunctionRef) (xs : List Value), f = .function function → vs = xs.map success →
      stage.apply call f s =
        match call function xs s with
        | .ok result t =>
            if result.isAbsent then .error (.nullArgument "value" "success") t
            else .ok (success result) t
        | .error error t => .error error t) ∧
    ((∃ v ∈ vs, v.isFailure) → (f.isCallable ∨ ∃ error rest, vs = failure error :: rest) →
      stage.apply call f s = .ok (failure (.tuple (vs.filterMap error?))) s) ∧
    (f.isCallable = false → (∃ value rest, vs = success value :: rest) →
      stage.apply call f s = .error .nothingToApply s ∧
        Error.nothingToApply.kind = "TypeError") := by
  obtain ⟨hitems, hmin, -⟩ := hb.holds
  rw [List.length_map] at hmin
  refine ⟨?_, ?_, ?_⟩
  · rintro function xs rfl rfl
    have hx : xs ≠ [] := by
      rintro rfl
      exact absurd hmin (by decide)
    rw [apply_successes call hx hitems]
    exact bind_require_success (call function xs) s
  · intro he hfit
    have hfit' : f.isCallable ∨ leading vs = [] := by
      refine hfit.imp_right ?_
      rintro ⟨error, rest, rfl⟩
      rfl
    rw [apply_failures call hf hitems (errorsOf_ne_nil he) hfit']
    rfl
  · rintro hc ⟨value, rest, rfl⟩
    rw [apply_unfit call hf hc hitems (List.cons_ne_nil _ _) hmin]
    exact ⟨rfl, rfl⟩

/-- A function that answers with all its arguments, on a pair of successes and on a widened pair
with failures, and a number in place of a function. -/
theorem apply_of_builtFrom_widened :
    apply (fun _ xs => pure (.tuple xs)) (.function ⟨0, "f", false⟩)
        ⟨0, [.success (.int 1), .success (.text "b")]⟩ {} =
      .ok (success (.tuple [.int 1, .text "b"])) {} ∧
    apply (fun _ xs => pure (.tuple xs)) (.function ⟨0, "f", false⟩)
        ⟨1, [.success (.int 1), .failure (.text "a"), .failure (.tuple [.text "b"])]⟩ {} =
      .ok (failure (.tuple [.text "a", .tuple [.text "b"]])) {} ∧
    apply (fun _ xs => pure (.tuple xs)) (.int 5)
        ⟨0, [.success (.int 1), .success (.text "b")]⟩ {} = .error .nothingToApply {} := by
  have hpair : BuiltFrom ([success (.int 1), success (.text "b")].map Validation.toValue)
      ⟨0, [.success (.int 1), .success (.text "b")]⟩ :=
    .combined (show Accrual.combine _ {} = .ok _ { nextId := 1 } from rfl)
  have hnarrow : BuiltFrom [.success (.int 1), .failure (.text "a")]
      ⟨0, [.success (.int 1), .failure (.text "a")]⟩ :=
    .paired (show (success (.int 1)).combine (.failure (.text "a")) {} = .ok _ { nextId := 1 }
      from rfl)
  have hwide : BuiltFrom ([success (.int 1), failure (.text "a"),
        failure (.tuple [.text "b"])].map Validation.toValue)
      ⟨1, [.success (.int 1), .failure (.text "a"), .failure (.tuple [.text "b"])]⟩ :=
    .widened hnarrow rfl (show Stage.combine (.failure (.tuple [.text "b"])) _ { nextId := 1 } =
      .ok _ { nextId := 2 } from rfl)
  refine ⟨?_, ?_, ?_⟩
  · exact (apply_of_builtFrom _ rfl hpair {}).1 _ [.int 1, .text "b"] rfl rfl
  · exact (apply_of_builtFrom _ rfl hwide {}).2.1 ⟨failure (.text "a"), by simp, rfl⟩ (.inl rfl)
  · exact ((apply_of_builtFrom _ rfl hpair {}).2.2 rfl ⟨_, _, rfl⟩).1

end Stage

end Accrual
