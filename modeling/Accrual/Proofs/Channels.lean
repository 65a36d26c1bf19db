import Accrual.Either
import Accrual.Proofs.Agreement
import Accrual.Proofs.Filled.Basic

/-!
# The two channels

What an operation does on one channel it does on the other one after a swap: a
function runs on the payload of its own channel, exactly once, and its result
has to be present.  Stating each operation by that single call
(`map_success_eq` to `fold_failure`) makes the channels comparable.

Swapping twice changes nothing (`swap_swap`), and neither does the way through
an either (`ofEither_toEither`).  Mapping the error is mapping the value between
two swaps, up to the name of the channel in the fault of an absent result
(`swap_map_swap`).  Mapping both channels is mapping one after the other, in
either order (`bimap_eq_map_mapError`, `bimap_eq_mapError_map`), and a fold after
it is a fold with compositions (`bimap_fold`).
-/

namespace Accrual

/-- `h` calls `g`, and then `f` on the result. -/
def Calls.Composes (call : Calls) (f g h : FunctionRef) : Prop :=
  ∀ x, call h [x] = call g [x] >>= fun y => call f [y]

namespace Either

def payload : Either → Value
  | ok value => value
  | err error => error

end Either

namespace Validation

/-! ### One call each -/

theorem succeed_of_present {value : Value} (h : value.isAbsent = false) :
    succeed value = pure (success value) := by
  rw [succeed, require_of_present h]
  rfl

theorem fail_of_present {error : Value} (h : error.isAbsent = false) :
    fail error = pure (failure error) := by
  rw [fail, require_of_present h]
  rfl

theorem isAbsent_eq_false {v : Value} (h : v ≠ .absent) : v.isAbsent = false := by
  cases v <;> first | rfl | exact absurd rfl h

theorem present_of_success {value : Value} (h : ¬(success value).toValue.IsHollow) :
    value.isAbsent = false :=
  isAbsent_eq_false fun he => h (.inl (congrArg Value.success he))

theorem present_of_failure {error : Value} (h : ¬(failure error).toValue.IsHollow) :
    error.isAbsent = false :=
  isAbsent_eq_false fun he => h (.inr (congrArg Value.failure he))

section Calls

variable (call : Calls) (f g : FunctionRef) (payload : Value)

theorem map_success_eq :
    (success payload).map call (.function f) = (call f [payload] >>= succeed) :=
  map_success_function call f payload

theorem mapError_success :
    (success payload).mapError call (.function f) = pure (success payload) := rfl

theorem mapError_failure :
    (failure payload).mapError call (.function f) = (call f [payload] >>= fail) := rfl

theorem bimap_success :
    (success payload).bimap call (.function g) (.function f) = (call f [payload] >>= succeed) := rfl

theorem bimap_failure :
    (failure payload).bimap call (.function g) (.function f) = (call g [payload] >>= fail) := rfl

theorem fold_success :
    (success payload).fold call (.function g) (.function f) = call f [payload] := rfl

theorem fold_failure :
    (failure payload).fold call (.function g) (.function f) = call g [payload] := rfl

end Calls

/-! ### There and back -/

/-- **Swapping twice** changes nothing. -/
theorem swap_swap {v : Validation} (hv : ¬v.toValue.IsHollow) : (v.swap >>= swap) = pure v := by
  cases v with
  | success value =>
      have hvalue := present_of_success hv
      rw [swap, fail_of_present hvalue, pure_bind, swap, succeed_of_present hvalue]
  | failure error =>
      have herror := present_of_failure hv
      rw [swap, succeed_of_present herror, pure_bind, swap, fail_of_present herror]

/-- **A validation made an either** is the same validation again when it is made one. -/
theorem ofEither_toEither {v : Validation} (hv : ¬v.toValue.IsHollow) :
    ofEither v.toEither = pure v := by
  cases v with
  | success value => exact succeed_of_present (present_of_success hv)
  | failure error => exact fail_of_present (present_of_failure hv)

/-- **An either made a validation** is the same either again, if it has a payload. -/
theorem toEither_ofEither {e : Either} (h : e.payload.isAbsent = false) :
    toEither <$> ofEither e = pure e := by
  cases e with
  | ok value =>
      have hvalue : value.isAbsent = false := h
      rw [ofEither, succeed_of_present hvalue]
      rfl
  | err error =>
      have herror : error.isAbsent = false := h
      rw [ofEither, fail_of_present herror]
      rfl

theorem ofEither_ok_absent : ofEither (.ok .absent) = throw (.nullArgument "value" "success") := rfl

theorem ofEither_err_absent : ofEither (.err .absent) = throw (.nullArgument "error" "failure") :=
  rfl

/-! ### Mapping -/

section Mapping

variable (call : Calls) (f g : FunctionRef)

theorem succeed_bind_swap {value : Value} (h : value.isAbsent = false) :
    (succeed value >>= swap) = fail value := by
  rw [succeed_of_present h, pure_bind, swap]

/-- What succeeds is left alone on the other channel. -/
theorem succeed_bind_mapError (value : Value) :
    (succeed value >>= mapError call (.function g)) = succeed value := by
  cases value <;> rfl

theorem fail_bind_map (error : Value) : (fail error >>= map call (.function f)) = fail error := by
  cases error <;> rfl

/-- **Mapping the error is mapping the value between two swaps**, unless the result is absent: that
is a fault on either way, which names the channel. -/
theorem swap_map_swap {v : Validation} (hv : ¬v.toValue.IsHollow) (s : Store) :
    ((∀ error t, v = failure error → call f [error] s ≠ .ok .absent t) →
      v.mapError call (.function f) s = (v.swap >>= map call (.function f) >>= swap) s) ∧
    ∀ error t, v = failure error → call f [error] s = .ok .absent t →
      v.mapError call (.function f) s = .error (.nullArgument "error" "failure") t ∧
        (v.swap >>= map call (.function f) >>= swap) s =
          .error (.nullArgument "value" "success") t := by
  cases v with
  | success value =>
      have hvalue := present_of_success hv
      refine ⟨fun _ => ?_, fun _ _ he => by cases he⟩
      rw [swap, fail_of_present hvalue, pure_bind, map_failure_function, pure_bind, swap,
        succeed_of_present hvalue, mapError_success]
  | failure error =>
      have hmap : ((failure error).swap >>= map call (.function f) >>= swap) =
          (call f [error] >>= fun y => succeed y >>= swap) := by
        rw [swap, succeed_of_present (present_of_failure hv), pure_bind, map_success_eq, bind_assoc]
      rw [hmap, mapError_failure]
      refine ⟨fun hpresent => ?_, ?_⟩
      · cases hcall : call f [error] s with
        | error e t => rw [Run.bind_of_error hcall, Run.bind_of_error hcall]
        | ok y t =>
            have hy : y.isAbsent = false := isAbsent_eq_false fun he =>
              hpresent error t rfl (he ▸ hcall)
            rw [Run.bind_of_ok hcall, Run.bind_of_ok hcall, succeed_bind_swap hy]
      · rintro _ t ⟨⟩ hcall
        rw [Run.bind_of_ok hcall, Run.bind_of_ok hcall]
        exact ⟨rfl, rfl⟩

/-- **Mapping both channels** is mapping the values, then the errors. -/
theorem bimap_eq_map_mapError (v : Validation) :
    v.bimap call (.function g) (.function f) =
      (v.map call (.function f) >>= mapError call (.function g)) := by
  cases v with
  | success value =>
      rw [bimap_success, map_success_eq, bind_assoc]
      simp only [succeed_bind_mapError]
  | failure error => rw [bimap_failure, map_failure_function, pure_bind, mapError_failure]

/-- Or the errors, then the values. -/
theorem bimap_eq_mapError_map (v : Validation) :
    v.bimap call (.function g) (.function f) =
      (v.mapError call (.function g) >>= map call (.function f)) := by
  cases v with
  | success value => rw [bimap_success, mapError_success, pure_bind, map_success_eq]
  | failure error =>
      rw [bimap_failure, mapError_failure, bind_assoc]
      simp only [fail_bind_map]

/-- **A fold after both channels were mapped** is a fold with compositions, unless the mapped
payload is absent. -/
theorem bimap_fold {h k hg kf : FunctionRef} (hh : call.Composes h g hg)
    (hk : call.Composes k f kf) (v : Validation) (s : Store)
    (hvalue : ∀ value t, v = success value → call f [value] s ≠ .ok .absent t)
    (herror : ∀ error t, v = failure error → call g [error] s ≠ .ok .absent t) :
    (v.bimap call (.function g) (.function f) >>= fold call (.function h) (.function k)) s =
      v.fold call (.function hg) (.function kf) s := by
  cases v with
  | success value =>
      rw [bimap_success, bind_assoc, fold_success, hk]
      cases hcall : call f [value] s with
      | error e t => rw [Run.bind_of_error hcall, Run.bind_of_error hcall]
      | ok y t =>
          have hy : y.isAbsent = false := isAbsent_eq_false fun he =>
            hvalue value t rfl (he ▸ hcall)
          rw [Run.bind_of_ok hcall, Run.bind_of_ok hcall, succeed_of_present hy, pure_bind,
            fold_success]
  | failure error =>
      rw [bimap_failure, bind_assoc, fold_failure, hh]
      cases hcall : call g [error] s with
      | error e t => rw [Run.bind_of_error hcall, Run.bind_of_error hcall]
      | ok y t =>
          have hy : y.isAbsent = false := isAbsent_eq_false fun he =>
            herror error t rfl (he ▸ hcall)
          rw [Run.bind_of_ok hcall, Run.bind_of_ok hcall, fail_of_present hy, pure_bind,
            fold_failure]

end Mapping

/-- **The channels are dual, and convert without loss.**  Swapping twice and going through an either
give the same validation again, and an either with a payload comes back from a validation; one
without is a fault of the channel that it would have come to.  Mapping the error is mapping between
two swaps, mapping both channels is mapping one after the other in either order, and folding after
it is folding with compositions.  These are the same runs: they make the same calls and stop with
the same errors, up to the fault of an absent result, which names the channel it is met on. -/
theorem channels_dual (call : Calls) (f g h k : FunctionRef) {v : Validation}
    (hv : ¬v.toValue.IsHollow) (e : Either) :
    ((v.swap >>= swap) = pure v ∧ ofEither v.toEither = pure v) ∧
    ((e.payload.isAbsent = false → toEither <$> ofEither e = pure e) ∧
      ofEither (.ok .absent) = throw (.nullArgument "value" "success") ∧
      ofEither (.err .absent) = throw (.nullArgument "error" "failure")) ∧
    (∀ s,
      ((∀ error t, v = failure error → call f [error] s ≠ .ok .absent t) →
        v.mapError call (.function f) s = (v.swap >>= map call (.function f) >>= swap) s) ∧
      ∀ error t, v = failure error → call f [error] s = .ok .absent t →
        v.mapError call (.function f) s = .error (.nullArgument "error" "failure") t ∧
          (v.swap >>= map call (.function f) >>= swap) s =
            .error (.nullArgument "value" "success") t) ∧
    (v.bimap call (.function g) (.function f) =
        (v.map call (.function f) >>= mapError call (.function g)) ∧
      v.bimap call (.function g) (.function f) =
        (v.mapError call (.function g) >>= map call (.function f))) ∧
    ∀ hg kf, call.Composes h g hg → call.Composes k f kf → ∀ s,
      (∀ value t, v = success value → call f [value] s ≠ .ok .absent t) →
      (∀ error t, v = failure error → call g [error] s ≠ .ok .absent t) →
      (v.bimap call (.function g) (.function f) >>= fold call (.function h) (.function k)) s =
        v.fold call (.function hg) (.function kf) s :=
  ⟨⟨swap_swap hv, ofEither_toEither hv⟩,
    ⟨toEither_ofEither, ofEither_ok_absent, ofEither_err_absent⟩, swap_map_swap call f hv,
    ⟨bimap_eq_map_mapError call f g v, bimap_eq_mapError_map call f g v⟩,
    fun _ _ hh hk s => bimap_fold call f g hh hk v s⟩

/-- A failure that is mapped and folded by functions that take down their calls and wrap their
arguments, and an either without a payload behind a present one. -/
theorem channels_dual_wrapped :
    let wrap : Calls := fun f arguments => do
      Run.noteCall f.name arguments
      return .tuple arguments
    let g : FunctionRef := ⟨0, "g", false⟩
    let h : FunctionRef := ⟨1, "h", false⟩
    let both : FunctionRef := ⟨2, "both", false⟩
    let call : Calls := fun f arguments =>
      if f.id = 2 then wrap g arguments >>= fun y => wrap h [y] else wrap f arguments
    let v := failure (.text "bad")
    let e := Either.ok (.err .absent)
    ¬v.toValue.IsHollow ∧ e.payload.isAbsent = false ∧ call.Composes h g both ∧
      (v.swap >>= swap) = pure v ∧ toEither <$> ofEither e = pure e ∧
      v.mapError call (.function g) {} = (v.swap >>= map call (.function g) >>= swap) {} ∧
      (v.bimap call (.function g) (.function g) >>= fold call (.function h) (.function h)) {} =
        .ok (.tuple [.tuple [.text "bad"]])
          { calls := [("g", [.text "bad"]), ("h", [.tuple [.text "bad"]])] } := by
  intro wrap g h both call v e
  have hv : ¬(failure (.text "bad")).toValue.IsHollow := by
    rintro (he | he) <;> cases he
  have hboth : call.Composes h g both := fun _ => rfl
  obtain ⟨⟨hswap, -⟩, ⟨hround, -, -⟩, hmap, -, hfold⟩ := channels_dual call g g h h hv e
  have hpresent : ∀ error t, failure (.text "bad") = failure error →
      call g [error] {} ≠ .ok .absent t := by
    rintro _ t ⟨⟩ hcall
    cases hcall
  have hvalue : ∀ value t, failure (.text "bad") = success value →
      call g [value] {} ≠ .ok .absent t := by
    rintro _ t ⟨⟩
  have hsame := hfold both both hboth hboth {} hvalue hpresent
  exact ⟨hv, rfl, hboth, hswap, hround rfl, (hmap {}).1 hpresent, hsame⟩

end Validation

end Accrual
