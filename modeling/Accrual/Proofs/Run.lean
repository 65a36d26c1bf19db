import Accrual.Run

/-!
# Runs that go through and runs that stop

Small facts about runs that the other files use: an error leaves nothing to go
on with, a present argument is let through, and a run of two parts that goes
through has two parts that do (`bind_ok`).  The equations under "From a store"
say what a run does from a given store, step by step.
-/

namespace Accrual

@[simp] theorem Run.throw_bind {α β : Type} (error : Error) (next : α → Run β) :
    (throw error >>= next) = throw error := rfl

@[simp] theorem Run.map_throw {α β : Type} (error : Error) (f : α → β) :
    (f <$> (throw error : Run α)) = throw error := rfl

theorem Run.bind_ok {α β : Type} {run : Run α} {next : α → Run β} {b : β} {s t : Store}
    (h : (run >>= next) s = .ok b t) : ∃ a u, run s = .ok a u ∧ next a u = .ok b t := by
  change EStateM.bind run next s = .ok b t at h
  unfold EStateM.bind at h
  split at h
  next a u hrun => exact ⟨a, u, hrun, h⟩
  next => cases h

/-- Something that is built in two steps was built in both. -/
theorem except_bind_ok {ε α β : Type} {first : Except ε α} {next : α → Except ε β} {b : β}
    (h : (first >>= next) = .ok b) : ∃ a, first = .ok a ∧ next a = .ok b := by
  cases first with
  | ok a => exact ⟨a, rfl, h⟩
  | error error => cases h

theorem Run.ofExcept_bind {α β : Type} (e : Except Error α) (f : α → Except Error β) :
    Run.ofExcept (e >>= f) = (Run.ofExcept e >>= fun a => Run.ofExcept (f a)) := by
  cases e <;> rfl

theorem Run.ofExcept_ok_bind {α β : Type} (a : α) (next : α → Run β) :
    (Run.ofExcept (.ok a) >>= next) = next a := rfl

theorem Run.ofExcept_ok {α : Type} {e : Except Error α} {a : α} {s t : Store}
    (h : Run.ofExcept e s = .ok a t) : e = .ok a ∧ t = s := by
  cases e with
  | ok b =>
      cases h
      exact ⟨rfl, rfl⟩
  | error error => cases h

/-! ### From a store -/

namespace Run

variable {α β : Type}

theorem throw_apply (error : Error) (s : Store) :
    (throw error : Run α) s = .error error s := rfl

theorem get_bind (next : Store → Run α) (s : Store) : (get >>= next) s = next s s := rfl

theorem modify_bind (f : Store → Store) (next : PUnit → Run α) (s : Store) :
    (modify f >>= next) s = next ⟨⟩ (f s) := rfl

theorem bind_of_ok {run : Run α} {s t : Store} {a : α} (h : run s = .ok a t) (next : α → Run β) :
    (run >>= next) s = next a t := by
  change EStateM.bind run next s = next a t
  simp only [EStateM.bind, h]

theorem bind_of_eq {run run' : Run α} {s t : Store} (h : run s = run' t) (next : α → Run β) :
    (run >>= next) s = (run' >>= next) t := by
  change EStateM.bind run next s = EStateM.bind run' next t
  simp only [EStateM.bind, h]

theorem bind_of_error {run : Run α} {s t : Store} {error : Error} (h : run s = .error error t)
    (next : α → Run β) : (run >>= next) s = .error error t := by
  change EStateM.bind run next s = .error error t
  simp only [EStateM.bind, h]

end Run

/-! ### Present arguments -/

@[simp] theorem require_of_present {argument : Value} (h : argument.isAbsent = false)
    (name operation : String) : require argument name operation = pure () := by
  simp [require, h]

@[simp] theorem require_success (v : Value) (name operation : String) :
    require v.success name operation = pure () := rfl

@[simp] theorem require_failure (v : Value) (name operation : String) :
    require v.failure name operation = pure () := rfl

end Accrual
