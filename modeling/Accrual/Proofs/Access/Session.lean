import Accrual.Proofs.Access.Step

/-!
# Sessions side by side

A session starts each step with nothing called and nothing written yet, and
keeps the store that the step leaves.  So a property of the store that all steps
preserve holds at the end (`preserves_after`), and two sessions with the same
registers over related stores give the same answers (`run_related`), as long as
related stores show the same calls and texts (`Store.ShownAlike`).
-/

namespace Accrual

/-- The store in which a step starts: nothing was called or written yet. -/
def Store.cleared (s : Store) : Store := { s with calls := [], written := [] }

structure Store.ShownAlike (R : Store → Store → Prop) : Prop where
  cleared : ∀ {s t : Store}, R s t → R s.cleared t.cleared
  calls : ∀ {s t : Store}, R s t → s.calls = t.calls
  written : ∀ {s t : Store}, R s t → s.written = t.written

namespace Session

variable {call : Calls}

theorem after_cons (session : Session) (step : Step) (steps : List Step) :
    session.after call (step :: steps) = (session.step call step).2.after call steps := rfl

theorem after_append (session : Session) (steps more : List Step) :
    session.after call (steps ++ more) = (session.after call steps).after call more :=
  List.foldl_append

theorem step_of_ok {session : Session} {step : Step} {v : Value} {t : Store}
    (h : step.run call session.registers session.store.cleared = .ok v t) :
    session.step call step =
      (⟨.ok v, t.calls, t.written⟩, ⟨keep session.registers step.register v, t⟩) := by
  unfold Session.step
  rw [Store.cleared] at h
  rw [h]

theorem step_of_error {session : Session} {step : Step} {error : Error} {t : Store}
    (h : step.run call session.registers session.store.cleared = .error error t) :
    session.step call step =
      (⟨.error error, t.calls, t.written⟩, ⟨session.registers, t⟩) := by
  unfold Session.step
  rw [Store.cleared] at h
  rw [h]

theorem store_step (session : Session) (step : Step) :
    (session.step call step).2.store =
      (step.run call session.registers).after session.store.cleared := by
  cases h : step.run call session.registers session.store.cleared with
  | ok v t => rw [step_of_ok h, Run.after_of_ok h]
  | error error t => rw [step_of_error h, Run.after_of_error h]

/-! ### One session -/

theorem preserves_step {I : Store → Prop} (hI : ∀ s : Store, I s → I s.cleared)
    {session : Session} {step : Step}
    (hstep : ∀ s, I s → I ((step.run call session.registers).after s)) (h : I session.store) :
    I (session.step call step).2.store := by
  rw [store_step]
  exact hstep _ (hI _ h)

/-- **What every step preserves** holds at the end. -/
theorem preserves_after {I : Store → Prop} (hI : ∀ s : Store, I s → I s.cleared)
    {steps : List Step}
    (hsteps : ∀ step ∈ steps, ∀ registers s, I s → I ((step.run call registers).after s))
    {session : Session} (h : I session.store) : I (session.after call steps).store := by
  induction steps generalizing session with
  | nil => exact h
  | cons step rest ih =>
      obtain ⟨hstep, hrest⟩ := List.forall_mem_cons.mp hsteps
      exact ih hrest (preserves_step hI (hstep _) h)

/-! ### Two sessions -/

/-- The sessions have the same registers, and their next steps start in related stores. -/
structure Related (R : Store → Store → Prop) (x y : Session) : Prop where
  registers : x.registers = y.registers
  store : R x.store.cleared y.store.cleared

variable {R : Store → Store → Prop} (hR : Store.ShownAlike R)
include hR

theorem step_related {x y : Session} {step : Step}
    (hstep : (step.run call x.registers).Respects R) (h : Related R x y) :
    (x.step call step).1 = (y.step call step).1 ∧
      Related R (x.step call step).2 (y.step call step).2 := by
  have hrun := hstep _ _ h.store
  generalize hx : step.run call x.registers x.store.cleared = p,
    hy : step.run call x.registers y.store.cleared = q at hrun
  rw [h.registers] at hy
  cases hrun with
  | ok hst =>
      rw [step_of_ok hx, step_of_ok hy, hR.calls hst, hR.written hst, h.registers]
      exact ⟨rfl, rfl, hR.cleared hst⟩
  | error hst =>
      rw [step_of_error hx, step_of_error hy, hR.calls hst, hR.written hst]
      exact ⟨rfl, h.registers, hR.cleared hst⟩

/-- **Related sessions give the same answers**, and end in related sessions. -/
theorem run_related {steps : List Step}
    (hsteps : ∀ step ∈ steps, ∀ registers, (step.run call registers).Respects R) {x y : Session}
    (h : Related R x y) :
    x.run call steps = y.run call steps ∧ Related R (x.after call steps) (y.after call steps) := by
  induction steps generalizing x y with
  | nil => exact ⟨rfl, h⟩
  | cons step rest ih =>
      obtain ⟨hstep, hrest⟩ := List.forall_mem_cons.mp hsteps
      obtain ⟨hanswer, hnext⟩ := step_related hR (hstep _) h
      obtain ⟨hanswers, hafter⟩ := ih hrest hnext
      refine ⟨?_, hafter⟩
      rw [run, run, hanswer, hanswers]

end Session

end Accrual
