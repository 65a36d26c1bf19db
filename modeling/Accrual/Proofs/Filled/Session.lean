import Accrual.Proofs.Filled.Callback
import Accrual.Proofs.Filled.Operation
import Accrual.Proofs.Filled.Term
import Accrual.Proofs.Wrapping
import Accrual.Session.Step

/-!
# Sessions without absent payloads

A step of a session builds its values from the registers, calls what it names
and keeps the result.  Every part of this keeps the store filled, so a step
leads from a filled session to a filled one (`Session.filled_step`), and by
induction on the steps so does every run from the clean state.
-/

namespace Accrual

open Value

/-! ### One step -/

namespace Step

variable {registers : Registers} (hr : registers.Filled)
include hr

theorem keeps_evalNamed (named : List (String × Term)) :
    (evalNamed registers named).Keeps fun vs => ∀ v ∈ vs, v.2.Filled := by
  induction named with
  | nil => exact Run.keeps_pure (by simp)
  | cons argument rest ih =>
      obtain ⟨name, term⟩ := argument
      refine (Term.keeps_eval hr term).bind fun v hv => ?_
      exact ih.bind fun vs hvs => Run.keeps_pure (List.forall_mem_cons.mpr ⟨hv, hvs⟩)

theorem keeps_arguments (step : Step) : (step.arguments registers).Keeps Arguments.Filled := by
  refine (Term.keeps_evalAll hr step.positional).bind fun vs hvs => ?_
  exact (keeps_evalNamed hr step.named).bind fun ns hns => Run.keeps_pure ⟨hvs, hns⟩

/-- **A step over filled registers** comes to a filled value. -/
theorem keeps_run {call : Calls} (hc : call.KeepFilled) (step : Step) :
    (step.run call registers).Keeps Value.Filled := by
  unfold run
  split
  next name _ =>
    split
    · exact (keeps_arguments hr step).bind fun _ ha => Operation.keeps_run hc _ ha
    · exact Run.keeps_throw _
  next on name _ =>
    refine (Term.keeps_eval hr on).bind fun v hv => ?_
    refine (keeps_method hc hv name).bind fun bound hb => ?_
    exact (keeps_arguments hr step).bind hb
  next on name _ =>
    refine (Term.keeps_eval hr on).bind fun v hv => ?_
    refine Run.keeps_ofExcept fun w hw => ?_
    cases hf : v.field? name with
    | none => simp [field, hf] at hw
    | some content =>
        obtain rfl : content = .ok w := by simpa [field, hf] using hw
        exact filled_field hv hf

end Step

/-! ### Runs -/

structure Answer.Filled (answer : Answer) : Prop where
  result : ∀ v, answer.result = .ok v → v.Filled
  calls : ∀ c ∈ answer.calls, FilledRow c.2

structure Session.Filled (session : Session) : Prop where
  registers : session.registers.Filled
  store : session.store.Filled

namespace Session

theorem filled_start (surroundings : Surroundings) : (start surroundings).Filled := by
  refine ⟨fun _ hr => (by cases hr), ?_⟩
  constructor <;> intro _ hm <;> cases hm

theorem filled_keep {registers : Registers} (h : registers.Filled) (name : Option String)
    {v : Value} (hv : v.Filled) : Registers.Filled (keep registers name v) := by
  cases name with
  | some name => exact List.forall_mem_cons.mpr ⟨hv, h⟩
  | none => exact h

section

variable {call : Calls} (hc : call.KeepFilled)
include hc

/-- A step leads from a filled session to a filled one, whether it fails or not, and gives a filled
answer. -/
theorem filled_step {session : Session} (h : session.Filled) (step : Step) :
    (session.step call step).1.Filled ∧ (session.step call step).2.Filled := by
  have hs : ({ session.store with calls := [], written := [] } : Store).Filled :=
    ⟨h.store.renderer, h.store.threshold, fun _ hm => (by cases hm), h.store.callbacks⟩
  have hrun := step.keeps_run h.registers hc
  unfold Session.step
  cases hr : step.run call session.registers { session.store with calls := [], written := [] } with
  | ok v store =>
      obtain ⟨hv, hstore⟩ := hrun.result hs hr
      refine ⟨⟨fun w hw => ?_, hstore.calls⟩, filled_keep h.registers step.register hv, hstore⟩
      cases hw
      exact hv
  | error error store =>
      have hstore := hrun.stopped hs hr
      exact ⟨⟨fun w hw => (by cases hw), hstore.calls⟩, h.registers, hstore⟩

/-- **Every run from a filled session** ends in a filled session, and all its answers are filled. -/
theorem filled_run (steps : List Step) {session : Session} (h : session.Filled) :
    (session.after call steps).Filled ∧ ∀ answer ∈ session.run call steps, answer.Filled := by
  induction steps generalizing session with
  | nil => exact ⟨h, fun _ hm => by cases hm⟩
  | cons step rest ih =>
      obtain ⟨hanswer, hnext⟩ := filled_step hc h step
      obtain ⟨hafter, hanswers⟩ := ih hnext
      exact ⟨hafter, List.forall_mem_cons.mpr ⟨hanswer, hanswers⟩⟩

end

/-- **No absent payload is ever reachable.**  Functions of any kind that get at validations through
the library only, among them all callbacks, come to filled values from filled ones.  With such
functions, every run of steps from the clean state ends in a filled session, and all its answers
are filled.  An operation that needs an absent payload is refused by the constructor instead.  And
no entry of the errors of a sequence, a stage or a single application is absent. -/
theorem no_absent_payload :
    Callback.calls.KeepFilled ∧
      ∀ call : Calls, call.KeepFilled →
        (∀ (surroundings : Surroundings) (steps : List Step),
          ((start surroundings).after call steps).Filled ∧
            ∀ answer ∈ (start surroundings).run call steps, answer.Filled) ∧
        (∀ (w : Wrapping) (p : Value) (s t : Store), w.Fits → w.payload call s = .ok p t →
          w.refusal.kind = "NullArgumentError" ∧
            w.run call s =
              if p.isAbsent then .error w.refusal t
              else .ok (if w.isError then .failure p else .success p) t) ∧
        (∀ row : Value, row.Filled → (sequence row).Keeps Validation.Collected) ∧
        (∀ (f : Value) (stage : Stage), f.Filled → stage.toValue.Filled →
          (stage.apply call f).Keeps Validation.Collected) ∧
        ∀ (f : Value) (v : Validation), v.toValue.Filled →
          (v.apply call f).Keeps fun r =>
            r.Filled ∧ ∀ error, r = .failure error → (Validation.failure error).Collected := by
  refine ⟨Callback.keepFilled_calls, fun call hc => ⟨?_, ?_, ?_, ?_, ?_⟩⟩
  · exact fun surroundings steps => filled_run hc steps (filled_start surroundings)
  · exact fun w p s t hw hp => ⟨w.kind_refusal, Wrapping.run_of_payload call hw hp⟩
  · exact fun row hrow => keeps_sequence hrow
  · exact fun f stage hf hs => Stage.keeps_apply hc hf hs
  · exact fun f v hv => Validation.keeps_apply hc f hv

/-- A function that returns nothing, mapped over a success in a session and applied to a row that
holds a failure. -/
theorem no_absent_payload_mapped :
    let nothing : Value := .function ⟨0, "const", false⟩
    let store : Store := { callbacks := [.constant absent] }
    let row : Value := .list [.success (.int 1), .failure (.text "low")]
    let steps : List Step :=
      [{ target := .operation "success", positional := [.int 1], register := some "v" },
        { target := .method (.register "v") "map", positional := [.callback (.constant .absent)] }]
    (∀ answer ∈ runSession {} steps, answer.Filled) ∧
      (Wrapping.map nothing (.int 1)).run Callback.calls store =
        .error (.nullArgument "value" "success") store ∧
      (sequence row).Keeps Validation.Collected ∧
      (Stage.apply Callback.calls nothing ⟨0, [.success (.int 1), .failure (.text "low")]⟩).Keeps
        Validation.Collected ∧
      ((Validation.failure (.text "low")).apply Callback.calls nothing).Keeps fun r =>
        r.Filled ∧ ∀ error, r = .failure error → (Validation.failure error).Collected := by
  intro nothing store row steps
  obtain ⟨hruns, hpayload, hsequence, hstage, happly⟩ :=
    no_absent_payload.2 Callback.calls no_absent_payload.1
  have hrow : FilledRow [.success (.int 1), .failure (.text "low")] := by
    simp [FilledRow, isAbsent]
  refine ⟨(hruns {} steps).2, ?_, hsequence row (filled_list.mpr hrow), ?_, ?_⟩
  · exact (hpayload (.map nothing (.int 1)) absent store store rfl rfl).2
  · exact hstage nothing _ (filled_function _) (filled_stage.mpr hrow)
  · exact happly nothing _ (filled_failure.mpr ⟨rfl, filled_text _⟩)

end Session

end Accrual
