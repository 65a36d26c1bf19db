import Accrual.Proofs.Filled.Basic
import Accrual.Run

/-!
# Runs that keep a store filled

A store is filled if everything that it holds on to is: the configured renderer
and threshold, the calls taken down, and what the callbacks hold.  `Run.Keeps P`
says of a run that it leaves every filled store filled, however it ends, and
that its result, if there is one, has the property `P`.  The rules below follow
the ways runs are put together, so that what an operation keeps is read off what
its steps keep.
-/

namespace Accrual

namespace Callback

variable {α : Type}

def held : Callback α → List α
  | constant v | equals v => [v]
  | check predicate error => [predicate, error]
  | stopIf predicate _ => [predicate]
  | compose functions => functions
  | method _ arguments => arguments
  | curry _ inner collected => inner :: collected
  | trace _ inner => [inner]
  | _ => []

def Filled (c : Callback Value) : Prop := FilledRow c.held

end Callback

structure Store.Filled (s : Store) : Prop where
  renderer : ∀ r ∈ s.renderer, r.toValue.Filled
  threshold : ∀ v ∈ s.threshold, v.Filled
  calls : ∀ c ∈ s.calls, FilledRow c.2
  callbacks : ∀ c ∈ s.callbacks, c.Filled

namespace Run

variable {α β : Type} {P : α → Prop} {Q : β → Prop}

/-- From a filled store, the run comes to a filled store, and to a result with the property `P` if
it does not stop with an error. -/
def Keeps (run : Run α) (P : α → Prop) : Prop :=
  ∀ s : Store, s.Filled →
    match run s with
    | .ok a t => P a ∧ t.Filled
    | .error _ t => t.Filled

theorem Keeps.result {run : Run α} (h : run.Keeps P) {s t : Store} {a : α} (hs : s.Filled)
    (ha : run s = .ok a t) : P a ∧ t.Filled := by
  have := h s hs
  rwa [ha] at this

theorem Keeps.stopped {run : Run α} (h : run.Keeps P) {s t : Store} {error : Error}
    (hs : s.Filled) (he : run s = .error error t) : t.Filled := by
  have := h s hs
  rwa [he] at this

theorem keeps_pure {a : α} (ha : P a) : (pure a : Run α).Keeps P := fun _ hs => ⟨ha, hs⟩

theorem keeps_throw (error : Error) : (throw error : Run α).Keeps P := fun _ hs => hs

theorem Keeps.mono {run : Run α} {P' : α → Prop} (h : run.Keeps P) (hp : ∀ a, P a → P' a) :
    run.Keeps P' := by
  intro s hs
  cases hr : run s with
  | ok a t =>
      obtain ⟨ha, ht⟩ := h.result hs hr
      exact ⟨hp a ha, ht⟩
  | error error t => exact h.stopped hs hr

theorem Keeps.bind {run : Run α} {next : α → Run β} (h : run.Keeps P)
    (hn : ∀ a, P a → (next a).Keeps Q) : (run >>= next).Keeps Q := by
  intro s hs
  change match EStateM.bind run next s with
    | .ok b t => Q b ∧ t.Filled
    | .error _ t => t.Filled
  unfold EStateM.bind
  cases hr : run s with
  | ok a t =>
      obtain ⟨ha, ht⟩ := h.result hs hr
      exact hn a ha t ht
  | error error t => exact h.stopped hs hr

theorem Keeps.map {run : Run α} {f : α → β} (h : run.Keeps P) (hf : ∀ a, P a → Q (f a)) :
    (f <$> run).Keeps Q := by
  rw [map_eq_pure_bind]
  exact h.bind fun a ha => keeps_pure (hf a ha)

theorem keeps_get : (get : Run Store).Keeps Store.Filled := fun _ hs => ⟨hs, hs⟩

theorem keeps_modify {f : Store → Store} (h : ∀ s : Store, s.Filled → (f s).Filled) :
    (modify f : Run PUnit).Keeps fun _ => True :=
  fun s hs => ⟨trivial, h s hs⟩

theorem keeps_ofExcept {e : Except Error α} (h : ∀ a, e = .ok a → P a) : (ofExcept e).Keeps P := by
  cases e with
  | ok a => exact keeps_pure (h a rfl)
  | error error => exact keeps_throw error

/-- A pure step keeps the store as it is. -/
theorem keeps_ofExcept_any (e : Except Error α) : (ofExcept e).Keeps fun _ => True :=
  keeps_ofExcept fun _ _ => trivial

theorem keeps_foldlM {γ : Type} {f : β → γ → Run β} (l : List γ)
    (hf : ∀ b, ∀ c ∈ l, Q b → (f b c).Keeps Q) {b : β} (hb : Q b) : (l.foldlM f b).Keeps Q := by
  induction l generalizing b with
  | nil => exact keeps_pure hb
  | cons c rest ih =>
      rw [List.foldlM_cons]
      refine (hf b c List.mem_cons_self hb).bind fun b' hb' => ?_
      exact ih (fun b c hc => hf b c (List.mem_cons_of_mem _ hc)) hb'

theorem keeps_mapM {γ : Type} {f : γ → Run β} (l : List γ) (hf : ∀ c ∈ l, (f c).Keeps Q) :
    (l.mapM f).Keeps fun bs => ∀ b ∈ bs, Q b := by
  induction l with
  | nil => exact keeps_pure (by simp)
  | cons c rest ih =>
      rw [List.mapM_cons]
      refine (hf c List.mem_cons_self).bind fun b hb => ?_
      refine (ih fun c hc => hf c (List.mem_cons_of_mem _ hc)).bind fun bs hbs => ?_
      exact keeps_pure (List.forall_mem_cons.mpr ⟨hb, hbs⟩)

/-! ### The steps that change a store -/

theorem keeps_write (stream : Stream) (text : String) : (write stream text).Keeps fun _ => True :=
  keeps_modify fun _ hs => ⟨hs.renderer, hs.threshold, hs.calls, hs.callbacks⟩

theorem keeps_noteCall (tag : String) {arguments : List Value} (h : FilledRow arguments) :
    (noteCall tag arguments).Keeps fun _ => True := by
  refine keeps_modify fun s hs => ⟨hs.renderer, hs.threshold, ?_, hs.callbacks⟩
  exact List.forall_mem_append.mpr ⟨hs.calls, List.forall_mem_singleton.mpr h⟩

theorem keeps_freshId : freshId.Keeps fun _ => True :=
  fun _ hs => ⟨trivial, hs.renderer, hs.threshold, hs.calls, hs.callbacks⟩

theorem keeps_define {c : Callback Value} (h : c.Filled) : (define c).Keeps Value.Filled := by
  intro s hs
  refine ⟨Value.filled_function _, hs.renderer, hs.threshold, hs.calls, ?_⟩
  exact List.forall_mem_append.mpr ⟨hs.callbacks, List.forall_mem_singleton.mpr h⟩

end Run

theorem keeps_require (argument : Value) (name operation : String) :
    (require argument name operation).Keeps fun _ => argument.isAbsent = false := by
  unfold require
  cases h : argument.isAbsent with
  | true => exact Run.keeps_throw _
  | false => exact Run.keeps_pure rfl

/-- Functions that come to filled values, and keep the store filled, if their arguments are filled:
whatever they do, they get at validations through the library only. -/
def Calls.KeepFilled (call : Calls) : Prop :=
  ∀ (f : FunctionRef) (arguments : List Value), FilledRow arguments →
    (call f arguments).Keeps Value.Filled

theorem keeps_invoke {call : Calls} (hc : call.KeepFilled) (f : Value) {arguments : List Value}
    (h : FilledRow arguments) : (invoke call f arguments).Keeps Value.Filled := by
  cases f with
  | function f => exact hc f arguments h
  | _ => exact Run.keeps_throw _

end Accrual
