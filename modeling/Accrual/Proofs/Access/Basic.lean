import Accrual.Proofs.Logging.Configuration

/-!
# How runs get at the store

The library never opens the store by itself: it writes, takes down a call,
counts, defines and looks up functions, reads the clock, and asks for the
settings, the threshold or the renderer in force.  Each of these is an `Access`,
and so are the few that change what is configured or the surroundings.

`Run.Uses allowed` says of a run that it is put together from accesses of the
allowed kinds and from pure steps.  Whatever these accesses respect, then, the
whole run respects: a relation between two stores that are run side by side
(`Uses.respects`), or a property of one store (`Uses.preserves`).
-/

namespace Accrual

inductive Access : Type → Type
  | write (stream : Stream) (text : String) : Access Unit
  | noteCall (tag : String) (arguments : List Value) : Access Unit
  | freshId : Access Nat
  | define (c : Callback Value) : Access Value
  | callback (id : Nat) : Access (Option (Callback Value))
  | clock : Access Seconds
  | settings : Access Settings
  | threshold : Access Value
  | renderer : Access Renderer
  | configure (format level output colors : Value) : Access Renderer
  | reset : Access Unit
  | clear : Access Unit
  | setEnvironment (change : List (String × String) → List (String × String)) : Access Unit
  | setDotEnv (content : String) : Access Unit
  | setClock (time : Seconds) : Access Unit

namespace Access

inductive Kind
  | write
  | noteCall
  | freshId
  | define
  | callback
  | clock
  | settings
  | threshold
  | renderer
  | configure
  | reset
  | clear
  | setEnvironment
  | setDotEnv
  | setClock
  deriving DecidableEq

def kind {α : Type} : Access α → Kind
  | write _ _ => .write
  | noteCall _ _ => .noteCall
  | freshId => .freshId
  | define _ => .define
  | callback _ => .callback
  | clock => .clock
  | settings => .settings
  | threshold => .threshold
  | renderer => .renderer
  | configure _ _ _ _ => .configure
  | reset => .reset
  | clear => .clear
  | setEnvironment _ => .setEnvironment
  | setDotEnv _ => .setDotEnv
  | setClock _ => .setClock

def surround (change : Surroundings → Surroundings) : Run Unit :=
  modify fun s => { s with surroundings := change s.surroundings }

def run {α : Type} : Access α → Run α
  | write stream text => Run.write stream text
  | noteCall tag arguments => Run.noteCall tag arguments
  | freshId => Run.freshId
  | define c => Run.define c
  | callback id => do return (← get).callbacks[id]?
  | clock => do return (← get).surroundings.clock
  | settings => getSettings
  | threshold => Logging.currentThreshold
  | renderer => Logging.currentRenderer
  | configure format level output colors => Logging.configure format level output colors
  | reset => Logging.reset
  | clear => clearSettings
  | setEnvironment change => surround fun u => { u with environment := change u.environment }
  | setDotEnv content => surround fun u => { u with dotenv := content }
  | setClock time => surround fun u => { u with clock := time }

/-- The accesses that leave it to others what is configured and what the surroundings are. -/
def steady : List Kind :=
  [.write, .noteCall, .freshId, .define, .callback, .clock, .settings, .threshold, .renderer]

end Access

namespace Run

/-- The run is put together from accesses of the allowed kinds and from pure steps. -/
inductive Uses (allowed : List Access.Kind) : {α : Type} → Run α → Prop
  | pure {α : Type} (a : α) : Uses allowed (Pure.pure a : Run α)
  | throw {α : Type} (error : Error) : Uses allowed (MonadExcept.throw error : Run α)
  | access {α : Type} (x : Access α) : x.kind ∈ allowed → Uses allowed x.run
  | bind {α β : Type} {run : Run α} {next : α → Run β} :
      Uses allowed run → (∀ a, Uses allowed (next a)) → Uses allowed (run >>= next)

variable {α β γ : Type} {allowed : List Access.Kind}

namespace Uses

theorem mono {run : Run α} {more : List Access.Kind} (h : run.Uses allowed)
    (hm : allowed ⊆ more) : run.Uses more := by
  induction h with
  | pure a => exact .pure a
  | throw error => exact .throw error
  | access x hx => exact .access x (hm hx)
  | bind _ _ ih ihn => exact .bind ih ihn

theorem map {run : Run α} (h : run.Uses allowed) (f : α → β) : (f <$> run).Uses allowed := by
  rw [map_eq_pure_bind]
  exact h.bind fun a => .pure (f a)

theorem ofExcept (e : Except Error α) : (Run.ofExcept e).Uses allowed := by
  cases e with
  | ok a => exact .pure a
  | error error => exact .throw error

theorem foldlM {f : β → γ → Run β} (hf : ∀ b c, (f b c).Uses allowed) (l : List γ) (b : β) :
    (l.foldlM f b).Uses allowed := by
  induction l generalizing b with
  | nil => exact .pure b
  | cons c rest ih =>
      rw [List.foldlM_cons]
      exact (hf b c).bind ih

theorem mapM {f : γ → Run β} (hf : ∀ c, (f c).Uses allowed) (l : List γ) :
    (l.mapM f).Uses allowed := by
  induction l with
  | nil => exact .pure []
  | cons c rest ih =>
      rw [List.mapM_cons]
      exact (hf c).bind fun b => ih.bind fun bs => .pure (b :: bs)

theorem require (argument : Value) (name operation : String) :
    (Accrual.require argument name operation).Uses allowed := by
  unfold Accrual.require
  split
  · exact .throw _
  · exact .pure ()

theorem define (h : .define ∈ allowed) (c : Callback Value) : (Run.define c).Uses allowed :=
  .access (.define c) h

theorem noteCall (h : .noteCall ∈ allowed) (tag : String) (arguments : List Value) :
    (Run.noteCall tag arguments).Uses allowed := .access (.noteCall tag arguments) h

end Uses

/-! ### Two stores side by side -/

/-- Two runs come to the same result or to the same error, in related stores. -/
inductive Agree (R : Store → Store → Prop) :
    EStateM.Result Error Store α → EStateM.Result Error Store α → Prop
  | ok {a : α} {s t : Store} : R s t → Agree R (.ok a s) (.ok a t)
  | error {error : Error} {s t : Store} : R s t → Agree R (.error error s) (.error error t)

/-- From related stores, the run agrees with itself. -/
def Respects (R : Store → Store → Prop) (run : Run α) : Prop :=
  ∀ s t : Store, R s t → Agree R (run s) (run t)

variable {R : Store → Store → Prop}

theorem agree_self (hR : ∀ s, R s s) (run : Run α) (s : Store) : Agree R (run s) (run s) := by
  cases run s with
  | ok a t => exact .ok (hR t)
  | error error t => exact .error (hR t)

theorem respects_pure (a : α) : (pure a : Run α).Respects R := fun _ _ h => .ok h

theorem respects_throw (error : Error) : (throw error : Run α).Respects R := fun _ _ h => .error h

theorem respects_ofExcept (e : Except Error α) : (ofExcept e).Respects R := by
  cases e with
  | ok a => exact respects_pure a
  | error error => exact respects_throw error

theorem respects_modify {f : Store → Store} (h : ∀ s t : Store, R s t → R (f s) (f t)) :
    (modify f : Run PUnit).Respects R := fun s t hR => .ok (h s t hR)

theorem Respects.bind {run : Run α} {next : α → Run β} (h : run.Respects R)
    (hn : ∀ a, (next a).Respects R) : (run >>= next).Respects R := by
  intro s t hR
  have hrun := h s t hR
  generalize hs : run s = x, ht : run t = y at hrun
  cases hrun with
  | ok hR' =>
      rw [bind_of_ok hs, bind_of_ok ht]
      exact hn _ _ _ hR'
  | error hR' =>
      rw [bind_of_error hs, bind_of_error ht]
      exact .error hR'

/-- **What the accesses respect, the run respects.** -/
theorem Uses.respects {run : Run α} (h : run.Uses allowed)
    (hR : ∀ {β : Type} (x : Access β), x.kind ∈ allowed → x.run.Respects R) : run.Respects R := by
  induction h with
  | pure a => exact respects_pure a
  | throw error => exact respects_throw error
  | access x hx => exact hR x hx
  | bind _ _ ih ihn => exact ih.bind ihn

/-! ### One store -/

/-- The store that a run leaves behind, however it ends. -/
def after (run : Run α) (s : Store) : Store :=
  match run s with
  | .ok _ t => t
  | .error _ t => t

theorem after_of_ok {run : Run α} {s t : Store} {a : α} (h : run s = .ok a t) :
    run.after s = t := by
  rw [after, h]

theorem after_of_error {run : Run α} {s t : Store} {error : Error} (h : run s = .error error t) :
    run.after s = t := by
  rw [after, h]

theorem after_bind_of_ok {run : Run α} {s t : Store} {a : α} (h : run s = .ok a t)
    (next : α → Run β) : (run >>= next).after s = (next a).after t := by
  rw [after, bind_of_ok h, after]

theorem after_bind_of_error {run : Run α} {s t : Store} {error : Error}
    (h : run s = .error error t) (next : α → Run β) : (run >>= next).after s = t := by
  rw [after, bind_of_error h]

theorem after_bind_pure (run : Run α) (f : α → β) (s : Store) :
    (run >>= fun a => pure (f a)).after s = run.after s := by
  cases h : run s with
  | ok a t =>
      rw [after_bind_of_ok h, after_of_ok h]
      rfl
  | error error t => rw [after_bind_of_error h, after_of_error h]

/-- Asking for the settings does nothing, or it keeps those that are loaded. -/
theorem after_getSettings (s : Store) :
    getSettings.after s = s ∨ ∃ c, s.settings = .ok c ∧ getSettings.after s = s.loaded c := by
  cases hs : s.settings with
  | ok c => exact .inr ⟨c, rfl, after_of_ok (getSettings_ok hs)⟩
  | error error => exact .inl (after_of_error (getSettings_error hs).1)

theorem after_currentThreshold (s : Store) :
    Logging.currentThreshold.after s = s ∨
      ∃ c, s.settings = .ok c ∧ Logging.currentThreshold.after s = s.loaded c := by
  cases ht : s.threshold with
  | some v => exact .inl (after_of_ok (Logging.currentThreshold_set ht))
  | none =>
      cases hs : s.settings with
      | ok c => exact .inr ⟨c, rfl, after_of_ok (Logging.currentThreshold_unset ht hs)⟩
      | error error => exact .inl (after_of_error (Logging.currentThreshold_error ht hs))

/-- **What the accesses preserve, the run preserves.** -/
theorem Uses.preserves {I : Store → Prop} {run : Run α} (h : run.Uses allowed)
    (hI : ∀ {β : Type} (x : Access β), x.kind ∈ allowed → ∀ s, I s → I (x.run.after s))
    {s : Store} (hs : I s) : I (run.after s) := by
  induction h generalizing s with
  | pure a => exact hs
  | throw error => exact hs
  | access x hx => exact hI x hx s hs
  | @bind α β run next _ _ ih ihn =>
      have hrun := ih hs
      cases hr : run s with
      | ok a t =>
          rw [after_of_ok hr] at hrun
          rw [after_bind_of_ok hr]
          exact ihn a hrun
      | error error t =>
          rw [after_of_error hr] at hrun
          rw [after_bind_of_error hr]
          exact hrun

end Run

def Calls.Steady (call : Calls) : Prop :=
  ∀ (f : FunctionRef) (arguments : List Value), (call f arguments).Uses Access.steady

theorem uses_invoke {call : Calls} {allowed : List Access.Kind}
    (hc : ∀ f arguments, (call f arguments).Uses allowed) (f : Value) (arguments : List Value) :
    (invoke call f arguments).Uses allowed := by
  cases f with
  | function f => exact hc f arguments
  | _ => exact .throw _

end Accrual
