import Accrual.Proofs.Routing
import Accrual.Proofs.Values.Histories

/-!
# Contexts of loggers

The context of a logger changes by calls of `bind` and `unbind` only
(`ContextChange`).  What it is after any row of them is told from what happened
to its keys, those of the first context among them (`Logger.told_changed`).  Two
changes in a row are one change, or two in the other order (`Logger.bind_bind`,
`Logger.unbind_unbind`, `Logger.unbind_bind`), and a log call with fields is the
call without them of the logger with the fields bound (`Logger.send_log`).
-/

namespace Accrual

/-! ### Rows of changes -/

inductive ContextChange
  | bind (fields : List (String × Value))
  | unbind (keys : List Value)

namespace ContextChange

def method : ContextChange → Method
  | bind _ => .bind
  | unbind _ => .unbind

def arguments : ContextChange → Arguments
  | bind fields => ⟨[], fields⟩
  | unbind keys => ⟨keys, []⟩

/-- The call does not give the receiver by name. -/
def IsCall (change : ContextChange) : Prop := change.arguments.byName? "self" = none

def apply (logger : Logger) : ContextChange → Logger
  | bind fields => logger.bind (.ofTexts fields)
  | unbind keys => logger.unbind keys

def touches : ContextChange → List Touch
  | bind fields => fields.map fun field => .put (.text field.1) field.2
  | unbind keys => keys.map .drop

theorem isKey_of_touches {change : ContextChange} {key content : Value}
    (h : Touch.put key content ∈ change.touches) : key.IsKey := by
  cases change with
  | bind fields =>
      obtain ⟨field, -, hfield⟩ := List.mem_map.mp h
      cases hfield
      exact Value.isKey_text field.1
  | unbind keys =>
      obtain ⟨k, -, hk⟩ := List.mem_map.mp h
      cases hk

end ContextChange

/-- Touches of all keys at once, or one after the other. -/
theorem Touch.foldl_put (more entries : Entries) :
    (more.map fun e => Touch.put e.1 e.2).foldl (fun es touch => touch.apply es) entries =
      Keyed.merge entries more := List.foldl_map

theorem Touch.foldl_drop (keys : List Value) (entries : Entries) :
    (keys.map Touch.drop).foldl (fun es touch => touch.apply es) entries =
      Keyed.erase keys entries := by
  induction keys generalizing entries with
  | nil => exact (List.filter_eq_self.mpr fun _ _ => rfl).symm
  | cons key rest ih =>
      rw [List.map_cons, List.foldl_cons, ih, Touch.apply]
      exact Keyed.erase_erase (fun k => by rw [List.mem_singleton, List.mem_cons]) entries

namespace Logger

def changed (logger : Logger) (changes : List ContextChange) : Logger :=
  changes.foldl ContextChange.apply logger

/-- What happened to the keys of the context: those of the first context were put in first. -/
def history (logger : Logger) (changes : List ContextChange) : List Touch :=
  logger.context.map (fun e => .put e.1 e.2) ++ changes.flatMap ContextChange.touches

theorem context_apply (logger : Logger) (change : ContextChange) :
    (change.apply logger).context =
      change.touches.foldl (fun es touch => touch.apply es) logger.context := by
  cases change with
  | bind fields =>
      have htouches : (ContextChange.bind fields).touches =
          (Entries.ofTexts fields).map fun e => Touch.put e.1 e.2 := by
        rw [Entries.ofTexts, List.map_map]
        rfl
      rw [htouches, Touch.foldl_put]
      rfl
  | unbind keys => exact (Touch.foldl_drop keys logger.context).symm

theorem changed_cons (logger : Logger) (change : ContextChange) (rest : List ContextChange) :
    logger.changed (change :: rest) = (change.apply logger).changed rest := rfl

@[simp] theorem renderer_changed (logger : Logger) (changes : List ContextChange) :
    (logger.changed changes).renderer = logger.renderer := by
  induction changes generalizing logger with
  | nil => rfl
  | cons change rest ih =>
      rw [changed_cons, ih]
      cases change <;> rfl

@[simp] theorem threshold_changed (logger : Logger) (changes : List ContextChange) :
    (logger.changed changes).threshold = logger.threshold := by
  induction changes generalizing logger with
  | nil => rfl
  | cons change rest ih =>
      rw [changed_cons, ih]
      cases change <;> rfl

theorem context_changed (logger : Logger) (changes : List ContextChange) :
    (logger.changed changes).context =
      (changes.flatMap ContextChange.touches).foldl (fun es touch => touch.apply es)
        logger.context := by
  induction changes generalizing logger with
  | nil => rfl
  | cons change rest ih =>
      rw [changed_cons, ih, context_apply, List.flatMap_cons, List.foldl_append]

/-- **The context after any row of changes** is told from what happened to its keys. -/
theorem told_changed {logger : Logger} (h : logger.context.IsDictionary)
    (changes : List ContextChange) :
    Told (logger.history changes) (logger.changed changes).context := by
  have hfirst : Keyed.merge [] logger.context = logger.context := Keyed.merge_of_differ h.differ
  have hreplay : (logger.changed changes).context = Touch.replay (logger.history changes) := by
    rw [context_changed, Touch.replay, history, List.foldl_append, Touch.foldl_put, hfirst]
  rw [hreplay]
  refine told_replay fun key content hput => ?_
  obtain hcontext | hchanges := List.mem_append.mp hput
  · obtain ⟨e, he, hput⟩ := List.mem_map.mp hcontext
    cases hput
    exact h.keys e he
  · obtain ⟨change, -, hput⟩ := List.mem_flatMap.mp hchanges
    exact ContextChange.isKey_of_touches hput

/-! ### Changes as calls -/

theorem send_bind (call : Calls) (logger : Logger) {fields : List (String × Value)}
    (h : (ContextChange.bind fields).IsCall) :
    logger.toValue.send call Method.bind.label ⟨[], fields⟩ =
      pure (logger.bind (.ofTexts fields)).toValue := by
  have hnone : fields.find? (fun argument => ["self"].contains argument.1) = none := by
    rw [List.find?_eq_none]
    intro a ha hself
    exact Arguments.ne_of_byName?_none h a ha
      (List.mem_singleton.mp (List.contains_iff_mem.mp hself))
  have hsplit : Arguments.split "BoundLogger.bind" ["self"] [] ⟨[], fields⟩ =
      .ok ([], .ofTexts fields) := by
    have hall : fields.filter (fun argument => !([] : List String).contains argument.1) = fields :=
      List.filter_eq_self.mpr fun _ _ => rfl
    simp only [Arguments.split, List.take_nil, List.append_nil, hnone, hall]
    rfl
  have hfind : Method.find? call logger.toValue .bind = some fun arguments =>
      Run.ofExcept (arguments.split "BoundLogger.bind" ["self"] []) >>= fun sorted =>
        pure (logger.bind sorted.2).toValue := rfl
  rw [Method.send_of_find hfind, hsplit]
  rfl

theorem send_change (call : Calls) (logger : Logger) {change : ContextChange} (h : change.IsCall) :
    logger.toValue.send call change.method.label change.arguments =
      pure (change.apply logger).toValue := by
  cases change with
  | bind fields => exact send_bind call logger h
  | unbind keys =>
      have hfind : Method.find? call logger.toValue .unbind = some fun arguments =>
          Run.ofExcept (arguments.row "BoundLogger.unbind") >>= fun keys =>
            pure (logger.unbind keys).toValue := rfl
      exact Method.send_of_find hfind ⟨keys, []⟩

/-- **A row of calls** comes to the changed logger. -/
theorem send_changes (call : Calls) (logger : Logger) {changes : List ContextChange}
    (h : ∀ change ∈ changes, change.IsCall) :
    changes.foldlM (fun v change => v.send call change.method.label change.arguments)
      logger.toValue = pure (logger.changed changes).toValue := by
  induction changes generalizing logger with
  | nil => rfl
  | cons change rest ih =>
      obtain ⟨hchange, hrest⟩ := List.forall_mem_cons.mp h
      rw [List.foldlM_cons, send_change call logger hchange, pure_bind, ih _ hrest, changed_cons]

/-! ### Equations -/

/-- **Bound twice** is bound once, the first fields overridden by the second ones. -/
theorem bind_bind (logger : Logger) (first second : List (String × Value)) :
    (logger.bind (.ofTexts first)).bind (.ofTexts second) =
      logger.bind (.ofTexts (Keyed.merge (Keyed.ofList first) second)) := by
  have htogether : Keyed.merge (Keyed.ofList first) second = Keyed.ofList (first ++ second) :=
    (Keyed.merge_append [] first second).symm
  have hfields : Entries.ofTexts (first ++ second) =
      Entries.ofTexts first ++ Entries.ofTexts second := List.map_append
  simp only [bind, htogether, Keyed.merge_ofTexts_ofList, hfields, Keyed.merge_append]

/-- **Unbound twice** is unbound once, in any order and with any repetition. -/
theorem unbind_unbind (logger : Logger) {first second both : List Value}
    (h : ∀ key : Value, key ∈ both ↔ key ∈ first ∨ key ∈ second) :
    (logger.unbind first).unbind second = logger.unbind both := by
  simp only [unbind, Keyed.erase_erase h]

/-- **Bound and then unbound** is unbound, and then bound without the keys. -/
theorem unbind_bind (logger : Logger) (fields : List (String × Value)) (keys : List Value) :
    (logger.bind (.ofTexts fields)).unbind keys =
      (logger.unbind keys).bind
        (.ofTexts (fields.filter fun field => !keys.contains (.text field.1))) := by
  have hsame : ∀ e ∈ Entries.ofTexts fields, ∀ k : Value,
      (k == e.1) = true → keys.contains k = keys.contains e.1 := by
    intro e he k hk
    obtain ⟨field, -, rfl⟩ := List.mem_map.mp he
    exact Keyed.contains_congr (Value.beq_congr_text hk) keys
  have hleft : Keyed.erase keys (Entries.ofTexts fields) =
      Entries.ofTexts (fields.filter fun field => !keys.contains (.text field.1)) :=
    List.filter_map
  simp only [bind, unbind, Keyed.erase_merge hsame, hleft]

end Logger

/-! ### Fields of one call -/

namespace Arguments

def extra (arguments : Arguments) : List (String × Value) :=
  arguments.named.filter fun argument => !(["self", "level", "event"].contains argument.1)

def bare (arguments : Arguments) : Arguments :=
  { arguments with named :=
      arguments.named.filter fun argument => ["self", "level", "event"].contains argument.1 }

theorem byName?_bare (arguments : Arguments) {name : String}
    (h : name ∈ ["self", "level", "event"]) :
    arguments.bare.byName? name = arguments.byName? name := by
  have hlookup := Keyed.lookup_filter (fun n => ["self", "level", "event"].contains n) name
    arguments.named
  rw [List.contains_iff_mem.mpr h, if_pos rfl] at hlookup
  exact hlookup

theorem fields_bare (arguments : Arguments) : arguments.bare.fields = [] := by
  have hnone : arguments.bare.named.filter (fun argument =>
      !(["self", "level", "event"].contains argument.1)) = [] := by
    refine List.filter_eq_nil_iff.mpr fun a ha => ?_
    rw [(List.mem_filter.mp ha).2]
    exact Bool.false_ne_true
  rw [fields, hnone]
  rfl

/-- The parameters of a log call are told without the fields of its entry. -/
theorem split_bare (arguments : Arguments) (function : String) (parameters : List String)
    (h : parameters ⊆ ["level", "event"]) :
    (∃ error, arguments.split function ["self"] parameters = .error error ∧
        arguments.bare.split function ["self"] parameters = .error error) ∨
      ∃ values, arguments.byName? "self" = none ∧
        arguments.split function ["self"] parameters = .ok (values, .ofTexts
          (arguments.named.filter fun argument => !parameters.contains argument.1)) ∧
        arguments.bare.split function ["self"] parameters = .ok (values, .ofTexts
          (arguments.bare.named.filter fun argument => !parameters.contains argument.1)) := by
  have hreserved : ∀ name ∈ parameters, name ∈ ["self", "level", "event"] :=
    fun name hname => List.mem_cons_of_mem "self" (h hname)
  -- both find the same name that is given twice, if there is one
  have hfind : arguments.bare.named.find? (fun argument =>
        (["self"] ++ parameters.take arguments.positional.length).contains argument.1) =
      arguments.named.find? (fun argument =>
        (["self"] ++ parameters.take arguments.positional.length).contains argument.1) := by
    rw [bare, List.find?_filter]
    congr 1
    funext argument
    rw [Bool.eq_iff_iff, decide_eq_true_iff, and_iff_right_iff_imp, List.contains_iff_mem,
      List.contains_iff_mem]
    intro hmem
    obtain hself | hparameter := List.mem_append.mp hmem
    · rw [List.mem_singleton.mp hself]
      exact List.mem_cons_self
    · exact hreserved _ (List.mem_of_mem_take hparameter)
  have hgiven : (parameters.drop arguments.positional.length).map arguments.bare.byName? =
      (parameters.drop arguments.positional.length).map arguments.byName? :=
    List.map_congr_left fun name hname =>
      arguments.byName?_bare (hreserved name (List.mem_of_mem_drop hname))
  have hpositional : arguments.bare.positional = arguments.positional := rfl
  simp only [split, hpositional, hfind, hgiven]
  cases hnone : arguments.named.find? (fun argument =>
      (["self"] ++ parameters.take arguments.positional.length).contains argument.1) with
  | some argument => exact .inl ⟨_, rfl, rfl⟩
  | none =>
      dsimp only
      split
      · exact .inl ⟨_, rfl, rfl⟩
      · split
        next =>
          refine .inr ⟨_, ?_, rfl, rfl⟩
          refine List.lookup_eq_none_iff.mpr fun a ha => bne_iff_ne.mpr fun hself => ?_
          refine List.find?_eq_none.mp hnone a ha (List.contains_iff_mem.mpr ?_)
          rw [← hself]
          exact List.mem_cons_self
        next => exact .inl ⟨_, rfl, rfl⟩

/-- Where no reserved name is left over, what is left over are the fields of the entry. -/
theorem ofTexts_filter_bare {arguments : Arguments} {taken : List String}
    (htaken : taken ⊆ ["self", "level", "event"])
    (h : ∀ name ∈ ["self", "level", "event"], name ∉ taken → arguments.byName? name = none) :
    Entries.ofTexts (arguments.bare.named.filter fun argument => !taken.contains argument.1) =
      [] := by
  rw [ofTexts_filter_eq_fields htaken, fields_bare]
  intro name hname hnew
  rw [byName?_bare _ hname]
  exact h name hname hnew

end Arguments

/-- The call with its fields bound to the logger beforehand. -/
def LogCall.prebound (x : LogCall) : LogCall := ⟨x.logger.bind x.fields, x.level, x.event, []⟩

def Method.logging : List Method := [.log, .debug, .info, .warning, .error]

namespace Logger

theorem callAt_of_split {name : String} {logger : Logger} {arguments : Arguments} {event : Value}
    {fields : Entries} (level : LevelName)
    (h : arguments.split ("BoundLogger." ++ name) ["self"] ["event"] = .ok ([event], fields)) :
    logger.callAt name level arguments =
      if (fields.lookup (.text "level")).isSome then .error (.givenTwice "BoundLogger.log" "level")
      else .ok ⟨logger, .int level.number, event, fields⟩ := by
  rw [callAt, h]
  rfl

/-- What is left over besides the event holds the level if it is given by name. -/
theorem lookup_level (arguments : Arguments) :
    (Entries.ofTexts (arguments.named.filter fun argument =>
      !(["event"].contains argument.1))).lookup (.text "level") = arguments.byName? "level" := by
  rw [Entries.lookup_ofTexts]
  exact Keyed.lookup_filter (fun n => !(["event"].contains n)) "level" arguments.named

theorem callAt_bare (name : String) (level : LevelName) (logger : Logger)
    (arguments : Arguments) :
    (logger.bind arguments.fields).callAt name level arguments.bare =
      (logger.callAt name level arguments).map LogCall.prebound := by
  obtain ⟨error, herror, hbare⟩ | ⟨values, hself, hok, hbare⟩ :=
    arguments.split_bare ("BoundLogger." ++ name) ["event"] (by decide)
  · rw [callAt, callAt, herror, hbare]
    rfl
  · rcases values with _ | ⟨event, _ | _⟩
    · rw [callAt, callAt, hok, hbare]
      rfl
    · rw [callAt_of_split level hok, callAt_of_split level hbare, lookup_level, lookup_level,
        arguments.byName?_bare (by decide)]
      cases hlevel : arguments.byName? "level" with
      | some v => rfl
      | none =>
          have hreserved : ∀ name ∈ ["self", "level", "event"], name ∉ ["event"] →
              arguments.byName? name = none := by simp [hself, hlevel]
          rw [Arguments.ofTexts_filter_eq_fields (by decide) hreserved,
            Arguments.ofTexts_filter_bare (by decide) hreserved]
          rfl
    · rw [callAt, callAt, hok, hbare]
      rfl

/-- **Fields of a call** are fields that are bound beforehand. -/
theorem callOf_bare {logger : Logger} {method : Method}
    {sorted : Arguments → Except Error LogCall} (h : logger.callOf method = some sorted)
    (arguments : Arguments) :
    ∃ prebound, (logger.bind arguments.fields).callOf method = some prebound ∧
      prebound arguments.bare = (sorted arguments).map LogCall.prebound := by
  cases method <;> cases h
  case debug => exact ⟨_, rfl, callAt_bare _ _ _ _⟩
  case info => exact ⟨_, rfl, callAt_bare _ _ _ _⟩
  case warning => exact ⟨_, rfl, callAt_bare _ _ _ _⟩
  case error => exact ⟨_, rfl, callAt_bare _ _ _ _⟩
  case log =>
    refine ⟨_, rfl, ?_⟩
    dsimp only
    obtain ⟨error, herror, hbare⟩ | ⟨values, hself, hok, hbare⟩ :=
      arguments.split_bare "BoundLogger.log" ["level", "event"] (by decide)
    · rw [herror, hbare]
      rfl
    · have hreserved : ∀ name ∈ ["self", "level", "event"], name ∉ ["level", "event"] →
          arguments.byName? name = none := by simp [hself]
      rw [hok, hbare, Arguments.ofTexts_filter_eq_fields (by decide) hreserved,
        Arguments.ofTexts_filter_bare (by decide) hreserved]
      rcases values with _ | ⟨level, _ | ⟨event, _ | _⟩⟩ <;> rfl

/-- The fields of a call are no arguments of another name. -/
theorem isCall_extra (arguments : Arguments) : (ContextChange.bind arguments.extra).IsCall := by
  refine List.lookup_eq_none_iff.mpr fun a ha => bne_iff_ne.mpr fun hself => ?_
  have hextra := (List.mem_filter.mp ha).2
  rw [← hself] at hextra
  cases hextra

theorem exists_callOf (logger : Logger) {method : Method} (h : method ∈ Method.logging) :
    ∃ sorted, logger.callOf method = some sorted := by
  revert h
  cases method <;> intro h <;> first | exact ⟨_, rfl⟩ | exact absurd h (by decide)

/-- A log method that is called by its name sorts its arguments and makes its call. -/
theorem send_of_callOf (call : Calls) {logger : Logger} {method : Method}
    {sorted : Arguments → Except Error LogCall} (h : logger.callOf method = some sorted)
    (arguments : Arguments) :
    logger.toValue.send call method.label arguments =
      (Run.ofExcept (sorted arguments) >>= fun x => x.run >>= fun _ => pure .absent) := by
  have hname : (Method.ofName? method.label).bind logger.callOf = some sorted := by
    rw [Method.ofName?_label]
    exact h
  obtain ⟨bound, hmethod, hbound⟩ := Step.method_of_callOf call hname
  rw [Value.send, hmethod, pure_bind, hbound]

/-- **Fields of a log call** act on its entry as if they were bound before. -/
theorem send_log (call : Calls) (logger : Logger) {method : Method} (h : method ∈ Method.logging)
    (arguments : Arguments) :
    logger.toValue.send call method.label arguments =
      (logger.toValue.send call Method.bind.label ⟨[], arguments.extra⟩ >>= fun bound =>
        bound.send call method.label arguments.bare) := by
  obtain ⟨sorted, hsorted⟩ := logger.exists_callOf h
  obtain ⟨prebound, hprebound, hcall⟩ := callOf_bare hsorted arguments
  have hfields : Entries.ofTexts arguments.extra = arguments.fields := rfl
  rw [send_bind call logger (isCall_extra arguments), pure_bind, hfields,
    send_of_callOf call hsorted, send_of_callOf call hprebound, hcall]
  cases sorted arguments with
  | error error => rfl
  | ok x => rfl

/-- **Contexts form an algebra.**  Any row of calls of `bind` and `unbind` comes to a logger with
the same renderer and the same threshold.  Its context has each key with the content that was bound
to it last, or that it had at first, unless the key was unbound since then, and its keys stand in
the order in which they were put in first since they were taken out last.  Of two calls in a row,
two binds are one bind of the first fields overridden by the second ones, two unbinds are one unbind
of all their keys, and a bind and then an unbind is the unbind and then a bind of the other fields.
The fields of a log call act on its entry as a bind before it does, and no register but the one that
the step is kept in changes by a step. -/
theorem context_algebra (call : Calls) :
    (∀ (logger : Logger) (changes : List ContextChange), logger.context.IsDictionary →
      (∀ change ∈ changes, change.IsCall) →
      changes.foldlM (fun v change => v.send call change.method.label change.arguments)
          logger.toValue = pure (logger.changed changes).toValue ∧
        (logger.changed changes).renderer = logger.renderer ∧
        (logger.changed changes).threshold = logger.threshold ∧
        (logger.changed changes).context.IsDictionary ∧
        (∀ key : Value, key.IsKey →
          (logger.changed changes).context.lookup key =
            Touch.last? key (logger.history changes)) ∧
        ((logger.changed changes).context.map Prod.fst).Pairwise fun a b =>
          Touch.birth a (logger.history changes) < Touch.birth b (logger.history changes)) ∧
    (∀ (logger : Logger) (first second : List (String × Value)),
      (logger.bind (.ofTexts first)).bind (.ofTexts second) =
        logger.bind (.ofTexts (Keyed.merge (Keyed.ofList first) second))) ∧
    (∀ (logger : Logger) (first second both : List Value),
      (∀ key : Value, key ∈ both ↔ key ∈ first ∨ key ∈ second) →
      (logger.unbind first).unbind second = logger.unbind both) ∧
    (∀ (logger : Logger) (fields : List (String × Value)) (keys : List Value),
      (logger.bind (.ofTexts fields)).unbind keys =
        (logger.unbind keys).bind
          (.ofTexts (fields.filter fun field => !keys.contains (.text field.1)))) ∧
    (∀ (logger : Logger) (method : Method) (arguments : Arguments), method ∈ Method.logging →
      logger.toValue.send call method.label arguments =
        (logger.toValue.send call Method.bind.label ⟨[], arguments.extra⟩ >>= fun bound =>
          bound.send call method.label arguments.bare)) ∧
    ∀ (session : Session) (step : Step) (name : String), step.register ≠ some name →
      (session.step call step).2.registers.lookup name = session.registers.lookup name := by
  refine ⟨fun logger changes hcontext hcalls => ?_, bind_bind, fun logger first second both h => ?_,
    unbind_bind, fun logger method arguments h => ?_, fun session step name h => ?_⟩
  · have htold := told_changed hcontext changes
    exact ⟨send_changes call logger hcalls, renderer_changed logger changes,
      threshold_changed logger changes, htold.dictionary, htold.content, htold.order⟩
  · exact unbind_unbind logger h
  · exact send_log call logger h arguments
  · exact session.lookup_step h

/-- A key that is overridden stays in its place, and one that is unbound and bound again goes to the
end; keys that are not there, or given twice, make no difference. -/
theorem context_algebra_overlapping :
    let logger : Logger :=
      ⟨.ofTexts [("form", .text "a"), ("try", .int 1)], .absent, .int 10⟩
    let changes : List ContextChange :=
      [.bind [("try", .int 2), ("user", .int 7)],
        .unbind [.text "form", .text "none", .text "form"],
        .bind [("form", .text "b"), ("user", .int 8)]]
    let changed : Logger :=
      ⟨.ofTexts [("try", .int 2), ("user", .int 8), ("form", .text "b")], .absent, .int 10⟩
    changes.foldlM (fun v change => v.send Callback.calls change.method.label change.arguments)
        logger.toValue = pure changed.toValue ∧
      changed.context.lookup (.text "form") =
        Touch.last? (.text "form") (logger.history changes) ∧
      (changed.context.map Prod.fst).Pairwise (fun a b =>
        Touch.birth a (logger.history changes) < Touch.birth b (logger.history changes)) ∧
      (logger.unbind [.text "try"]).unbind [.text "form", .text "try"] =
        logger.unbind [.text "form", .text "try"] ∧
      logger.toValue.send Callback.calls "info" ⟨[.text "saved"], [("try", .int 3)]⟩ =
        (logger.toValue.send Callback.calls "bind" ⟨[], [("try", .int 3)]⟩ >>= fun bound =>
          bound.send Callback.calls "info" ⟨[.text "saved"], []⟩) := by
  intro logger changes changed
  obtain ⟨hchanges, -, hunbind, -, hlog, -⟩ := context_algebra Callback.calls
  have hcontext : logger.context.IsDictionary := Entries.isDictionary_ofTexts (by decide)
  have hcalls : ∀ change ∈ changes, change.IsCall :=
    List.forall_mem_cons.mpr
      ⟨rfl, List.forall_mem_cons.mpr ⟨rfl, List.forall_mem_singleton.mpr rfl⟩⟩
  obtain ⟨hrun, -, -, -, hlookup, horder⟩ := hchanges logger changes hcontext hcalls
  have hboth : ∀ key : Value, key ∈ [Value.text "form", .text "try"] ↔
      key ∈ [Value.text "try"] ∨ key ∈ [Value.text "form", .text "try"] := by
    intro key
    simp only [List.mem_cons, List.not_mem_nil, or_false]
    tauto
  exact ⟨hrun, hlookup (.text "form") rfl, horder, hunbind logger _ _ _ hboth,
    hlog logger .info ⟨[.text "saved"], [("try", .int 3)]⟩ (by decide)⟩

end Logger

end Accrual
