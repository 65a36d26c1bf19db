import Accrual.Log.Logger
import Accrual.Proofs.Logging.Sorted
import Accrual.Proofs.Run
import Accrual.Proofs.Values.Writable

/-!
# What a renderer writes

Rendering an entry comes to texts for streams, or to an error before anything is
written (`Renderer.texts`, `render_eq`).  A renderer can encode a context if its
output is a stream, the time has a written form wherever it is shown, and every
value can be written out or, for structured records, has a structured form
(`Renderer.CanEncode`).  Then every entry at that time whose event is a text and
whose context has texts for keys is written, as one record at most
(`texts_of_canEncode`).
-/

namespace Accrual

namespace Renderer

/-! ### The texts of an entry -/

def lineTo (output : Value) (line : List Char) : Except Error (List (Stream × String)) :=
  match output with
  | .stream stream => .ok [(stream, String.ofList (line ++ ['\n']))]
  | other => .error (.noAttribute other.typeName "write")

/-- What a renderer writes for an entry. -/
def texts (entry : LogEntry) : Renderer → Except Error (List (Stream × String))
  | console output colors showTimestamp =>
      Console.line (palette colors) showTimestamp entry >>= lineTo output
  | json output => LogRecord.line entry >>= lineTo output
  | silent => .ok []

end Renderer

def Store.writes (texts : List (Stream × String)) (s : Store) : Store :=
  { s with written := s.written ++ texts }

@[simp] theorem Store.writes_nil (s : Store) : s.writes [] = s := by
  simp [Store.writes]

namespace Renderer

theorem writeLine_eq (output : Value) (line : List Char) (s : Store) :
    writeLine output line s =
      match lineTo output line with
      | .ok texts => .ok () (s.writes texts)
      | .error error => .error error s := by
  cases output with
  | stream stream => rfl
  | _ => simp only [writeLine, lineTo, Run.throw_apply]

/-- A line is written if it could be built; it is built before the output is looked at. -/
theorem writeBuilt_eq (output : Value) (built : Except Error (List Char)) (s : Store) :
    (match built with
      | .ok line => writeLine output line
      | .error error => throw error : Run Unit) s =
      match built >>= lineTo output with
      | .ok texts => .ok () (s.writes texts)
      | .error error => .error error s := by
  cases built with
  | error error => rfl
  | ok line => exact writeLine_eq output line s

/-- **Rendering** writes the texts of the entry, or stops with an error and writes nothing. -/
theorem render_eq (entry : LogEntry) (r : Renderer) (s : Store) :
    r.render entry s =
      match r.texts entry with
      | .ok texts => .ok () (s.writes texts)
      | .error error => .error error s := by
  cases r with
  | console output colors showTimestamp => exact writeBuilt_eq output _ s
  | json output => exact writeBuilt_eq output _ s
  | silent =>
      change EStateM.Result.ok () s = .ok () (s.writes [])
      rw [Store.writes_nil]

theorem render_of_texts {entry : LogEntry} {r : Renderer} {texts : List (Stream × String)}
    (h : r.texts entry = .ok texts) (s : Store) : r.render entry s = .ok () (s.writes texts) := by
  rw [render_eq, h]

theorem render_of_texts_error {entry : LogEntry} {r : Renderer} {error : Error}
    (h : r.texts entry = .error error) (s : Store) : r.render entry s = .error error s := by
  rw [render_eq, h]

theorem texts_of_render_ok {entry : LogEntry} {r : Renderer} {s t : Store}
    (h : r.render entry s = .ok () t) :
    ∃ texts, r.texts entry = .ok texts ∧ t = s.writes texts := by
  rw [render_eq] at h
  cases ht : r.texts entry with
  | ok texts =>
      rw [ht] at h
      cases h
      exact ⟨texts, rfl, rfl⟩
  | error error =>
      rw [ht] at h
      cases h

/-- **One record** is written, or none by a silent renderer. -/
theorem length_texts {entry : LogEntry} {r : Renderer} {texts : List (Stream × String)}
    (h : r.texts entry = .ok texts) :
    texts.length ≤ 1 ∧ (texts.length = 1 ↔ r ≠ .silent) := by
  have hline : ∀ (output : Value) (line : Except Error (List Char)),
      (line >>= lineTo output) = .ok texts → texts.length = 1 := by
    rintro output (error | line) hl
    · cases hl
    · cases output <;> cases hl
      rfl
  cases r with
  | console output colors showTimestamp => simp [hline _ _ h]
  | json output => simp [hline _ _ h]
  | silent =>
      cases h
      simp

end Renderer

/-! ### Lines of the console -/

/-- All that a line of the entry shows can be written out. -/
structure LogEntry.IsWritable (entry : LogEntry) : Prop where
  event : entry.event.isWritable = true
  context : ∀ e ∈ entry.context, e.2.isWritable = true

namespace Console

/-- The sorted pairs of an entry, provided that all that its line shows can be written out. -/
def shownPairs (entry : LogEntry) : Except Error Entries := do
  entry.event.checkWritable
  let pairs ← sortedPairs entry.context
  (Value.dictionary pairs).checkWritable
  return pairs

theorem shownPairs_eq {entry : LogEntry} {pairs : Entries}
    (h : sortedPairs entry.context = .ok pairs) :
    shownPairs entry =
      if entry.event.isWritable && Value.areEntriesWritable pairs then .ok pairs
      else .error .numberTooLong := by
  have hpairs : (Value.dictionary pairs).isWritable = Value.areEntriesWritable pairs := rfl
  simp only [shownPairs, h, Value.checkWritable, hpairs, bind, Except.bind]
  cases entry.event.isWritable <;> cases Value.areEntriesWritable pairs <;> rfl

/-- Whether the pairs can be written out is a matter of the contents. -/
theorem areEntriesWritable_of_sortedPairs {context pairs : Entries} (h : context.HaveTextKeys)
    (hs : sortedPairs context = .ok pairs) :
    Value.areEntriesWritable pairs = true ↔ ∀ e ∈ context, e.2.isWritable = true := by
  rw [Value.areEntriesWritable_iff]
  refine ⟨fun hw e he => (hw e ((perm_of_sortedPairs h hs).symm.subset he)).2, fun hw e he => ?_⟩
  have hmem := (perm_of_sortedPairs h hs).subset he
  obtain ⟨key, hkey⟩ := h e hmem
  exact ⟨by rw [hkey]; rfl, hw e hmem⟩

theorem shownPairs_ok {entry : LogEntry} (hk : entry.context.HaveTextKeys)
    (hw : entry.IsWritable) : ∃ pairs, shownPairs entry = .ok pairs := by
  obtain ⟨pairs, hpairs⟩ := sortedPairs_ok hk
  refine ⟨pairs, (shownPairs_eq hpairs).trans (if_pos ?_)⟩
  rw [hw.event, (areEntriesWritable_of_sortedPairs hk hpairs).mpr hw.context]
  rfl

theorem shownPairs_refused {entry : LogEntry} (hk : entry.context.HaveTextKeys)
    (hw : ¬entry.IsWritable) : shownPairs entry = .error .numberTooLong := by
  obtain ⟨pairs, hpairs⟩ := sortedPairs_ok hk
  refine (shownPairs_eq hpairs).trans (if_neg fun h => hw ?_)
  obtain ⟨hevent, hcontext⟩ := Bool.and_eq_true_iff.mp h
  exact ⟨hevent, (areEntriesWritable_of_sortedPairs hk hpairs).mp hcontext⟩

def lineOf (palette : Palette) (entry : LogEntry) (time : List (List Char)) (pairs : Entries) :
    List Char :=
  joined (time ++
    [palette.level entry.level ++ '[' :: entry.level.toList ++ ']' :: palette.reset,
      palette.bold ++ entry.event.plain ++ palette.reset] ++
    pairs.map (formatPair palette))

section

variable {palette : Palette} {showTimestamp : Bool} {entry : LogEntry}

/-- A line is put together once its parts are there. -/
theorem line_eq : line palette showTimestamp entry = do
    let time ← timePart palette showTimestamp entry
    let pairs ← shownPairs entry
    return lineOf palette entry time pairs := by
  rw [line, shownPairs]
  simp only [bind_assoc, pure_bind]
  rfl

/-- A line that there is has these parts. -/
theorem parts_of_line {cs : List Char} (h : line palette showTimestamp entry = .ok cs) :
    ∃ time pairs, timePart palette showTimestamp entry = .ok time ∧
      sortedPairs entry.context = .ok pairs ∧ cs = lineOf palette entry time pairs := by
  obtain ⟨time, ht, h⟩ := except_bind_ok h
  obtain ⟨-, -, h⟩ := except_bind_ok h
  obtain ⟨pairs, hp, h⟩ := except_bind_ok h
  obtain ⟨-, -, h⟩ := except_bind_ok h
  cases h
  exact ⟨time, pairs, ht, hp, rfl⟩

theorem line_ok (ht : showTimestamp = true → ∃ m, momentOf entry.time.micros = .ok m)
    (hk : entry.context.HaveTextKeys) (hw : entry.IsWritable) :
    ∃ cs, line palette showTimestamp entry = .ok cs := by
  obtain ⟨pairs, hpairs⟩ := shownPairs_ok hk hw
  have htime : ∃ time, timePart palette showTimestamp entry = .ok time := by
    cases showTimestamp with
    | false => exact ⟨[], rfl⟩
    | true =>
        obtain ⟨m, hm⟩ := ht rfl
        simp only [timePart, LogEntry.humanTime, hm]
        exact ⟨_, rfl⟩
  obtain ⟨time, htime⟩ := htime
  rw [line_eq, htime, hpairs]
  exact ⟨_, rfl⟩

end

end Console

/-- A console writes the line of an entry once its parts are known. -/
theorem Renderer.texts_console {entry : LogEntry} {colors : Value} {showTimestamp : Bool}
    {time : List (List Char)} {pairs : Entries}
    (ht : Console.timePart (palette colors) showTimestamp entry = .ok time)
    (hp : Console.sortedPairs entry.context = .ok pairs) (he : entry.event.isWritable = true)
    (hw : Value.areEntriesWritable pairs = true) (stream : Stream) :
    (console (.stream stream) colors showTimestamp).texts entry =
      .ok [(stream,
        String.ofList (Console.lineOf (palette colors) entry time pairs ++ ['\n']))] := by
  simp only [texts, Console.line_eq, ht, Console.shownPairs_eq hp, he, hw]
  rfl

/-! ### Structured forms -/

namespace Value

def IsEncodable (v : Value) : Prop := ∃ j, v.toJson 2 = .ok j

theorem isEncodable_text (s : String) : (text s).IsEncodable := ⟨_, rfl⟩

theorem isEncodable_int {n : Int} (h : isWide n = false) : (int n).IsEncodable :=
  ⟨.int n, by simp [toJson, h]⟩

theorem toJsons_texts (level : Nat) (ss : List String) :
    toJsons level (ss.map text) = .ok (ss.map Json.text) := by
  induction ss with
  | nil => rfl
  | cons s rest ih =>
      simp only [List.map_cons, toJsons, ih]
      rfl

theorem isEncodable_texts (ss : List String) : (list (ss.map text)).IsEncodable := by
  refine ⟨.array (ss.map Json.text), ?_⟩
  have hlevel : levelInside 2 = .ok 3 := rfl
  simp only [toJson, hlevel, toJsons_texts]
  rfl

theorem keyNames_ok {entries : Entries} (h : entries.HaveTextKeys) :
    ∃ names, keyNames entries = .ok names := by
  induction entries with
  | nil => exact ⟨[], rfl⟩
  | cons entry rest ih =>
      obtain ⟨⟨k, hk⟩, hrest⟩ := List.forall_mem_cons.mp h
      obtain ⟨names, hnames⟩ := ih hrest
      obtain ⟨key, v⟩ := entry
      cases hk
      simp only [keyNames, keyName, hnames]
      exact ⟨_, rfl⟩

theorem contentsToJson_ok {entries : Entries} (h : ∀ e ∈ entries, e.2.IsEncodable) :
    ∃ js, contentsToJson 2 entries = .ok js := by
  induction entries with
  | nil => exact ⟨[], rfl⟩
  | cons entry rest ih =>
      obtain ⟨⟨j, hj⟩, hrest⟩ := List.forall_mem_cons.mp h
      obtain ⟨js, hjs⟩ := ih hrest
      simp only [contentsToJson, hj, hjs]
      exact ⟨_, rfl⟩

end Value

/-- The entries can be the context of a record: all keys are texts, all values have a structured
form. -/
def Entries.AreEncodable (entries : Entries) : Prop :=
  ∀ e ∈ entries, (∃ key, e.1 = .text key) ∧ e.2.IsEncodable

theorem Entries.AreEncodable.merge {more entries : Entries} (hm : more.AreEncodable)
    (h : entries.AreEncodable) : Entries.AreEncodable (Keyed.merge entries more) :=
  Keyed.forall_mem_merge (K := fun key => ∃ s, key = Value.text s) (C := Value.IsEncodable) hm h

namespace LogRecord

theorem line_ok {entry : LogEntry} (ht : ∃ m, momentOf entry.time.micros = .ok m)
    (he : entry.event.IsEncodable) (hc : entry.context.AreEncodable) :
    ∃ cs, line entry = .ok cs := by
  obtain ⟨m, hm⟩ := ht
  have hfields : Entries.AreEncodable (fields m.isoText entry) := by
    refine hc.merge (Entries.forall_mem_ofTexts ?_)
    simp [Value.isEncodable_text, he]
  obtain ⟨names, hnames⟩ := Value.keyNames_ok fun e he => (hfields e he).1
  obtain ⟨js, hjs⟩ := Value.contentsToJson_ok fun e he => (hfields e he).2
  have hlevel : Value.levelInside 1 = .ok 2 := rfl
  have hiso : entry.isoTime = .ok m.isoText := by rw [LogEntry.isoTime, hm]; rfl
  simp only [line, hiso, bind, Except.bind, Value.toJson, hlevel, hnames, hjs]
  exact ⟨_, rfl⟩

end LogRecord

/-! ### What a renderer can encode -/

namespace Renderer

/-- The renderer can encode records at this time with these values in their context. -/
def CanEncode (time : Seconds) (context : Entries) : Renderer → Prop
  | console output _ showTimestamp =>
      (∃ stream, output = .stream stream) ∧
        (showTimestamp = true → ∃ m, momentOf time.micros = .ok m) ∧
        ∀ e ∈ context, e.2.isWritable = true
  | json output =>
      (∃ stream, output = .stream stream) ∧ (∃ m, momentOf time.micros = .ok m) ∧
        ∀ e ∈ context, e.2.IsEncodable
  | silent => True

/-- A structured record takes every event that has a structured form, and not texts only. -/
theorem texts_json_of_canEncode {entry : LogEntry} {output : Value}
    (h : (json output).CanEncode entry.time entry.context) (hk : entry.context.HaveTextKeys)
    (he : entry.event.IsEncodable) : ∃ texts, (json output).texts entry = .ok texts := by
  obtain ⟨⟨stream, rfl⟩, ht, hv⟩ := h
  obtain ⟨line, hline⟩ := LogRecord.line_ok ht he fun e hm => ⟨hk e hm, hv e hm⟩
  simp only [texts, hline]
  exact ⟨_, rfl⟩

theorem texts_of_canEncode {entry : LogEntry} {r : Renderer}
    (h : r.CanEncode entry.time entry.context) (hk : entry.context.HaveTextKeys)
    {event : String} (he : entry.event = .text event) : ∃ texts, r.texts entry = .ok texts := by
  cases r with
  | console output colors showTimestamp =>
      obtain ⟨⟨stream, rfl⟩, ht, hv⟩ := h
      have hevent : entry.event.isWritable = true := by rw [he]; rfl
      obtain ⟨line, hline⟩ : ∃ line, Console.line (palette colors) showTimestamp entry = .ok line :=
        Console.line_ok ht hk ⟨hevent, hv⟩
      simp only [texts, hline]
      exact ⟨_, rfl⟩
  | json output =>
      refine texts_json_of_canEncode h hk ?_
      rw [he]
      exact Value.isEncodable_text event
  | silent => exact ⟨[], rfl⟩

end Renderer

end Accrual
