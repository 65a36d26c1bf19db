import Accrual.Proofs.Lines.Text
import Accrual.Proofs.Logging.Calls
import Accrual.Proofs.Logging.Encoding

/-!
# What log records tell

A record is one line, which the reader takes back (`IsRecord`).  If the context
keeps clear of the names that the fields of an entry have themselves, and all
values are plain, the line says everything that was logged (`record_decodes`),
up to the level from which on values are refused (`record_tooDeep`).  In general
the context goes before the fields of the entry: `record_tells` says what a
record tells under each name, and `record_hides_level` what it hides.
-/

namespace Accrual

open Text

/-- A text that is a record: one line, which is read as the data, and a line feed behind it. -/
def IsRecord (written : String) (j : Json) : Prop :=
  ∃ line, OneLine line ∧ written = String.ofList (line ++ ['\n']) ∧ Json.parse? line = some j

/-- The start of 1970. -/
theorem LogEntry.isoTime_zero (level : String) (event : Value) (context : Entries) :
    (⟨.zero, level, event, context⟩ : LogEntry).isoTime =
      .ok "1970-01-01T00:00:00+00:00".toList := by
  have hclock : momentOf Seconds.zero.micros = .ok ⟨⟨1970, 1, 1⟩, 0⟩ := by rfl
  have htext : Moment.isoText ⟨⟨1970, 1, 1⟩, 0⟩ = "1970-01-01T00:00:00+00:00".toList := by
    decide +kernel
  rw [isoTime, hclock, ← htext]
  rfl

namespace LogRecord

def ownFields (time : List Char) (entry : LogEntry) : List (String × Value) :=
  [("timestamp", .text (String.ofList time)), ("level", .text entry.level), ("event", entry.event)]

theorem nodup_ownFields (time : List Char) (entry : LogEntry) :
    ((ownFields time entry).map Prod.fst).Nodup := by
  simp [ownFields]

theorem fields_eq {entry : LogEntry} {fields : List (String × Value)}
    (hc : entry.context = Entries.ofTexts fields) (time : List Char) :
    LogRecord.fields time entry = Entries.ofTexts (Keyed.merge (ownFields time entry) fields) := by
  rw [LogRecord.fields, hc]
  exact Keyed.merge_ofTexts (ownFields time entry) fields

section

variable {entry : LogEntry} {fields : List (String × Value)}
  (hkeys : (fields.map Prod.fst).Nodup)
  (hown : ∀ name ∈ ["timestamp", "level", "event"], name ∉ fields.map Prod.fst)
include hkeys hown

/-- Where the context has none of the names of the fields of an entry, no name stands twice. -/
theorem nodup_fields (time : List Char) (entry : LogEntry) :
    ((ownFields time entry ++ fields).map Prod.fst).Nodup := by
  rw [List.map_append]
  refine List.nodup_append.mpr ⟨nodup_ownFields time entry, hkeys, ?_⟩
  rintro name hname _ hmem rfl
  exact hown name hname hmem

theorem fields_eq_append (hc : entry.context = Entries.ofTexts fields) (time : List Char) :
    LogRecord.fields time entry = Entries.ofTexts (ownFields time entry ++ fields) := by
  rw [fields_eq hc, Keyed.merge_of_nodup (nodup_fields hkeys hown time entry)]

/-- A record of plain values is plain. -/
theorem isPlain_fields {depth : Nat} (hevent : entry.event.IsPlain depth)
    (hfields : ∀ f ∈ fields, f.2.IsPlain depth) (time : List Char) :
    (Value.dictionary (Entries.ofTexts (ownFields time entry ++ fields))).IsPlain (depth + 1) := by
  refine .dictionary (nodup_fields hkeys hown time entry) (List.forall_mem_append.mpr ⟨?_, hfields⟩)
  simp only [ownFields, List.forall_mem_cons]
  exact ⟨.text _, .text _, hevent, List.forall_mem_nil _⟩

end

section

variable {entry : LogEntry} {time : List Char} (ht : entry.isoTime = .ok time)
include ht

theorem line_of_toJson {j : Json}
    (hj : (Value.dictionary (LogRecord.fields time entry)).toJson 1 = .ok j) :
    line entry = .ok j.print := by
  simp only [line, ht, bind, Except.bind, hj]
  rfl

theorem line_of_toJson_error {error : Error}
    (he : (Value.dictionary (LogRecord.fields time entry)).toJson 1 = .error error) :
    line entry = .error error := by
  simp only [line, ht, bind, Except.bind, he]

end

theorem line_of_isoTime_error {entry : LogEntry} {error : Error}
    (h : entry.isoTime = .error error) : line entry = .error error := by
  simp only [line, h]
  rfl

end LogRecord

namespace Renderer

theorem render_json_of_line {entry : LogEntry} {line : List Char}
    (h : LogRecord.line entry = .ok line) (stream : Stream) (s : Store) :
    (json (.stream stream)).render entry s =
      .ok () (s.writes [(stream, String.ofList (line ++ ['\n']))]) := by
  refine render_of_texts ?_ s
  change LogRecord.line entry >>= lineTo (.stream stream) = _
  rw [h]
  rfl

theorem render_json_of_line_error {entry : LogEntry} {error : Error}
    (h : LogRecord.line entry = .error error) (output : Value) (s : Store) :
    (json output).render entry s = .error error s := by
  refine render_of_texts_error ?_ s
  change LogRecord.line entry >>= lineTo output = _
  rw [h]
  rfl

section

variable {entry : LogEntry} {fields : List (String × Value)}
  (hcontext : entry.context = Entries.ofTexts fields) (hkeys : (fields.map Prod.fst).Nodup)
  (hown : ∀ name ∈ ["timestamp", "level", "event"], name ∉ fields.map Prod.fst)
  {depth : Nat} (hevent : entry.event.IsPlain depth) (hfields : ∀ f ∈ fields, f.2.IsPlain depth)
include hcontext hkeys hown hevent hfields

/-- **A record of plain values is refused** where its levels cannot be counted. -/
theorem record_tooDeep {room : Nat} (hroom : room + 3 = Value.levelCount)
    (hdeep : ¬entry.event.IsPlain room ∨ ∃ f ∈ fields, ¬f.2.IsPlain room) {time : List Char}
    (htime : entry.isoTime = .ok time) (output : Value) (s : Store) :
    (json output).render entry s = .error .tooDeep s := by
  have hplain := LogRecord.isPlain_fields hkeys hown hevent hfields time
  have hnot : ¬(Value.dictionary (Entries.ofTexts
      (LogRecord.ownFields time entry ++ fields))).IsPlain (room + 1) := by
    intro h
    obtain ⟨hown, hfields⟩ := List.forall_mem_append.mp h.of_dictionary
    obtain hdeep | ⟨f, hf, hdeep⟩ := hdeep
    · exact hdeep (hown ("event", entry.event) (.tail _ (.tail _ (.head _))))
    · exact hdeep (hfields f hf)
  have hrefused := hplain.toJson_tooDeep (by omega : 1 + (room + 1) + 1 = Value.levelCount) hnot
  rw [← LogRecord.fields_eq_append hkeys hown hcontext] at hrefused
  exact render_json_of_line_error (LogRecord.line_of_toJson_error htime hrefused) output s

/-- **Records of plain values come back.**  The record of an entry is one line, which is read as the
fields of the entry itself, followed by those of the context, each with its value and in the same
order, if no key of the context is the name of a field of the entry.  Nothing is written for a time
that has no written form. -/
theorem record_decodes (hdepth : depth + 2 < Value.levelCount) (stream : Stream) (s : Store) :
    (∀ error, entry.isoTime = .error error →
      (json (.stream stream)).render entry s = .error error s) ∧
    ∀ time, entry.isoTime = .ok time → ∃ written j,
      (json (.stream stream)).render entry s = .ok () (s.writes [(stream, written)]) ∧
      IsRecord written j ∧ j.data? =
        some (.dictionary (Entries.ofTexts (LogRecord.ownFields time entry ++ fields))) := by
  refine ⟨fun error ht => render_json_of_line_error (LogRecord.line_of_isoTime_error ht) _ s,
    fun time ht => ?_⟩
  have hplain := LogRecord.isPlain_fields hkeys hown hevent hfields time
  obtain ⟨j, hj, hread, hdata⟩ :=
    hplain.comesBack (by omega : 1 + (depth + 1) < Value.levelCount)
  rw [← LogRecord.fields_eq_append hkeys hown hcontext] at hj
  exact ⟨_, j, render_json_of_line (LogRecord.line_of_toJson ht hj) stream s,
    ⟨j.print, Json.oneLine_print j, rfl, Json.parse?_print hread⟩, hdata⟩

end

/-- Escapes in a text, lists inside each other, the widest integer, and the name of a field of the
entry inside a dictionary. -/
theorem record_decodes_nested :
    let fields : List (String × Value) :=
      [("path", .text "C:\\new\n\x01\x22😀\x22"),
        ("", .list [.absent, .list [.bool true, .int (-1)]]),
        ("sizes", .dictionary (Entries.ofTexts [("level", .int 18446744073709551615)]))]
    ∃ written j,
      (json (.stream .stdout)).render ⟨.zero, "info", .text "saved", Entries.ofTexts fields⟩ {} =
        .ok () (Store.writes [(.stdout, written)] {}) ∧
      IsRecord written j ∧
      j.data? = some (.dictionary (Entries.ofTexts ([
        ("timestamp", .text "1970-01-01T00:00:00+00:00"), ("level", .text "info"),
        ("event", .text "saved")] ++ fields))) := by
  intro fields
  have hlist : (Value.list [.absent, .list [.bool true, .int (-1)]]).IsPlain 2 := by
    refine .list ?_
    simp only [List.forall_mem_cons]
    refine ⟨.absent, .list ?_, List.forall_mem_nil _⟩
    simp only [List.forall_mem_cons]
    exact ⟨.bool true, .int (by decide) (by decide), List.forall_mem_nil _⟩
  have hsizes :
      (Value.dictionary (Entries.ofTexts [("level", .int 18446744073709551615)])).IsPlain 2 :=
    .dictionary (by decide) (List.forall_mem_singleton.mpr (.int (by decide) (by decide)))
  have hfields : ∀ f ∈ fields, f.2.IsPlain 2 := by
    simp only [fields, List.forall_mem_cons]
    exact ⟨.text _, hlist, hsizes, List.forall_mem_nil _⟩
  have h := (record_decodes rfl (by decide) (by decide) (.text "saved") hfields (by decide) .stdout
    {}).2 _ (LogEntry.isoTime_zero "info" (.text "saved") (Entries.ofTexts fields))
  rw [LogRecord.ownFields, String.ofList_toList] at h
  exact h

end Renderer

/-! ### What a record tells under a name -/

namespace Value

def IsReadAs (level : Nat) (v : Value) (read : Json) : Prop :=
  ∃ j, v.toJson level = .ok j ∧ j.ReadsAs read

def FieldIsReadAs (level : Nat) (field : String × Value) (read : String × Json) : Prop :=
  field.1 = read.1 ∧ field.2.IsReadAs level read.2

theorem exists_reads {level : Nat} {fields : List (String × Value)} {js : List Json}
    (h : contentsToJson level (Entries.ofTexts fields) = .ok js) :
    ∃ reads, List.Forall₂ Json.FieldReadsAs ((fields.map Prod.fst).zip js) reads ∧
      List.Forall₂ (FieldIsReadAs level) fields reads := by
  induction fields generalizing js with
  | nil =>
      cases h
      exact ⟨[], .nil, .nil⟩
  | cons field rest ih =>
      obtain ⟨j, hj, h⟩ := except_bind_ok h
      obtain ⟨js, hjs, h⟩ := except_bind_ok h
      cases h
      obtain ⟨read, hread⟩ := isReadable_of_toJson field.2 hj
      obtain ⟨reads, hforms, hfields⟩ := ih hjs
      exact ⟨(field.1, read) :: reads, .cons ⟨rfl, hread⟩ hforms,
        .cons ⟨rfl, j, hj, hread⟩ hfields⟩

theorem lookup_reads {level : Nat} {fields : List (String × Value)} {reads : Json.Fields}
    (h : List.Forall₂ (FieldIsReadAs level) fields reads) {name : String} {v : Value}
    (hv : fields.lookup name = some v) :
    ∃ read, reads.lookup name = some read ∧ v.IsReadAs level read := by
  induction h with
  | nil => cases hv
  | @cons field read fields reads hfield hfields ih =>
      obtain ⟨key, content⟩ := field
      obtain ⟨_, readContent⟩ := read
      obtain ⟨rfl, hcontent⟩ : key = _ ∧ content.IsReadAs level readContent := hfield
      rw [List.lookup_cons] at hv ⊢
      cases hkey : name == key with
      | true =>
          rw [hkey] at hv
          cases hv
          exact ⟨readContent, rfl, hcontent⟩
      | false =>
          rw [hkey] at hv
          exact ih hv

theorem names_of_reads {level : Nat} {fields : List (String × Value)} {reads : Json.Fields}
    (h : List.Forall₂ (FieldIsReadAs level) fields reads) :
    reads.map Prod.fst = fields.map Prod.fst := by
  induction h with
  | nil => rfl
  | cons hfield _ ih => rw [List.map_cons, List.map_cons, ih, hfield.1]

/-- A plain value is told as it is. -/
theorem IsReadAs.data?_of_isPlain {level depth : Nat} {v : Value} {read : Json}
    (h : v.IsReadAs level read) (hv : v.IsPlain depth) (hlevel : level + depth < levelCount) :
    read.data? = some v := by
  obtain ⟨j, hj, hread⟩ := h
  obtain ⟨j', hj', hsame, hdata⟩ := hv.comesBack hlevel
  rw [hj] at hj'
  cases hj'
  rw [hread.unique hsame, hdata]

end Value

namespace LogRecord

/-- **Every line is read**, with its own fields overridden and extended by those of the context. -/
theorem line_reads {entry : LogEntry} {fields : List (String × Value)}
    (hc : entry.context = Entries.ofTexts fields) {cs : List Char} (h : line entry = .ok cs) :
    ∃ time reads, entry.isoTime = .ok time ∧ OneLine cs ∧ Json.parse? cs = some (.object reads) ∧
      List.Forall₂ (Value.FieldIsReadAs 2) (Keyed.merge (ownFields time entry) fields) reads := by
  obtain ⟨time, ht, h⟩ := except_bind_ok h
  obtain ⟨j, hj, h⟩ := except_bind_ok h
  cases h
  rw [fields_eq hc, Value.toJson] at hj
  obtain ⟨inside, hlevel, hj⟩ := except_bind_ok hj
  obtain ⟨names, hnames, hj⟩ := except_bind_ok hj
  obtain ⟨js, hjs, hj⟩ := except_bind_ok hj
  cases hj
  cases hlevel
  rw [Value.keyNames_ofTexts] at hnames
  cases hnames
  obtain ⟨reads, hforms, hreads⟩ := Value.exists_reads hjs
  have hnodup : (reads.map Prod.fst).Nodup := by
    rw [Value.names_of_reads hreads]
    exact Keyed.nodup_merge (nodup_ownFields time entry) fields
  have hread := Json.readsAs_object hforms
  rw [Keyed.ofList_of_nodup hnodup] at hread
  exact ⟨time, reads, ht, Json.oneLine_print _, Json.parse?_print hread, hreads⟩

end LogRecord

/-- The fields of a record tell a value under a name, a plain one as it is. -/
def Json.Tell (decoded : Json.Fields) (name : String) (v : Value) : Prop :=
  ∃ read, decoded.lookup name = some read ∧
    ∀ depth, v.IsPlain depth → depth + 2 < Value.levelCount → read.data? = some v

theorem Json.tell_of_reads {fields : List (String × Value)} {reads : Json.Fields}
    (h : List.Forall₂ (Value.FieldIsReadAs 2) fields reads) {name : String} {v : Value}
    (hv : fields.lookup name = some v) : Json.Tell reads name v := by
  obtain ⟨read, hlookup, hread⟩ := Value.lookup_reads h hv
  exact ⟨read, hlookup, fun depth hplain hdepth => hread.data?_of_isPlain hplain (by omega)⟩

namespace LogCall

/-- **What the record of a call tells.**  A call that reaches its threshold on a logger with a
renderer of records stops before anything is written, which it never does if the level can be
written out and the renderer can encode the entry, or it writes one record.  The record tells each
field of the entry itself whose name is no key of the context, and each field of the context. -/
theorem record_tells {x : LogCall} {level threshold : Int} (hlevel : x.level = .int level)
    (hthreshold : x.logger.threshold = .int threshold) (h : threshold ≤ level)
    {fields : List (String × Value)} (hcontext : x.context = Entries.ofTexts fields)
    (hkeys : (fields.map Prod.fst).Nodup) {s t : Store} {output : Value}
    (hr : x.logger.activeRenderer s = .ok (.json output) t) :
    let entry := x.entry t.surroundings.clock level
    ((Value.int level).isWritable = true →
      (Renderer.json output).CanEncode entry.time entry.context → entry.event.IsEncodable →
      ∃ u, x.run s = .ok () u) ∧
    ((∃ error, x.run s = .error error t) ∨ ∃ stream written decoded time,
      output = .stream stream ∧ x.run s = .ok () (t.writes [(stream, written)]) ∧
      IsRecord written (.object decoded) ∧ entry.isoTime = .ok time ∧
      (∀ own ∈ LogRecord.ownFields time entry,
        own.1 ∉ fields.map Prod.fst → Json.Tell decoded own.1 own.2) ∧
      ∀ f ∈ fields, Json.Tell decoded f.1 f.2) := by
  intro entry
  have hrun : x.run s = x.handTo level (.json output) t := run_reaching hlevel hthreshold h hr
  have hcontext : entry.context = Entries.ofTexts fields := hcontext
  rw [hrun]
  by_cases hshort : (Value.int level).isWritable = true
  swap
  · exact ⟨fun hw => absurd hw hshort, .inl ⟨_, if_neg hshort⟩⟩
  rw [handTo_of_isWritable hshort, Renderer.render_eq]
  refine ⟨fun _ hencode hevent => ?_, ?_⟩
  · have htexts : entry.context.HaveTextKeys := by
      rw [hcontext]
      exact Entries.haveTextKeys_ofTexts fields
    obtain ⟨texts, ht⟩ := Renderer.texts_json_of_canEncode hencode htexts hevent
    rw [ht]
    exact ⟨_, rfl⟩
  · cases ht : (Renderer.json output).texts entry with
    | error error => exact .inl ⟨error, rfl⟩
    | ok texts =>
        obtain ⟨line, hline, ht⟩ := except_bind_ok ht
        obtain ⟨time, reads, htime, hone, hparse, hreads⟩ := LogRecord.line_reads hcontext hline
        cases output with
        | stream stream =>
            cases ht
            refine .inr ⟨stream, _, reads, time, rfl, rfl, ⟨line, hone, rfl, hparse⟩, htime,
              fun own hown hnew => Json.tell_of_reads hreads ?_,
              fun f hf => Json.tell_of_reads hreads ?_⟩
            · exact Keyed.lookup_merge_left (LogRecord.nodup_ownFields time entry) hown hnew
            · exact Keyed.lookup_merge_right hkeys hf _
        | _ => cases ht

/-- A bound level and a list in the fields of the call. -/
theorem record_tells_bound_level :
    let x : LogCall := ⟨Logger.bind (Entries.ofTexts [("level", .text "high")])
      ⟨[], .jsonRenderer (.stream .buffer), .int 10⟩, .int 20, .text "saved",
      Entries.ofTexts [("attempts", .list [.int 2, .absent])]⟩
    ∃ written decoded, x.run {} = .ok () (Store.writes [(.buffer, written)] {}) ∧
      IsRecord written (.object decoded) ∧
      Json.Tell decoded "timestamp" (.text "1970-01-01T00:00:00+00:00") ∧
      Json.Tell decoded "event" (.text "saved") ∧ Json.Tell decoded "level" (.text "high") ∧
      Json.Tell decoded "attempts" (.list [.int 2, .absent]) := by
  intro x
  let fields : List (String × Value) :=
    [("level", .text "high"), ("attempts", .list [.int 2, .absent])]
  have hcontext : x.context = Entries.ofTexts fields := rfl
  obtain ⟨hgoes, htells⟩ := record_tells rfl rfl (by decide) hcontext (by decide) (s := {}) rfl
  have hclock : momentOf Seconds.zero.micros = .ok ⟨⟨1970, 1, 1⟩, 0⟩ := by rfl
  have hencode : ∀ e ∈ Entries.ofTexts fields, e.2.IsEncodable := by
    simp only [Entries.ofTexts, fields, List.map_cons, List.forall_mem_cons]
    exact ⟨⟨_, rfl⟩, ⟨_, rfl⟩, List.forall_mem_nil _⟩
  have hshort : (Value.int 20).isWritable = true := LevelName.info.isWritable_number
  obtain ⟨u, hu⟩ := hgoes hshort ⟨⟨.buffer, rfl⟩, ⟨_, hclock⟩, hencode⟩ ⟨_, rfl⟩
  obtain ⟨error, herror⟩ | ⟨stream, written, decoded, time, houtput, hrun, hrecord, htime, hown,
    hfields⟩ := htells
  · rw [hu] at herror
    cases herror
  · cases houtput
    have htext : String.ofList time = "1970-01-01T00:00:00+00:00" := by
      obtain rfl : _ = time := Except.ok.inj ((LogEntry.isoTime_zero _ _ _).symm.trans htime)
      exact String.ofList_toList
    have hnew : "timestamp" ∉ fields.map Prod.fst := by decide
    have htimestamp := hown ("timestamp", .text (String.ofList time)) (.head _) hnew
    rw [htext] at htimestamp
    exact ⟨written, decoded, hrun, hrecord, htimestamp,
      hown ("event", .text "saved") (.tail _ (.tail _ (.head _))) (by decide),
      hfields ("level", .text "high") (.head _),
      hfields ("attempts", .list [.int 2, .absent]) (.tail _ (.head _))⟩

/-- A level in the context takes the place of the level of the call. -/
theorem record_hides_level :
    let x : LogCall := ⟨Logger.bind (Entries.ofTexts [("level", .text "high")])
      ⟨[], .jsonRenderer (.stream .buffer), .int 10⟩, .int 20, .text "saved", []⟩
    Logging.levelText 20 = "info" ∧ ∃ written decoded,
      x.run {} = .ok () (Store.writes [(.buffer, written)] {}) ∧
      IsRecord written (.object decoded) ∧ decoded.lookup "level" = some (.text "high") := by
  intro x
  let decoded : Json.Fields :=
    [("timestamp", .text "1970-01-01T00:00:00+00:00"), ("level", .text "high"),
      ("event", .text "saved")]
  have hfields : LogRecord.fields "1970-01-01T00:00:00+00:00".toList (x.entry .zero 20) =
      Entries.ofTexts [("timestamp", .text "1970-01-01T00:00:00+00:00"), ("level", .text "high"),
        ("event", .text "saved")] := by
    have hcontext : (x.entry .zero 20).context = Entries.ofTexts [("level", .text "high")] := rfl
    rw [LogRecord.fields_eq hcontext, LogRecord.ownFields, String.ofList_toList]
    rfl
  have htime : (x.entry .zero 20).isoTime = .ok "1970-01-01T00:00:00+00:00".toList :=
    LogEntry.isoTime_zero _ _ _
  have hline := LogRecord.line_of_toJson (j := .object decoded) htime (by rw [hfields]; rfl)
  have hread : Json.ReadsAs (.object decoded) (.object decoded) :=
    Json.readsAs_object (.cons ⟨rfl, Json.readsAs_text _⟩ (.cons ⟨rfl, Json.readsAs_text _⟩
      (.cons ⟨rfl, Json.readsAs_text _⟩ .nil)))
  have hrun : x.run {} = (Renderer.json (.stream .buffer)).render (x.entry .zero 20) {} :=
    (run_own rfl rfl (by decide) rfl {}).trans
      (handTo_of_isWritable LevelName.info.isWritable_number _ x {})
  exact ⟨rfl, _, decoded, hrun.trans (Renderer.render_json_of_line hline .buffer {}),
    ⟨_, Json.oneLine_print _, rfl, Json.parse?_print hread⟩, rfl⟩

end LogCall

end Accrual
