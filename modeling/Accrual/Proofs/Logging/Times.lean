import Accrual.Proofs.Logging.Records
import Accrual.Proofs.Timestamps

/-!
# Timestamps order log entries

An entry shows its time as a text that is read back as the same time, and its
record tells this text, if no field of the context takes its place
(`LogEntry.showsTime`).  So entries stand in the order of these texts just where
they stand in the order of their times (`LogEntry.pairwise_isoText`).
-/

namespace Accrual

open Moment (InWrittenYears ofTime isoText ofIsoText? toTime)

namespace LogRecord

def timestamp? (line : List Char) : Option (List Char) :=
  match Json.parse? line with
  | some (.object fields) =>
      match fields.lookup "timestamp" with
      | some (.text s) => some s.toList
      | _ => none
  | _ => none

theorem timestamp?_of_parse? {line : List Char} {fields : Json.Fields} {time : List Char}
    (hparse : Json.parse? line = some (.object fields))
    (hlookup : fields.lookup "timestamp" = some (.text (String.ofList time))) :
    timestamp? line = some time := by
  simp only [timestamp?, hparse, hlookup, String.toList_ofList]

/-- **A record tells the time of its entry**, unless the context has a field of this name. -/
theorem timestamp?_line {entry : LogEntry} {fields : List (String × Value)}
    (hcontext : entry.context = Entries.ofTexts fields) (hnew : "timestamp" ∉ fields.map Prod.fst)
    {line : List Char} (h : LogRecord.line entry = .ok line) :
    ∃ time, entry.isoTime = .ok time ∧ timestamp? line = some time := by
  obtain ⟨time, reads, htime, -, hparse, hreads⟩ := line_reads hcontext h
  have hown : ("timestamp", Value.text (String.ofList time)) ∈ ownFields time entry := .head _
  have hlookup := Keyed.lookup_merge_left (nodup_ownFields time entry) hown hnew
  obtain ⟨read, hread, j, hj, hsame⟩ := Value.lookup_reads hreads hlookup
  obtain rfl : Json.text (String.ofList time) = j := Except.ok.inj hj
  rw [hsame.unique (Json.readsAs_text _)] at hread
  exact ⟨time, htime, timestamp?_of_parse? hparse hread⟩

end LogRecord

def Text.InOrder (texts : List (List Char)) : Prop :=
  texts.Pairwise fun text text' => ¬text' < text

namespace LogEntry

/-- The text shows the time of the entry: it is read as this time, and each record of the entry
tells it, where no field of the context takes its place. -/
structure ShowsTime (entry : LogEntry) (text : List Char) : Prop where
  isoTime : entry.isoTime = .ok text
  read : toTime <$> ofIsoText? text = some entry.time.micros
  told : ∀ fields line, entry.context = Entries.ofTexts fields →
    "timestamp" ∉ fields.map Prod.fst → LogRecord.line entry = .ok line →
      LogRecord.timestamp? line = some text

theorem showsTime {entry : LogEntry} (h : InWrittenYears entry.time.micros) :
    entry.ShowsTime (ofTime entry.time.micros).isoText := by
  have hiso : entry.isoTime = .ok (ofTime entry.time.micros).isoText :=
    Moment.isoText_momentOf h
  refine ⟨hiso, Moment.toTime_ofIsoText? h, fun fields line hcontext hnew hline => ?_⟩
  obtain ⟨time, htime, htold⟩ := LogRecord.timestamp?_line hcontext hnew hline
  rw [hiso] at htime
  cases htime
  exact htold

/-- **Entries in the order of their texts are in the order of their times**, and conversely. -/
theorem pairwise_isoText {entries : List LogEntry}
    (h : ∀ entry ∈ entries, InWrittenYears entry.time.micros) :
    Text.InOrder (entries.map fun entry => (ofTime entry.time.micros).isoText) ↔
      entries.Pairwise fun entry entry' => entry.time.micros ≤ entry'.time.micros := by
  rw [Text.InOrder, List.pairwise_map]
  refine List.Pairwise.iff_of_mem fun {entry entry'} hmem hmem' => ?_
  rw [← Moment.lt_iff_isoText_lt (h entry' hmem') (h entry hmem), Int.not_lt]

end LogEntry

/-- **Timestamps tell and order times.**  The text of a time in the years from 1 to 9999 is read, by
the calendar, as just this time, and the earlier of two times has the text that comes first.  So
entries of these years, or their records, are sorted by time when they are sorted by their texts,
though some of these have a fraction and some have none. -/
theorem timestamps_tell_times {time time' : Int} (h : InWrittenYears time)
    (h' : InWrittenYears time') {entries : List LogEntry}
    (hentries : ∀ entry ∈ entries, InWrittenYears entry.time.micros) :
    (∃ text text', isoText <$> momentOf time = .ok text ∧
      isoText <$> momentOf time' = .ok text' ∧ toTime <$> ofIsoText? text = some time ∧
      toTime <$> ofIsoText? text' = some time' ∧ (time < time' ↔ text < text')) ∧
    ∃ texts, List.Forall₂ LogEntry.ShowsTime entries texts ∧
      (Text.InOrder texts ↔
        entries.Pairwise fun entry entry' => entry.time.micros ≤ entry'.time.micros) := by
  refine ⟨⟨_, _, Moment.isoText_momentOf h, Moment.isoText_momentOf h',
    Moment.toTime_ofIsoText? h, Moment.toTime_ofIsoText? h', Moment.lt_iff_isoText_lt h h'⟩,
    _, ?_, LogEntry.pairwise_isoText hentries⟩
  rw [List.forall₂_map_right_iff, List.forall₂_same]
  exact fun entry hmem => LogEntry.showsTime (hentries entry hmem)

/-- The last microsecond before 1970 and the next one, and two entries in their order, the second
one with a fraction. -/
theorem timestamps_tell_times_around_1970 :
    let entries : List LogEntry := [⟨.zero, "info", .text "saved", []⟩,
      ⟨.ofReading 0 500000, "info", .text "sent", []⟩]
    "1969-12-31T23:59:59.999999+00:00".toList < "1970-01-01T00:00:00+00:00".toList ∧
    toTime <$> ofIsoText? "1969-12-31T23:59:59.999999+00:00".toList = some (-1) ∧
    ∃ texts, List.Forall₂ LogEntry.ShowsTime entries texts ∧ Text.InOrder texts := by
  intro entries
  have hzero : Seconds.zero.micros = 0 := rfl
  have hhalf : (Seconds.ofReading 0 500000).micros = 500000 := by decide +kernel
  have hentries : ∀ entry ∈ entries, InWrittenYears entry.time.micros := by
    simp only [entries, List.forall_mem_cons, hzero, hhalf]
    exact ⟨by decide, by decide, List.forall_mem_nil _⟩
  have hsorted : entries.Pairwise fun entry entry' => entry.time.micros ≤ entry'.time.micros := by
    simp [entries, hzero, hhalf]
  obtain ⟨⟨text, text', htext, htext', hread, -, hlt⟩, texts, htexts, hiff⟩ :=
    @timestamps_tell_times (-1) 0 (by decide) (by decide) entries hentries
  have hlast : isoText <$> momentOf (-1) = .ok "1969-12-31T23:59:59.999999+00:00".toList := by
    decide +kernel
  have hfirst : isoText <$> momentOf 0 = .ok "1970-01-01T00:00:00+00:00".toList := by
    decide +kernel
  obtain rfl := Except.ok.inj (htext.symm.trans hlast)
  obtain rfl := Except.ok.inj (htext'.symm.trans hfirst)
  exact ⟨hlt.mp (by decide), hread, texts, htexts, hiff.mpr hsorted⟩

end Accrual
