import Accrual.Run
import Accrual.Timestamp

/-!
# Log entries

An entry is what one call of a logger hands to a renderer.
-/

namespace Accrual

structure LogEntry where
  time : Seconds
  level : String
  event : Value
  context : Entries

namespace LogEntry

def toValue (entry : LogEntry) : Value :=
  .entry entry.time entry.level entry.event entry.context

def ofValue? : Value → Option LogEntry
  | .entry time level event context => some ⟨time, level, event, context⟩
  | _ => none

def isoTime (entry : LogEntry) : Except Error (List Char) :=
  Moment.isoText <$> momentOf entry.time.micros

def humanTime (entry : LogEntry) : Except Error (List Char) :=
  Moment.humanText <$> momentOf entry.time.micros

end LogEntry

end Accrual
