import Accrual.Log.Entry
import Accrual.Sorting
import Accrual.Text.Blank
import Accrual.Value.Order
import Accrual.Value.Text

/-!
# Console lines

A console line shows the time of day, the level in brackets, the event, and the context as pairs
`key=value` in the order of their keys. A text value with a blank in it is quoted. There is no line
for an entry with a number that is too long to be written out.
-/

namespace Accrual.Console

/-- The codes that switch the colours of a terminal. -/
structure Palette where
  reset : List Char
  dim : List Char
  bold : List Char
  cyan : List Char
  /-- The code for a level; a level without a colour of its own has none. -/
  level : String → List Char

def code (parameters : String) : List Char := '\x1b' :: '[' :: parameters.toList ++ ['m']

def levelCode : String → List Char
  | "debug" => code "34"
  | "info" => code "32"
  | "warning" => code "33"
  | "error" => code "31"
  | "critical" => code "1;31"
  | _ => []

def Palette.colored : Palette := ⟨code "0", code "2", code "1", code "36", levelCode⟩

def Palette.plain : Palette := ⟨[], [], [], [], fun _ => []⟩

/-- A text is quoted if it holds a blank; any other value stands as its plain text. -/
def formatValue : Value → List Char
  | .text s => if s.toList.any Text.isBlank then Text.quoted s.toList else s.toList
  | v => v.plain

def formatPair (palette : Palette) (pair : Value × Value) : List Char :=
  palette.cyan ++ pair.1.plain ++ palette.reset ++ '=' :: formatValue pair.2

/-- The pairs of a context in the order of their keys. -/
def sortedPairs (context : Entries) : Except Error Entries :=
  Sorting.sort (fun a b => Value.lt a.1 b.1) context

def joined (parts : List (List Char)) : List Char := [' '].intercalate parts

def timePart (palette : Palette) (showTimestamp : Bool) (entry : LogEntry) :
    Except Error (List (List Char)) :=
  if showTimestamp then do return [palette.dim ++ (← entry.humanTime) ++ palette.reset]
  else return []

def line (palette : Palette) (showTimestamp : Bool) (entry : LogEntry) :
    Except Error (List Char) := do
  let time ← timePart palette showTimestamp entry
  entry.event.checkWritable
  let pairs ← sortedPairs entry.context
  (Value.dictionary pairs).checkWritable
  return joined (time ++
    [palette.level entry.level ++ '[' :: entry.level.toList ++ ']' :: palette.reset,
      palette.bold ++ entry.event.plain ++ palette.reset] ++
    pairs.map (formatPair palette))

end Accrual.Console
