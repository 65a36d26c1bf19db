import Accrual.Keyed
import Accrual.Text.Numeral

/-!
# Structured text data

Trees of objects, arrays and plain values. The fields of an object keep the order in which their
names were first given; a repeated name keeps its place and takes the later content.
-/

namespace Accrual

inductive Json
  | null
  | bool (b : Bool)
  | int (n : Int)
  /-- The number `mantissa * 10 ^ exponent`, as it was written. -/
  | real (mantissa : Int) (exponent : Int)
  /-- No finite number: an infinity or no number at all. -/
  | nonFinite (sign : Bool) (infinite : Bool)
  | text (s : String)
  /-- A text with a character of which only one half is written. -/
  | brokenText
  | array (items : List Json)
  | object (fields : List (String × Json))

namespace Json

abbrev Fields := List (String × Json)

instance : Inhabited Json := ⟨null⟩

def typeName : Json → String
  | null => "NoneType"
  | bool _ => "bool"
  | int _ => "int"
  | real _ _ | nonFinite _ _ => "float"
  | text _ | brokenText => "str"
  | array _ => "list"
  | object _ => "dict"

/-- A number with places as a floating-point number; one far out of range is cut off. -/
def toFloat (mantissa exponent : Int) : Float :=
  let size : Int := (Text.decimal mantissa.natAbs).length + exponent
  let size := if mantissa = 0 then 0 else size
  let magnitude :=
    if size > 400 then 1.0 / 0.0
    else if size < -400 then 0.0
    else Float.ofScientific mantissa.natAbs (exponent < 0) exponent.natAbs
  if mantissa < 0 then -magnitude else magnitude

/-- Null, false, zero and what is empty count as false. -/
def isTruthy : Json → Bool
  | null => false
  | bool b => b
  | int n => n != 0
  | real mantissa exponent => toFloat mantissa exponent != 0.0
  | nonFinite _ _ | brokenText => true
  | text s => s != ""
  | array items => !items.isEmpty
  | object fields => !fields.isEmpty

/-- Truth values count as numbers. -/
def isNumber : Json → Bool
  | bool _ | int _ | real _ _ | nonFinite _ _ => true
  | null | text _ | brokenText | array _ | object _ => false

/-- What a value consists of: the characters of a text, the items of an array, the names in an
object. -/
def parts? : Json → Option (List Json)
  | text s => some (s.toList.map fun c => text c.toString)
  | brokenText => some [brokenText]
  | array items => some items
  | object fields => some (fields.map fun field => text field.1)
  | null | bool _ | int _ | real _ _ | nonFinite _ _ => none

mutual

/-- Two objects are merged field by field; anything else gives way to the new content. -/
def replace : Option Json → Json → Json
  | some (object old), object new => object (overlay old new)
  | _, new => new
termination_by structural _ new => new

/-- The fields of an object overridden and extended by more fields. -/
def overlay : Fields → Fields → Fields
  | base, [] => base
  | base, (name, content) :: rest =>
      overlay (Keyed.insert name (replace (base.lookup name) content) base) rest
termination_by structural _ fields => fields

end

end Json

end Accrual
