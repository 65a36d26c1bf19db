import Accrual.Fault
import Accrual.Problem
import Accrual.Text.Quoted

/-!
# Errors

Everything that can stop an operation, as causes. `Error.message` holds all the wording and
`Error.kind` the name of the class that each cause belongs to.
-/

namespace Accrual

inductive Error
  /-- Misuse of the library, described by a fault. -/
  | misuse (fault : Fault)
  /-- A record of the titled kind was refused. -/
  | invalid (title : String) (problems : List Problem)
  | notCallable (typeName : String)
  /-- A partial application needs a callable as its first argument. -/
  | nothingToApply
  | noAttribute (typeName name : String)
  | notIterable (typeName : String)
  /-- Only an iterable can be spread into a tuple. -/
  | notSpreadable (typeName : String)
  | noLength (typeName : String)
  | unhashable (typeName : String)
  | notOrdered (left right : String)
  /-- An argument was given both by position and by name. -/
  | givenTwice (function argument : String)
  /-- The arguments of a call do not fit the parameters of the function. -/
  | badCall (function : String)
  | argumentCount (function : String) (given : Nat)
  | notInteger (function : String)
  /-- The number is too long to be written out. -/
  | numberTooLong
  /-- The text has too many digits to be read as a number. -/
  | numeralTooLong (digits : Nat)
  /-- Calls are nested too deep. -/
  | tooManyCalls
  /-- An error raised by a callback. -/
  | raised (message : String)
  /-- The payload of the other branch of an either was asked for. -/
  | wrongBranch (message : String)
  | unknownFormat (text : String)
  /-- A format with one place was given no value, or more than one. -/
  | formatUnfilled
  | formatOverfilled
  | yearOutOfRange (year : Int)
  | yearTooWide
  | timeTooWide
  | integerTooWide
  | keyTooWide
  | keyNotEncodable
  /-- A value has neither a structured form nor a text. -/
  | notEncodable (typeName : String)
  | tooDeep
  /-- The text of a group of settings cannot be read. -/
  | unreadableSetting (field source : String)
  /-- The name under which a field is looked for cannot be put together. -/
  | noShortName (field source : String)
  /-- Only a text can be looked for at the start of a name. -/
  | notStart (typeName : String)
  /-- A bound on the parts of a name has to be a number. -/
  | notBound (typeName : String)
  | notPath (typeName : String)
  /-- A path starts with the home of a user who is not known. -/
  | noHome
  | pathTooLong (path : String)
  /-- A path to a directory leads to a file. -/
  | notDirectory
  | notEncodingName (typeName : String)
  /-- A text that must not hold the null character holds one. -/
  | nullInText
  | unknownEncoding (name : String)
  /-- What is read in the encoding is no text. -/
  | noTextEncoding (name : String)
  /-- The bytes of a file are no text in its encoding. -/
  | unreadableFile (reason : String)
  /-- Arguments of a command line have to be a list. -/
  | notArgumentList (typeName : String)
  /-- Something that should have parts has none, too few or too many. -/
  | noParts (typeName : String)
  | tooFewParts (expected given : Nat)
  | tooManyParts (expected : Nat)
  /-- A reference to a register that holds nothing. -/
  | unbound (register : String)
  /-- A function that is not defined. -/
  | undefined (name : String)
  deriving DecidableEq

namespace Error

def kind : Error → String
  | misuse fault => fault.code.errorName
  | invalid _ _ => "ValidationError"
  | noAttribute _ _ => "AttributeError"
  | notInteger _ | numberTooLong | numeralTooLong _ | raised _ | unknownFormat _
  | yearOutOfRange _ | nullInText | tooFewParts _ _ | tooManyParts _ => "ValueError"
  | unreadableFile _ => "UnicodeError"
  | unknownEncoding _ | noTextEncoding _ => "LookupError"
  | tooManyCalls => "RecursionError"
  | yearTooWide | pathTooLong _ => "OSError"
  | timeTooWide => "OverflowError"
  | wrongBranch _ | noHome => "RuntimeError"
  | unreadableSetting _ _ | noShortName _ _ | notDirectory | notArgumentList _ => "SettingsError"
  | unbound _ => "Unbound"
  | undefined _ => "NameError"
  | notCallable _ | nothingToApply | notIterable _ | notSpreadable _ | noLength _ | unhashable _
  | notOrdered _ _ | givenTwice _ _ | badCall _ | argumentCount _ _
  | formatUnfilled | formatOverfilled | integerTooWide | keyTooWide | keyNotEncodable
  | notEncodable _ | tooDeep | notStart _ | notBound _ | notPath _ | notEncodingName _
  | noParts _ => "TypeError"

/-- Whether the error blames a value. Such an error refuses the group of settings it is met in, and
is listed with the other problems of the settings. -/
def blamesValue (error : Error) : Bool :=
  ["ValueError", "UnicodeError", "SettingsError"].contains error.kind

/-- Numbers are read and written up to this many digits. -/
def maxDigits : Nat := 4300

def digitsHint : String := "use sys.set_int_max_str_digits() to increase the limit"

def message : Error → String
  | misuse fault => fault.message
  | invalid title _ => title
  | notCallable t => "'" ++ t ++ "' object is not callable"
  | nothingToApply => "the first argument must be callable"
  | noAttribute t name => "'" ++ t ++ "' object has no attribute '" ++ name ++ "'"
  | notIterable t => "'" ++ t ++ "' object is not iterable"
  | notSpreadable t => "Value after * must be an iterable, not " ++ t
  | noLength t => "object of type '" ++ t ++ "' has no len()"
  | unhashable t => "unhashable type: '" ++ t ++ "'"
  | notOrdered left right =>
      "'<' not supported between instances of '" ++ left ++ "' and '" ++ right ++ "'"
  | givenTwice function argument =>
      function ++ "() got multiple values for argument '" ++ argument ++ "'"
  | badCall function => function ++ "() got unsuitable arguments"
  | argumentCount function given =>
      function ++ ": expected 1 arguments, got " ++ toString given
  | notInteger function => function ++ ": not an integer"
  | numberTooLong =>
      "Exceeds the limit (" ++ toString maxDigits ++ " digits) for integer string conversion; " ++
        digitsHint
  | numeralTooLong digits =>
      "Exceeds the limit (" ++ toString maxDigits ++ " digits) for integer string conversion: " ++
        "value has " ++ toString digits ++ " digits; " ++ digitsHint
  | tooManyCalls => "maximum recursion depth exceeded"
  | raised text => text
  | wrongBranch text => text
  | unknownFormat text =>
      "Unknown format: " ++ text ++ ". Use 'console', 'json', or 'none'"
  | formatUnfilled => "not enough arguments for format string"
  | formatOverfilled => "not all arguments converted during string formatting"
  | yearTooWide => "[Errno 75] Value too large for defined data type"
  | timeTooWide => "timestamp out of range for platform time_t"
  | yearOutOfRange year => "year " ++ toString year ++ " is out of range"
  | integerTooWide => "Integer exceeds 64-bit range"
  | keyTooWide => "Dict integer key must be within 64-bit range"
  | keyNotEncodable => "Dict key must a type serializable with OPT_NON_STR_KEYS"
  | notEncodable t => "Type is not JSON serializable: " ++ t
  | tooDeep => "Recursion limit reached"
  | unreadableSetting field source =>
      "error parsing value for field \"" ++ field ++ "\" from source \"" ++ source ++ "\""
  | noShortName field source =>
      "error getting value for field \"" ++ field ++ "\" from source \"" ++ source ++ "\""
  | notStart t => "startswith first arg must be str or a tuple of str, not " ++ t
  | notBound t => "unsupported operand type(s) for -: '" ++ t ++ "' and 'int'"
  | notPath t => "expected str, bytes or os.PathLike object, not " ++ t
  | noHome => "Could not determine home directory."
  | pathTooLong path =>
      "[Errno 36] File name too long: " ++ String.ofList (Text.quoted path.toList)
  | notDirectory => "secrets_dir must reference a directory, not a file"
  | notEncodingName t => "open() argument 'encoding' must be str or None, not " ++ t
  | nullInText => "embedded null character"
  | unknownEncoding name => "unknown encoding: " ++ name
  | noTextEncoding name =>
      "'" ++ name ++ "' is not a text encoding; use codecs.open() to handle arbitrary codecs"
  | unreadableFile reason => reason
  | notArgumentList t =>
      "cli_parse_args must be a list or tuple of strings, received <class '" ++ t ++ "'>"
  | noParts t => "cannot unpack non-iterable " ++ t ++ " object"
  | tooFewParts expected given =>
      "not enough values to unpack (expected " ++ toString expected ++ ", got " ++
        toString given ++ ")"
  | tooManyParts expected =>
      "too many values to unpack (expected " ++ toString expected ++ ")"
  | unbound register => register
  | undefined name => "name '" ++ name ++ "' is not defined"

end Error

end Accrual
