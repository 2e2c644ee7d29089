import TopicFeed.Decimal.Shortest
import TopicFeed.Text.Quoted
import TopicFeed.Text.Utf8

/-!
# Faults of an event line

Why a line is refused, and where. A cause is a constructor; its wording is one function. A fault
remembers how many bytes of the line lie *behind* its place, which a reader knows without knowing
what it has consumed; `Fault.place` turns that into a line and a column, both counted from the
bytes before the place.
-/

namespace TopicFeed.Json

/-- What was found where something else was expected. A floating point number is kept by the bits
of its double. -/
inductive Found where
  | null
  | boolean (b : Bool)
  | integer (n : Int)
  | floating (bits : UInt64)
  | string (s : String)
  | sequence
  | map
  deriving DecidableEq, Repr

/-- What was expected. A record is known by its name. -/
inductive Expected where
  | string
  | int64
  | octet
  | sequence
  | record (name : String)
  deriving DecidableEq, Repr

/-- Why a line is refused. -/
inductive Cause where
  | endInValue
  | endInString
  | endInList
  | endInObject
  | noValue
  | noSuchWord
  | noColon
  | noListEnd
  | noObjectEnd
  | badEscape
  | badNumber
  | numberRange
  | controlCharacter
  | keyNotString
  | loneSurrogate
  | halfSurrogate
  | trailingComma
  | trailingCharacters
  | wrongType (found : Found) (expected : Expected)
  | outOfRange (n : Int) (expected : Expected)
  | repeatedKey (key : String)
  deriving DecidableEq, Repr

/-- The wording of what was found. -/
def Found.text : Found → String
  | .null => "null"
  | .boolean b => "boolean `" ++ (if b then "true" else "false") ++ "`"
  | .integer n => "integer `" ++ toString n ++ "`"
  | .floating bits => "floating point `" ++ Decimal.text bits ++ "`"
  | .string s => "string " ++ Text.Quoted.encode s
  | .sequence => "sequence"
  | .map => "map"

/-- The wording of what was expected. -/
def Expected.text : Expected → String
  | .string => "a string"
  | .int64 => "i64"
  | .octet => "u8"
  | .sequence => "a sequence"
  | .record name => "struct " ++ name

/-- The wording of a cause. -/
def Cause.text : Cause → String
  | .endInValue => "EOF while parsing a value"
  | .endInString => "EOF while parsing a string"
  | .endInList => "EOF while parsing a list"
  | .endInObject => "EOF while parsing an object"
  | .noValue => "expected value"
  | .noSuchWord => "expected ident"
  | .noColon => "expected `:`"
  | .noListEnd => "expected `,` or `]`"
  | .noObjectEnd => "expected `,` or `\x7d`"
  | .badEscape => "invalid escape"
  | .badNumber => "invalid number"
  | .numberRange => "number out of range"
  | .controlCharacter => "control character (\\u0000-\\u001F) found while parsing a string"
  | .keyNotString => "key must be a string"
  | .loneSurrogate => "lone leading surrogate in hex escape"
  | .halfSurrogate => "unexpected end of hex escape"
  | .trailingComma => "trailing comma"
  | .trailingCharacters => "trailing characters"
  | .wrongType found expected => "invalid type: " ++ found.text ++ ", expected " ++ expected.text
  | .outOfRange n expected =>
    "invalid value: integer `" ++ toString n ++ "`, expected " ++ expected.text
  | .repeatedKey key => "duplicate field `" ++ key ++ "`"

/-- A cause, and the number of bytes of the line behind its place. -/
structure Fault where
  cause : Cause
  behind : Nat
  deriving DecidableEq, Repr

/-- A fault noticed with `rest` still unread, placed where reading stands. -/
def Fault.here (cause : Cause) (rest : Bytes) : Fault := ⟨cause, rest.length⟩

/-- A fault noticed by looking at the first byte of `rest`, placed behind that byte. -/
def Fault.ahead (cause : Cause) (rest : Bytes) : Fault := ⟨cause, rest.length - 1⟩

/-- A place in a text: its line, counted from one, and the bytes of that line before it. -/
structure Place where
  line : Nat
  column : Nat
  deriving DecidableEq, Repr

/-- The place behind the given bytes. -/
def Place.after (bytes : Bytes) : Place :=
  ⟨1 + bytes.count 0x0A, (bytes.reverse.takeWhile (· != 0x0A)).length⟩

/-- Where a fault lies in the line it was found in. -/
def Fault.place (f : Fault) (line : Bytes) : Place :=
  Place.after (line.take (line.length - f.behind))

/-- Why a line could not be decoded, and where. -/
structure LineFault where
  cause : Cause
  place : Place
  deriving DecidableEq, Repr

/-- The wording of a fault with its place. -/
def LineFault.message (f : LineFault) : String :=
  f.cause.text ++ s!" at line {f.place.line} column {f.place.column}"

end TopicFeed.Json
