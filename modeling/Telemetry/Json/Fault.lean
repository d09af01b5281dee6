import Telemetry.Number.Decimal
import Telemetry.Octets
import Telemetry.Text.Quoted

/-!
# Faults of JSON texts

A JSON text is read once, from the front, and the first fault ends the reading.
A fault has a place: the line and the column up to which the text had been read.
The reader itself only remembers how many octets lay beyond the fault; line and
column are worked out from that when the fault is worded.

Some faults are found by looking at the next octet without taking it. Their place
counts that octet in; a text that has ended has no next octet to count.
-/

namespace Telemetry.Json

/-- What a text holds where something else was wanted. -/
inductive Found where
  /-- The word `null`. -/
  | null
  /-- A truth value. -/
  | boolean (b : Bool)
  /-- A whole number of 64 bits. -/
  | integer (n : Int)
  /-- Any other number. -/
  | real (x : Binary64)
  /-- A string. -/
  | text (s : String)
  /-- A list. -/
  | list
  /-- An object. -/
  | object
deriving DecidableEq, Repr

/-- The wording of what was found. -/
def Found.describe : Found → String
  | .null => "null"
  | .boolean b => "boolean `" ++ toString b ++ "`"
  | .integer n => "integer `" ++ toString n ++ "`"
  | .real x => "floating point `" ++ FloatStyle.record.text x ++ "`"
  | .text s => "string " ++ quote s
  | .list => "sequence"
  | .object => "map"

/-- What can be wrong with a JSON text, or with the values it holds. -/
inductive Fault where
  /-- The text ends where a value is due or inside one. -/
  | endInValue
  /-- The text ends inside an object. -/
  | endInObject
  /-- The text ends inside a list. -/
  | endInList
  /-- The text ends inside a string. -/
  | endInString
  /-- No colon behind a key. -/
  | colonDue
  /-- Neither a comma nor the end of the list. -/
  | listEndDue
  /-- Neither a comma nor the end of the object. -/
  | objectEndDue
  /-- No value where one is due. -/
  | valueDue
  /-- A misspelt `null`, `true` or `false`. -/
  | wordDue
  /-- A key that is no string. -/
  | keyDue
  /-- A comma with nothing behind it. -/
  | trailingComma
  /-- Something behind the end. -/
  | trailingCharacters
  /-- A number outside the grammar. -/
  | invalidNumber
  /-- A number too large for a double. -/
  | numberOutOfRange
  /-- An escape outside the grammar. -/
  | invalidEscape
  /-- A control character inside a string. -/
  | controlCharacter
  /-- Half of a surrogate pair. -/
  | loneSurrogate
  /-- A surrogate without the escape of its other half. -/
  | endInSurrogate
  /-- A string that is not UTF-8. -/
  | invalidCodePoint
  /-- A value of another type. -/
  | wrongType (found : Found) (expected : String)
  /-- A value out of range. -/
  | wrongValue (found : Found) (expected : String)
  /-- A list of too few items. -/
  | wrongLength (length : Nat) (expected : String)
  /-- A field that must be there is not. -/
  | missingField (name : String)
  /-- A field that is there twice. -/
  | duplicateField (name : String)
  /-- A field nobody asked for. -/
  | unknownField (name : String) (known : List String)
deriving DecidableEq, Repr

/-- The wording of a fault, without its place. -/
def Fault.describe : Fault → String
  | .endInValue => "EOF while parsing a value"
  | .endInObject => "EOF while parsing an object"
  | .endInList => "EOF while parsing a list"
  | .endInString => "EOF while parsing a string"
  | .colonDue => "expected `:`"
  | .listEndDue => "expected `,` or `]`"
  | .objectEndDue => "expected `,` or `\x7d`"
  | .valueDue => "expected value"
  | .wordDue => "expected ident"
  | .keyDue => "key must be a string"
  | .trailingComma => "trailing comma"
  | .trailingCharacters => "trailing characters"
  | .invalidNumber => "invalid number"
  | .numberOutOfRange => "number out of range"
  | .invalidEscape => "invalid escape"
  | .controlCharacter => "control character (\\u0000-\\u001F) found while parsing a string"
  | .loneSurrogate => "lone leading surrogate in hex escape"
  | .endInSurrogate => "unexpected end of hex escape"
  | .invalidCodePoint => "invalid unicode code point"
  | .wrongType found expected => "invalid type: " ++ found.describe ++ ", expected " ++ expected
  | .wrongValue found expected => "invalid value: " ++ found.describe ++ ", expected " ++ expected
  | .wrongLength n expected => "invalid length " ++ toString n ++ ", expected " ++ expected
  | .missingField name => "missing field `" ++ name ++ "`"
  | .duplicateField name => "duplicate field `" ++ name ++ "`"
  | .unknownField name known => "unknown field `" ++ name ++ "`, " ++ oneOf known

/-- A fault with the number of octets that lay beyond it. -/
structure Stop where
  /-- The fault. -/
  fault : Fault
  /-- How many octets of the text lay beyond the fault. -/
  beyond : Nat
deriving DecidableEq, Repr

/-- A fault just behind what has been taken. -/
def stopAt {α : Type} (fault : Fault) (rest : Octets) : Except Stop α :=
  .error ⟨fault, rest.length⟩

/-- A fault seen in the next octet, which counts as read. -/
def stopBefore {α : Type} (fault : Fault) (rest : Octets) : Except Stop α :=
  .error ⟨fault, rest.length - 1⟩

/-- The line, from 1, and the column that octets lead up to. -/
def placeBehind (read : Octets) : Nat × Nat :=
  (1 + read.count (ascii '\n'), (read.reverse.takeWhile (· != ascii '\n')).length)

/-- The wording of a fault in a text. -/
def Stop.message (text : Octets) (s : Stop) : String :=
  let (line, column) := placeBehind (text.take (text.length - s.beyond))
  s.fault.describe ++ " at line " ++ toString line ++ " column " ++ toString column

end Telemetry.Json
