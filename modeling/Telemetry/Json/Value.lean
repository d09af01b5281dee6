import Telemetry.Json.Number
import Telemetry.Json.Text

/-!
# Values and frames of JSON texts

A value is asked for by type: a string, a whole number, a double, any of these or
`null`. What a text holds instead is still read as far as it takes to say what it
is. Objects and lists are gone through key by key and item by item; the functions
here take the text to the next key or item, or tell that the end is next.
-/

namespace Telemetry.Json

/-- White space of JSON. -/
def isSpace (b : UInt8) : Bool :=
  b == ascii ' ' || b == ascii '\n' || b == ascii '\t' || b == ascii '\r'

/-- A text without the white space at its head. -/
def skipSpace (text : Octets) : Octets := text.dropWhile isSpace

/-- What is left of a text behind the rest of a word. -/
def readWord : List Char → Octets → Except Stop Octets
  | [], text => .ok text
  | _ :: _, [] => stopAt .endInValue []
  | c :: cs, b :: rest => if b = ascii c then readWord cs rest else stopAt .wordDue rest

/-! ### Values of the wrong type -/

/-- The fault that the text holds something else than expected. Lists and objects
are not entered. -/
def wrongType {α : Type} (expected : String) (text : Octets) : Except Stop α :=
  match text with
  | [] => stopBefore .valueDue []
  | b :: rest =>
    if b = ascii 'n' then do
      let rest ← readWord ['u', 'l', 'l'] rest
      stopAt (.wrongType .null expected) rest
    else if b = ascii 't' then do
      let rest ← readWord ['r', 'u', 'e'] rest
      stopAt (.wrongType (.boolean true) expected) rest
    else if b = ascii 'f' then do
      let rest ← readWord ['a', 'l', 's', 'e'] rest
      stopAt (.wrongType (.boolean false) expected) rest
    else if b = ascii '-' then do
      let (n, rest) ← readNumber false rest
      stopAt (.wrongType n.found expected) rest
    else if isOctetDigit b then do
      let (n, rest) ← readNumber true text
      stopAt (.wrongType n.found expected) rest
    else if b = ascii '"' then do
      let (s, rest) ← readChars rest
      stopAt (.wrongType (.text s) expected) rest
    else if b = ascii '[' then stopAt (.wrongType .list expected) text
    else if b = ascii '{' then stopAt (.wrongType .object expected) text
    else stopBefore .valueDue text

/-! ### Values by type -/

/-- A string. -/
def readString (text : Octets) : Except Stop (String × Octets) :=
  match skipSpace text with
  | [] => stopBefore .endInValue []
  | b :: rest => if b = ascii '"' then readChars rest else wrongType "a string" (b :: rest)

/-- A number of any kind. -/
def readNum (expected : String) (text : Octets) : Except Stop (Num × Octets) :=
  match skipSpace text with
  | [] => stopBefore .endInValue []
  | b :: rest =>
    if b = ascii '-' then readNumber false rest
    else if isOctetDigit b then readNumber true (b :: rest)
    else wrongType expected (b :: rest)

/-- A 64-bit whole number. A double is none, even if it is whole. -/
def readInteger (text : Octets) : Except Stop (Int64 × Octets) := do
  let (n, rest) ← readNum "i64" text
  match n with
  | .natural n =>
    if n < Nat.pow 2 63 then .ok (Int64.ofNat n, rest)
    else stopAt (.wrongValue (.integer n) "i64") rest
  | .negative n => .ok (Int64.ofInt n, rest)
  | .real x => stopAt (.wrongType (.real x) "i64") rest

/-- A double. Whole numbers are rounded to one. -/
def readReal (text : Octets) : Except Stop (Binary64 × Octets) := do
  let (n, rest) ← readNum "f64" text
  match n with
  | .natural n => .ok (.ofNat n, rest)
  | .negative n => .ok (.ofInt n, rest)
  | .real x => .ok (x, rest)

/-- A value of some type, or `null`. -/
def readOptional {α : Type} (read : Octets → Except Stop (α × Octets)) (text : Octets) :
    Except Stop (Option α × Octets) :=
  let tried := (read (skipSpace text)).map fun p => (some p.1, p.2)
  match skipSpace text with
  | [] => tried
  | b :: rest =>
    if b = ascii 'n' then (readWord ['u', 'l', 'l'] rest).map fun rest => (none, rest)
    else tried

/-! ### Objects and lists -/

/-- The text from behind the opening quote of the next key, or nothing at the end
of the object. -/
def nextKey (first : Bool) (text : Octets) : Except Stop (Option Octets) :=
  match skipSpace text with
  | [] => stopBefore .endInObject []
  | b :: rest =>
    if b = ascii '}' then .ok none
    else if first then
      if b = ascii '"' then .ok (some rest) else stopBefore .keyDue (b :: rest)
    else if b = ascii ',' then
      match skipSpace rest with
      | [] => stopBefore .endInValue []
      | c :: rest =>
        if c = ascii '"' then .ok (some rest)
        else if c = ascii '}' then stopBefore .trailingComma (c :: rest)
        else stopBefore .keyDue (c :: rest)
    else stopBefore .objectEndDue (b :: rest)

/-- The text from the next item on, or nothing at the end of the list. -/
def nextItem (first : Bool) (text : Octets) : Except Stop (Option Octets) :=
  match skipSpace text with
  | [] => stopBefore .endInList []
  | b :: rest =>
    if b = ascii ']' then .ok none
    else if first then .ok (some (b :: rest))
    else if b = ascii ',' then
      match skipSpace rest with
      | [] => stopBefore .endInValue []
      | c :: rest =>
        if c = ascii ']' then stopBefore .trailingComma (c :: rest) else .ok (some (c :: rest))
    else stopBefore .listEndDue (b :: rest)

/-- The text behind the colon that follows a key. -/
def readColon (text : Octets) : Except Stop Octets :=
  match skipSpace text with
  | [] => stopBefore .endInObject []
  | b :: rest => if b = ascii ':' then .ok rest else stopBefore .colonDue (b :: rest)

/-- The text behind the end of an object. -/
def closeObject (text : Octets) : Except Stop Octets :=
  match skipSpace text with
  | [] => stopBefore .endInObject []
  | b :: rest =>
    if b = ascii '}' then .ok rest
    else if b = ascii ',' then stopBefore .trailingComma (b :: rest)
    else stopBefore .trailingCharacters (b :: rest)

/-- The text behind the end of a list. -/
def closeList (text : Octets) : Except Stop Octets :=
  match skipSpace text with
  | [] => stopBefore .endInList []
  | b :: rest =>
    if b = ascii ']' then .ok rest
    else if b = ascii ',' then
      match skipSpace rest with
      | [] => stopBefore .trailingCharacters []
      | c :: rest =>
        stopBefore (if c = ascii ']' then .trailingComma else .trailingCharacters) (c :: rest)
    else stopBefore .trailingCharacters (b :: rest)

/-- Nothing but white space may follow a text's one value. -/
def closeText (text : Octets) : Except Stop Unit :=
  match skipSpace text with
  | [] => .ok ()
  | b :: rest => stopBefore .trailingCharacters (b :: rest)

/-- A fault of an object as a whole. Its place is behind the object if its end
comes next, and behind the white space otherwise. -/
def stopObject {α : Type} (fault : Fault) (text : Octets) : Except Stop α :=
  match skipSpace text with
  | [] => stopAt fault []
  | b :: rest => stopAt fault (if b = ascii '}' then rest else b :: rest)

/-- The fault that a list, of which the end comes next, has too few items. -/
def stopShortList {α : Type} (length : Nat) (expected : String) (text : Octets) : Except Stop α :=
  stopAt (.wrongLength length expected) ((skipSpace text).drop 1)

/-- The entries of an object: every key is handed on with what has been gathered
so far, and the handler reads on from behind the key. The text is left in front
of the end of the object. There is fuel enough if it is as long as the text. -/
def readEntries {σ : Type} (entry : String → σ → Octets → Except Stop (σ × Octets)) :
    (fuel : Octets) → (first : Bool) → σ → Octets → Except Stop (σ × Octets)
  | [], _, _, text => stopBefore .endInObject text
  | _ :: fuel, first, sofar, text => do
    match ← nextKey first text with
    | none => .ok (sofar, text)
    | some inKey =>
      let (key, text) ← readChars inKey
      let (sofar, text) ← entry key sofar text
      readEntries entry fuel false sofar text

/-- The items of a list. The text is left in front of the end of the list. There is
fuel enough if it is as long as the text. -/
def readItems {α : Type} (item : Octets → Except Stop (α × Octets)) :
    (fuel : Octets) → (first : Bool) → Octets → Except Stop (List α × Octets)
  | [], _, text => stopBefore .endInList text
  | _ :: fuel, first, text => do
    match ← nextItem first text with
    | none => .ok ([], text)
    | some text =>
      let (a, text) ← item text
      let (as, text) ← readItems item fuel false text
      .ok (a :: as, text)

end Telemetry.Json
