/-!
# Where a reader stands in a text

Settings are written in YAML, where the column of a character matters as much as
the character. A `Cursor` is the text still to be read together with the place it
begins at. Line ends come in several forms, of which all but two stand for the
same one.
-/

namespace Telemetry.Yaml

/-- The text still to be read, and where it begins. -/
structure Cursor where
  /-- The text. -/
  rest : List Char
  /-- How many characters lie before. -/
  index : Nat
  /-- The line, from zero. -/
  line : Nat
  /-- The column, from zero. -/
  column : Nat

/-! ### Kinds of characters -/

/-- A character that ends a line. -/
def isBreak (c : Char) : Bool :=
  c == '\n' || c == '\r' || c == '\x85' || c == '\u2028' || c == '\u2029'

/-- A character that separates on a line. -/
def isBlank (c : Char) : Bool := c == ' ' || c == '\t'

/-- A character that names and handles are made of. -/
def isWordChar (c : Char) : Bool := c.isAlphanum || c == '_' || c == '-'

/-- A character that a text may contain at all. -/
def isAllowed (c : Char) : Bool :=
  let n := c.toNat
  n == 9 || n == 10 || n == 13 || (0x20 ≤ n && n ≤ 0x7E) || n == 0x85 ||
    (0xA0 ≤ n && n ≤ 0xFFFD) || 0x10000 ≤ n

/-- A line end as it stands in a scalar. -/
def normalBreak (c : Char) : Char := if c == '\u2028' || c == '\u2029' then c else '\n'

namespace Cursor

/-- The start of a text. -/
def ofText (text : List Char) : Cursor := ⟨text, 0, 0, 0⟩

/-- The character `n` places ahead. -/
def ahead (c : Cursor) (n : Nat) : Option Char := c.rest[n]?

/-- The next character. -/
def next (c : Cursor) : Option Char := c.rest.head?

/-- Is a certain character `n` places ahead? -/
def sees (c : Cursor) (n : Nat) (x : Char) : Bool := c.ahead n == some x

/-- The text has ended. -/
def atEnd (c : Cursor) : Bool := c.rest.isEmpty

/-- A line end is `n` places ahead. -/
def seesBreak (c : Cursor) (n : Nat) : Bool := (c.ahead n).any isBreak

/-- A line end or the end of the text is `n` places ahead. -/
def seesBreakOrEnd (c : Cursor) (n : Nat) : Bool := (c.ahead n).all isBreak

/-- A blank is `n` places ahead. -/
def seesBlank (c : Cursor) (n : Nat) : Bool := (c.ahead n).any isBlank

/-- A blank, a line end or the end of the text is `n` places ahead. -/
def seesGap (c : Cursor) (n : Nat) : Bool := (c.ahead n).all fun x => isBlank x || isBreak x

/-- Behind `n` characters of the same line. -/
def skip (c : Cursor) (n : Nat) : Cursor :=
  ⟨c.rest.drop n, c.index + n, c.line, c.column + n⟩

/-- Behind all characters of the line that satisfy a condition. -/
def skipWhile (c : Cursor) (p : Char → Bool) : Cursor := c.skip (c.rest.takeWhile p).length

/-- Behind the line end that is next; nowhere else if none is. -/
def skipBreak (c : Cursor) : Cursor :=
  match c.rest with
  | '\r' :: '\n' :: rest => ⟨rest, c.index + 2, c.line + 1, 0⟩
  | x :: rest => if isBreak x then ⟨rest, c.index + 1, c.line + 1, 0⟩ else c
  | [] => c

/-- The line end that is next, as it stands in a scalar; nothing if none is. -/
def breakText (c : Cursor) : List Char :=
  match c.rest with
  | x :: _ => if isBreak x then [normalBreak x] else []
  | [] => []

/-- A line of three equal characters and a gap: the mark of a document. -/
def seesMark (c : Cursor) (x : Char) : Bool :=
  c.column == 0 && c.sees 0 x && c.sees 1 x && c.sees 2 x && c.seesGap 3

/-- The mark of the start or the end of a document. -/
def seesDocumentMark (c : Cursor) : Bool := c.seesMark '-' || c.seesMark '.'

/-- Behind the rest of a line that holds nothing but blanks and a comment. -/
def skipLineRest (c : Cursor) : Option Cursor :=
  let c := c.skipWhile isBlank
  let c := if c.sees 0 '#' then c.skipWhile fun x => !isBreak x else c
  if c.seesBreakOrEnd 0 then some c.skipBreak else none

end Cursor

end Telemetry.Yaml
