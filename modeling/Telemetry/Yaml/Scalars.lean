import Telemetry.Octets
import Telemetry.Yaml.Cursor

/-!
# Scanning scalars, anchors and tags

Everything that stands between the marks of structure. Lines of one scalar are
folded: a single line end becomes a space, further ones stay. What is scanned is
collected in reverse.

The functions give the scanned text and the cursor behind it, or nothing if the text
is malformed there. Loops get the number of characters as fuel; each turn takes at
least one.
-/

namespace Telemetry.Yaml

/-! ### Folding -/

/-- The white space between two words of a scalar. -/
structure Gap where
  /-- Has there been a line end? -/
  broken : Bool
  /-- Blanks before any line end, in reverse. -/
  blanks : List Char
  /-- The first line end. -/
  first : List Char
  /-- Further line ends, in reverse. -/
  more : List Char

/-- No white space yet. -/
def Gap.none : Gap := ⟨false, [], [], []⟩

/-- The white space that a gap leaves in the scalar, in reverse. -/
def Gap.folded (g : Gap) : List Char :=
  if g.broken then
    if g.first = ['\n'] then (if g.more.isEmpty then [' '] else g.more)
    else g.more ++ g.first
  else g.blanks

/-- The white space at the cursor, on top of a gap. A tab is refused where
`allowTab` does not allow it. -/
def scanGap (allowTab : Cursor → Gap → Bool) : (fuel : Nat) → Gap → Cursor → Option (Gap × Cursor)
  | 0, g, c => some (g, c)
  | fuel + 1, g, c =>
    match c.next with
    | some x =>
      if isBlank x then
        if x == '\t' && !allowTab c g then .none
        else
          let g := if g.broken then g else { g with blanks := x :: g.blanks }
          scanGap allowTab fuel g (c.skip 1)
      else if isBreak x then
        let g := if g.broken then { g with more := c.breakText ++ g.more }
          else { g with broken := true, blanks := [], first := c.breakText }
        scanGap allowTab fuel g c.skipBreak
      else some (g, c)
    | .none => some (g, c)

/-! ### Plain scalars -/

/-- Does a colon end a plain scalar here? -/
def endsPlain (flow : Bool) (c : Cursor) : Bool :=
  (c.sees 0 ':' && c.seesGap 1) ||
    (flow && (c.next).any fun x => x == ',' || x == '[' || x == ']' || x == '{' || x == '}')

/-- A colon that neither belongs to a plain scalar in a flow collection nor ends
it. -/
def strayColon (flow : Bool) (c : Cursor) : Bool :=
  flow && c.sees 0 ':' &&
    (c.ahead 1).any fun x => x == ',' || x == '?' || x == '[' || x == ']' || x == '{' || x == '}'

/-- The characters of a word of a plain scalar. -/
def scanPlainWord (flow : Bool) : (fuel : Nat) → List Char → Cursor → Option (List Char × Cursor)
  | 0, out, c => some (out, c)
  | fuel + 1, out, c =>
    match c.next with
    | some x =>
      if isBlank x || isBreak x then some (out, c)
      else if strayColon flow c then none
      else if endsPlain flow c then some (out, c)
      else scanPlainWord flow fuel (x :: out) (c.skip 1)
    | none => some (out, c)

/-- The words of a plain scalar with what lies between them. The answer tells
whether a line end follows the last word. -/
def scanPlainFrom (flow : Bool) (indent : Nat) :
    (fuel : Nat) → List Char → Gap → Cursor → Option (List Char × Bool × Cursor)
  | 0, out, g, c => some (out, g.broken, c)
  | fuel + 1, out, g, c =>
    if c.seesDocumentMark || c.sees 0 '#' then some (out, g.broken, c)
    else match scanPlainWord flow c.rest.length [] c with
      | none => none
      | some (word, c') =>
        let out' := if word.isEmpty then out else word ++ (g.folded ++ out)
        let g' := if word.isEmpty then g else Gap.none
        if !(c'.next).any fun x => isBlank x || isBreak x then some (out', g'.broken, c')
        else match scanGap (fun c g => !(g.broken && c.column < indent)) c'.rest.length g' c' with
          | none => none
          | some (g'', c'') =>
            if !flow && c''.column < indent then some (out', g''.broken, c'')
            else scanPlainFrom flow indent fuel out' g'' c''

/-- A plain scalar, whether a line end follows it, and the cursor behind. -/
def scanPlain (flow : Bool) (indent : Nat) (c : Cursor) : Option (String × Bool × Cursor) :=
  (scanPlainFrom flow indent c.rest.length [] Gap.none c).map fun (out, broken, c) =>
    (String.ofList out.reverse, broken, c)

/-! ### Quoted scalars -/

/-- The value of a hexadecimal digit. -/
def hexValue? (c : Char) : Option Nat :=
  if '0' ≤ c ∧ c ≤ '9' then some (c.toNat - 48)
  else if 'A' ≤ c ∧ c ≤ 'F' then some (c.toNat - 55)
  else if 'a' ≤ c ∧ c ≤ 'f' then some (c.toNat - 87)
  else none

/-- The number that hexadecimal digits write. -/
def hexNumber? (digits : List Char) : Option Nat :=
  digits.foldlM (fun n d => (hexValue? d).map fun v => 16 * n + v) 0

/-- The character that an escape letter alone stands for. -/
def escapeChar? (c : Char) : Option Char :=
  match c with
  | '0' => some '\x00'
  | 'a' => some '\x07'
  | 'b' => some '\x08'
  | 't' | '\t' => some '\t'
  | 'n' => some '\n'
  | 'v' => some '\x0b'
  | 'f' => some '\x0c'
  | 'r' => some '\r'
  | 'e' => some '\x1b'
  | ' ' | '"' | '/' | '\\' => some c
  | 'N' => some '\x85'
  | '_' => some '\u00a0'
  | 'L' => some '\u2028'
  | 'P' => some '\u2029'
  | _ => none

/-- How many digits follow an escape letter. -/
def escapeDigits? (c : Char) : Option Nat :=
  match c with
  | 'x' => some 2
  | 'u' => some 4
  | 'U' => some 8
  | _ => none

/-- The character that an escape stands for, the cursor being at the backslash. -/
def scanEscape (c : Cursor) : Option (Char × Cursor) := do
  let letter ← c.ahead 1
  match escapeDigits? letter with
  | none => do
    let x ← escapeChar? letter
    some (x, c.skip 2)
  | some count =>
    let digits := (c.rest.drop 2).take count
    let n ← hexNumber? digits
    if digits.length < count ∨ 0x10FFFF < n ∨ (0xD800 ≤ n ∧ n ≤ 0xDFFF) then none
    else some (Char.ofNat n, c.skip (2 + count))

/-- The characters of a word of a quoted scalar. The answer tells whether the word
ends with an escaped line end. -/
def scanQuotedWord (single : Bool) :
    (fuel : Nat) → List Char → Cursor → Option (List Char × Bool × Cursor)
  | 0, out, c => some (out, false, c)
  | fuel + 1, out, c =>
    match c.next with
    | none => some (out, false, c)
    | some x =>
      if isBlank x || isBreak x then some (out, false, c)
      else if single then
        if x == '\'' then
          if c.sees 1 '\'' then scanQuotedWord single fuel ('\'' :: out) (c.skip 2)
          else some (out, false, c)
        else scanQuotedWord single fuel (x :: out) (c.skip 1)
      else if x == '"' then some (out, false, c)
      else if x == '\\' then
        if c.seesBreak 1 then some (out, true, (c.skip 1).skipBreak)
        else match scanEscape c with
          | none => none
          | some (y, c) => scanQuotedWord single fuel (y :: out) c
      else scanQuotedWord single fuel (x :: out) (c.skip 1)

/-- The words of a quoted scalar with what lies between them, up to the closing
quote. -/
def scanQuotedFrom (single : Bool) :
    (fuel : Nat) → List Char → Cursor → Option (List Char × Cursor)
  | 0, _, _ => none
  | fuel + 1, out, c =>
    if c.seesDocumentMark || c.atEnd then none
    else match scanQuotedWord single (c.rest.length + 1) [] c with
      | none => none
      | some (word, escaped, c) =>
        let out := word ++ out
        if c.sees 0 (if single then '\'' else '"') then some (out, c.skip 1)
        else match scanGap (fun _ _ => true) c.rest.length
            { Gap.none with broken := escaped } c with
          | none => none
          | some (g, c) => scanQuotedFrom single fuel (g.folded ++ out) c

/-- A quoted scalar, the cursor being at the opening quote. -/
def scanQuoted (single : Bool) (c : Cursor) : Option (String × Cursor) :=
  (scanQuotedFrom single (c.rest.length + 1) [] (c.skip 1)).map fun (out, c) =>
    (String.ofList out.reverse, c)

/-! ### Block scalars -/

/-- What to do with the line ends at the end of a block scalar. -/
inductive Chomping where
  /-- Keep none. -/
  | strip
  /-- Keep one. -/
  | clip
  /-- Keep all. -/
  | keep
deriving DecidableEq, Repr

/-- Empty lines at the cursor: their line ends in reverse, the largest column met,
and the cursor at the first line that is not empty. With an indentation of zero, any
number of spaces is taken. -/
def scanEmptyLines (indent : Nat) :
    (fuel : Nat) → (breaks : List Char) → (widest : Nat) → Cursor →
      Option (List Char × Nat × Cursor)
  | 0, breaks, widest, c => some (breaks, widest, c)
  | fuel + 1, breaks, widest, c =>
    let spaces := (c.rest.takeWhile (· == ' ')).length
    let c := c.skip (if indent = 0 then spaces else min spaces (indent - c.column))
    let widest := max widest c.column
    if (indent = 0 || c.column < indent) && c.sees 0 '\t' then none
    else if c.seesBreak 0 then
      scanEmptyLines indent fuel (c.breakText ++ breaks) widest c.skipBreak
    else some (breaks, widest, c)

/-- The lines of a block scalar. `first` is the line end before the line that is
next and `more` those of the empty lines before it, in reverse; `leading` tells
whether the line before began with a blank. -/
def scanBlockLines (literal : Bool) (indent : Nat) :
    (fuel : Nat) → (out first more : List Char) → (leading : Bool) → Cursor →
      Option (List Char × List Char × List Char × Cursor)
  | 0, out, first, more, _, c => some (out, first, more, c)
  | fuel + 1, out, first, more, leading, c =>
    if c.column ≠ indent ∨ c.atEnd = true then some (out, first, more, c)
    else
      let trailing := c.seesBlank 0
      let joined :=
        if !literal && first == ['\n'] && !leading && !trailing then
          if more.isEmpty then ' ' :: out else more ++ out
        else more ++ (first ++ out)
      let line := c.rest.takeWhile fun x => !isBreak x
      let c := c.skip line.length
      let first := c.breakText
      match scanEmptyLines indent (c.rest.length + 1) [] 0 c.skipBreak with
      | none => none
      | some (more, _, c) =>
        scanBlockLines literal indent fuel (line.reverse ++ joined) first more trailing c

/-- The header of a block scalar: how to chomp, and the indentation if it is
given. -/
def scanBlockHeader (c : Cursor) : Option (Chomping × Option Nat × Cursor) :=
  let chomp? (c : Cursor) : Option Chomping :=
    if c.sees 0 '+' then some .keep else if c.sees 0 '-' then some .strip else none
  let digit? (c : Cursor) : Option Nat :=
    c.next.bind fun x => if x.isDigit then some (x.toNat - 48) else none
  match chomp? c with
  | some chomp =>
    let c := c.skip 1
    match digit? c with
    | some 0 => none
    | some n => some (chomp, some n, c.skip 1)
    | none => some (chomp, none, c)
  | none =>
    match digit? c with
    | some 0 => none
    | some n =>
      let c := c.skip 1
      match chomp? c with
      | some chomp => some (chomp, some n, c.skip 1)
      | none => some (.clip, some n, c)
    | none => some (.clip, none, c)

/-- A block scalar, the cursor being at its indicator. `parent` is the indentation
around it, or `none` outside of everything. -/
def scanBlock (literal : Bool) (parent : Option Nat) (c : Cursor) : Option (String × Cursor) := do
  let (chomp, given, c) ← scanBlockHeader (c.skip 1)
  let c ← c.skipLineRest
  let indent := match given with
    | some n => parent.getD 0 + n
    | none => 0
  let (more, widest, c) ← scanEmptyLines indent (c.rest.length + 1) [] 0 c
  let least := match parent with
    | some n => n + 1
    | none => 1
  let indent := if indent = 0 then max widest least else indent
  let (out, first, more, c) ← scanBlockLines literal indent (c.rest.length + 1) [] [] more false c
  let out := match chomp with
    | .strip => out
    | .clip => first ++ out
    | .keep => more ++ (first ++ out)
  some (String.ofList out.reverse, c)

/-! ### Anchors and tags -/

/-- The name of an anchor or of a reference, the cursor being at the indicator. -/
def scanAnchor (c : Cursor) : Option (String × Cursor) :=
  let c := c.skip 1
  let name := c.rest.takeWhile isWordChar
  let c := c.skip name.length
  let ends := c.seesGap 0 || (c.next).any fun x => "?:,]\x7d%@`".toList.contains x
  if name.isEmpty || !ends then none else some (String.ofList name, c)

/-- A character of a tag. Between angle brackets there are three more. -/
def isTagChar (verbatim : Bool) (c : Char) : Bool :=
  isWordChar c || ";/?:@&=+$.%!~*'()".toList.contains c ||
    (verbatim && (c == ',' || c == '[' || c == ']'))

/-- The text that a tag's characters stand for: octets may be written by number. -/
def unescapeTag : List Char → Option Octets
  | [] => some []
  | '%' :: a :: b :: rest => do
    let n ← hexNumber? [a, b]
    let tail ← unescapeTag rest
    some (n.toUInt8 :: tail)
  | '%' :: _ => none
  | c :: rest => do
    let tail ← unescapeTag rest
    some (String.utf8EncodeChar c ++ tail)

/-- The characters of a tag behind some that belong to it already. -/
def scanTagText (verbatim : Bool) (head : List Char) (c : Cursor) : Option (String × Cursor) := do
  let found := c.rest.takeWhile (isTagChar verbatim)
  let text ← textOf? (← unescapeTag found)
  if head.isEmpty && found.isEmpty then none
  else some (String.ofList (head.drop 1) ++ text, c.skip found.length)

/-- The handle of a tag: an exclamation mark, or a word between two. The answer tells
whether there is a second one. -/
def scanHandle (c : Cursor) : Option (List Char × Bool × Cursor) :=
  if !c.sees 0 '!' then none
  else
    let name := (c.rest.drop 1).takeWhile isWordChar
    let c := c.skip (1 + name.length)
    if c.sees 0 '!' then some ('!' :: (name ++ ['!']), true, c.skip 1)
    else some ('!' :: name, false, c)

/-- A tag as handle and suffix, the cursor being at its exclamation mark. -/
def scanTag (flow : Bool) (c : Cursor) : Option (String × String × Cursor) := do
  let (handle, suffix, c) ←
    if c.sees 1 '<' then do
      let (suffix, c) ← scanTagText true [] (c.skip 2)
      if c.sees 0 '>' then some ("", suffix, c.skip 1) else none
    else do
      let (handle, closed, c) ← scanHandle c
      if closed then do
        let (suffix, c) ← scanTagText false [] c
        some (String.ofList handle, suffix, c)
      else do
        let (suffix, c) ← scanTagText false handle c
        if suffix = "" then some ("", "!", c) else some ("!", suffix, c)
  if c.seesGap 0 || (flow && c.sees 0 ',') then some (handle, suffix, c) else none

end Telemetry.Yaml
