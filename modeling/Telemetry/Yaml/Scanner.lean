import Telemetry.Yaml.Scalars
import Telemetry.Yaml.Token

/-!
# Scanning tokens

Tokens are scanned one after the other, and two things are known only later than they
are needed. Where a collection of indented lines ends shows at the first line that is
indented less: then the scanner owes the marks of its end. And that a scalar was the
key of a mapping shows at the colon behind it: then the scanner puts the marks of the
mapping and the key in front of it.

So the scanner remembers, for each flow collection it is in and for the block around
them, where a key could have started (`KeyPlace`), and its tokens wait in a queue
until no such place lies before them. A key lies on one line and is no longer than
1024 characters.

A text that is malformed gives nothing from there on; why, nobody asks.
-/

namespace Telemetry.Yaml

/-- A place where a key may have started. -/
structure KeyPlace where
  /-- The number of the token that would be the key. -/
  token : Nat
  /-- Must it be a key? It must at the indentation of the mapping it lies in. -/
  required : Bool
  /-- Where it starts. -/
  index : Nat
  /-- The line it starts on. -/
  line : Nat
  /-- The column it starts at. -/
  column : Nat

/-- The longest key there is, in characters. -/
def maxKeyLength : Nat := 1024

/-- The state of the scanner. -/
structure Scanner where
  /-- The text still to be read. -/
  cursor : Cursor
  /-- Has the scanner started? -/
  started : Bool
  /-- Tokens that wait to be taken, the first one first. -/
  queue : List Token
  /-- How many tokens have been taken. -/
  taken : Nat
  /-- The indentation around the cursor, and those around that one; none outside of
  everything. -/
  indents : List Nat
  /-- May a key start here? -/
  keyAllowed : Bool
  /-- The place where a key may have started in the block. -/
  blockKey : Option KeyPlace
  /-- The same for each flow collection around the cursor, the innermost one first. -/
  flowKeys : List (Option KeyPlace)

namespace Scanner

/-- The scanner at the start of a text. -/
def ofText (text : List Char) : Scanner :=
  ⟨.ofText text, false, [], 0, [], true, none, []⟩

/-- Inside of a flow collection? -/
def inFlow (s : Scanner) : Bool := !s.flowKeys.isEmpty

/-- The indentation around the cursor. -/
def indent (s : Scanner) : Option Nat := s.indents.head?

/-- A token at the end of the queue. -/
def push (s : Scanner) (t : Token) : Scanner := { s with queue := s.queue ++ [t] }

/-- A token in front of the one with a number. -/
def insertAt (s : Scanner) (number : Nat) (t : Token) : Scanner :=
  { s with queue := s.queue.insertIdx (number - s.taken) t }

/-! ### Keys -/

/-- The place where a key may have started. -/
def currentKey (s : Scanner) : Option KeyPlace :=
  match s.flowKeys with
  | key :: _ => key
  | [] => s.blockKey

/-- The state with another such place. -/
def setKey (s : Scanner) (key : Option KeyPlace) : Scanner :=
  match s.flowKeys with
  | _ :: keys => { s with flowKeys := key :: keys }
  | [] => { s with blockKey := key }

/-- All such places. -/
def keys (s : Scanner) : List KeyPlace := (s.blockKey :: s.flowKeys).filterMap id

/-- Does the cursor lie too far behind a place for a key to have started there? -/
def isStale (s : Scanner) (k : KeyPlace) : Bool :=
  k.line < s.cursor.line || k.index + maxKeyLength < s.cursor.index

/-- The state without the places that lie too far back; a key must not be missing. -/
def dropStaleKeys (s : Scanner) : Option Scanner :=
  if s.keys.any fun k => s.isStale k && k.required then none
  else
    let fresh (key : Option KeyPlace) : Option KeyPlace := key.filter fun k => !s.isStale k
    some { s with blockKey := fresh s.blockKey, flowKeys := s.flowKeys.map fresh }

/-- The state without the current place; a key must not be missing. -/
def dropKey (s : Scanner) : Option Scanner :=
  if s.currentKey.any (·.required) then none else some (s.setKey none)

/-- The state with the cursor as a place where a key may start, if it may. -/
def saveKey (s : Scanner) : Option Scanner :=
  if s.keyAllowed then do
    let key : KeyPlace := {
      token := s.taken + s.queue.length
      required := !s.inFlow && s.indent == some s.cursor.column
      index := s.cursor.index
      line := s.cursor.line
      column := s.cursor.column }
    let s ← s.dropKey
    some (s.setKey (some key))
  else some s

/-! ### Indentation -/

/-- The state with the collections ended that are indented more than a column. -/
def unroll (s : Scanner) (column : Option Nat) : Scanner :=
  if s.inFlow then s
  else
    let deeper := s.indents.takeWhile fun i => column.all (· < i)
    { s with indents := s.indents.drop deeper.length
             queue := s.queue ++ List.replicate deeper.length .blockEnd }

/-- The state with a collection started at a column, if that is indented more. The
mark of its start goes in front of a token or to the end of the queue. -/
def roll (s : Scanner) (column : Nat) (number : Option Nat) (start : Token) : Scanner :=
  if s.inFlow || s.indent.any (column ≤ ·) then s
  else
    let s := { s with indents := column :: s.indents }
    match number with
    | some n => s.insertAt n start
    | none => s.push start

/-! ### Tokens -/

/-- The cursor moved. -/
def moveTo (s : Scanner) (c : Cursor) : Scanner := { s with cursor := c }

/-- A token of `n` characters. -/
def mark (s : Scanner) (n : Nat) (t : Token) : Scanner := (s.moveTo (s.cursor.skip n)).push t

/-- Blanks, comments and line ends up to the next token. A tab may only stand where no
key can start. -/
def skipToToken : (fuel : Nat) → Scanner → Scanner
  | 0, s => s
  | fuel + 1, s =>
    let c := s.cursor
    let c := if c.column = 0 && c.sees 0 '\ufeff' then c.skip 1 else c
    let c := c.skipWhile fun x => x == ' ' || ((s.inFlow || !s.keyAllowed) && x == '\t')
    let c := if c.sees 0 '#' then c.skipWhile fun x => !isBreak x else c
    if c.seesBreak 0 then
      skipToToken fuel { s with cursor := c.skipBreak, keyAllowed := s.keyAllowed || !s.inFlow }
    else s.moveTo c

/-- The end of the text. -/
def fetchEnd (s : Scanner) : Option Scanner := do
  let s ← (s.unroll none).dropKey
  some ({ s with keyAllowed := false }.push .streamEnd)

/-- The number that digits write, at most nine of them. -/
def scanNumber (c : Cursor) : Option (Nat × Cursor) :=
  let digits := c.rest.takeWhile Char.isDigit
  if digits.isEmpty || 9 < digits.length then none
  else some (digits.foldl (fun n d => 10 * n + (d.toNat - 48)) 0, c.skip digits.length)

/-- A directive, the cursor being at the percent sign. -/
def scanDirective (c : Cursor) : Option (Token × Cursor) := do
  let c := c.skip 1
  let name := String.ofList (c.rest.takeWhile isWordChar)
  let c := c.skip name.length
  if !c.seesGap 0 then none
  else if name = "YAML" then do
    let (major, c) ← scanNumber (c.skipWhile isBlank)
    if !c.sees 0 '.' then none
    else do
      let (minor, c) ← scanNumber (c.skip 1)
      let c ← c.skipLineRest
      some (.versionDirective major minor, c)
  else if name = "TAG" then do
    let (handle, closed, c) ← scanHandle (c.skipWhile isBlank)
    if (!closed && handle ≠ ['!']) || !c.seesBlank 0 then none
    else do
      let (expansion, c) ← scanTagText true [] (c.skipWhile isBlank)
      if !c.seesGap 0 then none
      else do
        let c ← c.skipLineRest
        some (.tagDirective (String.ofList handle) expansion, c)
  else none

/-- A directive or the mark of a document: nothing of the block before goes on. -/
def fetchOutside (s : Scanner) (scan : Cursor → Option (Token × Cursor)) : Option Scanner := do
  let s ← (s.unroll none).dropKey
  let (t, c) ← scan s.cursor
  some (({ s with keyAllowed := false }.moveTo c).push t)

/-- An opening bracket or brace. -/
def fetchFlowStart (s : Scanner) (t : Token) : Option Scanner := do
  let s ← s.saveKey
  some ({ s with flowKeys := none :: s.flowKeys, keyAllowed := true }.mark 1 t)

/-- A closing bracket or brace. -/
def fetchFlowEnd (s : Scanner) (t : Token) : Option Scanner := do
  let s ← s.dropKey
  some ({ s with flowKeys := s.flowKeys.drop 1, keyAllowed := false }.mark 1 t)

/-- A comma. -/
def fetchFlowEntry (s : Scanner) : Option Scanner := do
  let s ← s.dropKey
  some ({ s with keyAllowed := true }.mark 1 .flowEntry)

/-- The dash of an item. -/
def fetchBlockEntry (s : Scanner) : Option Scanner :=
  if !s.inFlow && !s.keyAllowed then none
  else do
    let s ← (s.roll s.cursor.column none .blockSequenceStart).dropKey
    some ({ s with keyAllowed := true }.mark 1 .blockEntry)

/-- The question mark of a key. -/
def fetchKey (s : Scanner) : Option Scanner :=
  if !s.inFlow && !s.keyAllowed then none
  else do
    let s ← (s.roll s.cursor.column none .blockMappingStart).dropKey
    some ({ s with keyAllowed := !s.inFlow }.mark 1 .key)

/-- The colon of a value. If a key may have started before, it has. -/
def fetchValue (s : Scanner) : Option Scanner :=
  match s.currentKey with
  | some key =>
    let s := s.insertAt key.token .key
    let s := s.roll key.column (some key.token) .blockMappingStart
    some ({ s.setKey none with keyAllowed := false }.mark 1 .value)
  | none =>
    if !s.inFlow && !s.keyAllowed then none
    else
      let s := s.roll s.cursor.column none .blockMappingStart
      some ({ s with keyAllowed := !s.inFlow }.mark 1 .value)

/-- A reference, an anchor, a tag or a quoted scalar: a key may start with it. -/
def fetchNode (s : Scanner) (scan : Cursor → Option (Token × Cursor)) : Option Scanner := do
  let s ← s.saveKey
  let (t, c) ← scan s.cursor
  some (({ s with keyAllowed := false }.moveTo c).push t)

/-- A plain scalar. Behind a line end, a key may start again. -/
def fetchPlain (s : Scanner) : Option Scanner := do
  let s ← s.saveKey
  let least := match s.indent with
    | some n => n + 1
    | none => 0
  let (text, broken, c) ← scanPlain s.inFlow least s.cursor
  some (({ s with keyAllowed := broken }.moveTo c).push (.scalar text .plain))

/-- A block scalar. -/
def fetchBlock (s : Scanner) (literal : Bool) : Option Scanner := do
  let s ← s.dropKey
  let (text, c) ← scanBlock literal s.indent s.cursor
  some (({ s with keyAllowed := true }.moveTo c).push
    (.scalar text (if literal then .literal else .folded)))

/-- May a plain scalar start here? -/
def startsPlain (s : Scanner) (x : Char) : Bool :=
  let c := s.cursor
  !("-?:,[]\x7b\x7d#&*!|>'\"%@`".toList.contains x) || (x == '-' && !c.seesBlank 1) ||
    (!s.inFlow && (x == '?' || x == ':') && !c.seesGap 1)

/-- The state with at least one more token, or at the end of the text with none. -/
def fetch (s : Scanner) : Option Scanner :=
  if !s.started then some ({ s with started := true }.push .streamStart)
  else do
    let s ← (skipToToken (s.cursor.rest.length + 1) s).dropStaleKeys
    let s := s.unroll (some s.cursor.column)
    let c := s.cursor
    match c.next with
    | none => s.fetchEnd
    | some x =>
      if c.column = 0 && x == '%' then s.fetchOutside scanDirective
      else if c.seesMark '-' then s.fetchOutside fun c => some (.documentStart, c.skip 3)
      else if c.seesMark '.' then s.fetchOutside fun c => some (.documentEnd, c.skip 3)
      else if x == '[' then s.fetchFlowStart .flowSequenceStart
      else if x == '{' then s.fetchFlowStart .flowMappingStart
      else if x == ']' then s.fetchFlowEnd .flowSequenceEnd
      else if x == '}' then s.fetchFlowEnd .flowMappingEnd
      else if x == ',' then s.fetchFlowEntry
      else if x == '-' && c.seesGap 1 then s.fetchBlockEntry
      else if x == '?' && (s.inFlow || c.seesGap 1) then s.fetchKey
      else if x == ':' && (s.inFlow || c.seesGap 1) then s.fetchValue
      else if x == '*' then
        s.fetchNode fun c => (scanAnchor c).map fun (name, c) => (.alias name, c)
      else if x == '&' then
        s.fetchNode fun c => (scanAnchor c).map fun (name, c) => (.anchor name, c)
      else if x == '!' then
        s.fetchNode fun c => (scanTag s.inFlow c).map fun (h, suffix, c) => (.tag h suffix, c)
      else if x == '|' && !s.inFlow then s.fetchBlock true
      else if x == '>' && !s.inFlow then s.fetchBlock false
      else if x == '\'' then
        s.fetchNode fun c => (scanQuoted true c).map fun (t, c) => (.scalar t .singleQuoted, c)
      else if x == '"' then
        s.fetchNode fun c => (scanQuoted false c).map fun (t, c) => (.scalar t .doubleQuoted, c)
      else if s.startsPlain x then s.fetchPlain
      else none

/-- The state in which the first token of the queue can be taken: no key can have
started in front of it. -/
def ready : (fuel : Nat) → Scanner → Option Scanner
  | 0, _ => none
  | fuel + 1, s =>
    if s.queue.isEmpty then do ready fuel (← s.fetch)
    else do
      let s ← s.dropStaleKeys
      if s.keys.any fun k => k.token == s.taken then ready fuel (← s.fetch) else some s

/-- The next token, with the state in which it can be taken. -/
def peek (s : Scanner) : Option (Token × Scanner) := do
  let s ← s.ready (2 * s.cursor.rest.length + 4)
  let t ← s.queue.head?
  some (t, s)

/-- The state behind the next token. -/
def take (s : Scanner) : Scanner := { s with queue := s.queue.drop 1, taken := s.taken + 1 }

end Scanner

end Telemetry.Yaml
