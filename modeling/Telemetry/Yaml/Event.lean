import Telemetry.Yaml.Scanner

/-!
# Events

The nodes of a document in the order in which they are written: scalars, references,
and the starts and ends of collections. The machine that finds them takes one token
after the other and keeps a stack of what to go on with.

Events are produced as far as the text is well formed. Whoever reads them may never
come to where it is not, and then finds a fault of another kind before; so the fault
stands at the end of the events and does not replace them.
-/

namespace Telemetry.Yaml

/-- What is told of a node before it comes. -/
structure Properties where
  /-- The name it is referred to by. -/
  anchor : Option String
  /-- Its type, in full. -/
  tag : Option String
deriving DecidableEq, Repr

/-- An event. -/
inductive Event where
  /-- The text starts. -/
  | streamStart
  /-- The text ends. -/
  | streamEnd
  /-- A document starts. -/
  | documentStart
  /-- A document ends. -/
  | documentEnd
  /-- A node that came before. -/
  | alias (name : String)
  /-- A scalar. -/
  | scalar (properties : Properties) (text : String) (style : ScalarStyle)
  /-- A sequence starts. -/
  | sequenceStart (properties : Properties)
  /-- A sequence ends. -/
  | sequenceEnd
  /-- A mapping starts. -/
  | mappingStart (properties : Properties)
  /-- A mapping ends. -/
  | mappingEnd
deriving DecidableEq, Repr

/-- What the machine expects next. -/
inductive Expecting where
  /-- The text. -/
  | stream
  /-- A document; before the first one nothing has to separate it. -/
  | document (first : Bool)
  /-- The node of a document. -/
  | content
  /-- The end of a document. -/
  | documentEnd
  /-- A node in a block. -/
  | blockNode
  /-- An item of an indented sequence. -/
  | blockItem (first : Bool)
  /-- An item of a sequence that is indented like the key it belongs to. -/
  | looseItem
  /-- A key of an indented mapping. -/
  | blockKey (first : Bool)
  /-- Its value. -/
  | blockValue
  /-- An item between brackets. -/
  | flowItem (first : Bool)
  /-- The key of a mapping that is an item between brackets. -/
  | pairKey
  /-- Its value. -/
  | pairValue
  /-- Its end. -/
  | pairEnd
  /-- A key between braces. -/
  | flowKey (first : Bool)
  /-- Its value. -/
  | flowValue
  /-- The value of a key that has none. -/
  | flowNoValue
  /-- Nothing. -/
  | nothing
deriving DecidableEq, Repr

/-- The state of the machine. -/
structure Machine where
  /-- The tokens. -/
  scanner : Scanner
  /-- What is expected next. -/
  expecting : Expecting
  /-- What is expected after that. -/
  stack : List Expecting
  /-- What the tag handles of the document stand for. -/
  handles : List (String × String)

namespace Machine

/-- The machine at the start of a text. -/
def ofText (text : List Char) : Machine := ⟨.ofText text, .stream, [], []⟩

/-- The machine with the next token, which is not yet taken. -/
def peek (m : Machine) : Option (Token × Machine) := do
  let (t, s) ← m.scanner.peek
  some (t, { m with scanner := s })

/-- The machine behind the next token. -/
def take (m : Machine) : Machine := { m with scanner := m.scanner.take }

/-- The machine expecting something else. -/
def expect (m : Machine) (e : Expecting) : Machine := { m with expecting := e }

/-- The machine expecting something else once a node is complete. -/
def later (m : Machine) (e : Expecting) : Machine := { m with stack := e :: m.stack }

/-- The machine with a node complete. -/
def resume (m : Machine) : Machine :=
  match m.stack with
  | e :: stack => { m with expecting := e, stack := stack }
  | [] => { m with expecting := .nothing }

/-- A scalar that is not written. -/
def noScalar : Event := .scalar ⟨none, none⟩ "" .plain

/-- The tag that a handle and a suffix stand for. -/
def fullTag (m : Machine) (handle suffix : String) : Option String :=
  if handle = "" then some suffix else (m.handles.lookup handle).map fun h => h ++ suffix

/-- The tag of the node that comes next, if there is one. -/
def takeTag (m : Machine) : Option (Option (String × String) × Machine) := do
  let (t, m) ← m.peek
  match t with
  | .tag handle suffix => some (some (handle, suffix), m.take)
  | _ => some (none, m)

/-- The anchor of the node that comes next, if there is one. -/
def takeAnchor (m : Machine) : Option (Option String × Machine) := do
  let (t, m) ← m.peek
  match t with
  | .anchor name => some (some name, m.take)
  | _ => some (none, m)

/-- Anchor and tag of the node that comes next, in either order. -/
def takeProperties (m : Machine) : Option (Properties × Machine) := do
  let (before, m) ← m.takeAnchor
  let (tag, m) ← m.takeTag
  let (anchor, m) ← if before.isSome || tag.isNone then some (before, m) else m.takeAnchor
  let full ← match tag with
    | some (handle, suffix) => (m.fullTag handle suffix).map some
    | none => some none
  some (⟨anchor, full⟩, m)

/-- A node. In a block it may be indented; as the value of a key it may be a sequence
that is not. -/
def node (m : Machine) (block loose : Bool) : Option (Event × Machine) := do
  let (t, m) ← m.peek
  match t with
  | .alias name => some (.alias name, m.resume.take)
  | _ => do
    let (p, m) ← m.takeProperties
    let (t, m) ← m.peek
    match t with
    | .blockEntry =>
      if loose then some (.sequenceStart p, m.expect .looseItem)
      else if p.anchor.isSome || p.tag.isSome then some (.scalar p "" .plain, m.resume)
      else none
    | .scalar text style =>
      -- the tag that only says "no other type" is none
      let p := if p.tag = some "!" then { p with tag := none } else p
      some (.scalar p text style, m.resume.take)
    | .flowSequenceStart => some (.sequenceStart p, m.expect (.flowItem true))
    | .flowMappingStart => some (.mappingStart p, m.expect (.flowKey true))
    | t =>
      if block && t == .blockSequenceStart then
        some (.sequenceStart p, m.expect (.blockItem true))
      else if block && t == .blockMappingStart then
        some (.mappingStart p, m.expect (.blockKey true))
      else if p.anchor.isSome || p.tag.isSome then some (.scalar p "" .plain, m.resume)
      else none

/-- The handles that need not be told, with what they stand for. -/
def usualHandles : List (String × String) := [("!", "!"), ("!!", "tag:yaml.org,2002:")]

/-- The directives in front of a document. A version may be told once, a handle too;
the two usual handles need not be told. -/
def directives :
    (fuel : Nat) → (versioned : Bool) → List (String × String) → Machine → Option Machine
  | 0, _, _, _ => none
  | fuel + 1, versioned, handles, m => do
    let (t, m) ← m.peek
    match t with
    | .versionDirective major minor =>
      if versioned || major ≠ 1 || (minor ≠ 1 && minor ≠ 2) then none
      else directives fuel true handles m.take
    | .tagDirective handle expansion =>
      if (handles.lookup handle).isSome then none
      else directives fuel versioned (handles ++ [(handle, expansion)]) m.take
    | _ => some { m with handles := handles ++ usualHandles }

/-- The machine behind marks that only end documents. -/
def skipEnds : (fuel : Nat) → Machine → Option Machine
  | 0, _ => none
  | fuel + 1, m => do
    let (t, m) ← m.peek
    if t == .documentEnd then skipEnds fuel m.take else some m

/-- The start of a document, or the end of the text. -/
def document (m : Machine) (first : Bool) : Option (Event × Machine) := do
  let size := m.scanner.cursor.rest.length + m.scanner.queue.length + 2
  let m ← if first then some m else skipEnds size m
  let (t, m) ← m.peek
  let marked := match t with
    | .versionDirective .. | .tagDirective .. | .documentStart => true
    | _ => false
  if t == .streamEnd then some (.streamEnd, (m.expect .nothing).take)
  else do
    let m ← if first && !marked then some { m with handles := usualHandles }
      else directives size false [] m
    let (t, m) ← m.peek
    if first && !marked then some (.documentStart, (m.later .documentEnd).expect .blockNode)
    else if t == .documentStart then
      some (.documentStart, ((m.later .documentEnd).expect .content).take)
    else none

/-- A node, or nothing in its place if one of certain tokens is next. `after` is what
is expected behind it. -/
def nodeUnless (m : Machine) (ends : List Token) (after : Expecting) (block loose : Bool) :
    Option (Event × Machine) := do
  let (t, m) ← m.peek
  if ends.contains t then some (noScalar, m.expect after)
  else (m.later after).node block loose

/-- The end of a collection, with its token. -/
def close (m : Machine) (e : Event) : Option (Event × Machine) := some (e, m.resume.take)

/-- The next event. -/
def step (m : Machine) : Option (Event × Machine) := do
  match m.expecting with
  | .stream => do
    let (_, m) ← m.peek
    some (.streamStart, (m.expect (.document true)).take)
  | .document first => m.document first
  | .content => do
    let (t, m) ← m.peek
    match t with
    | .versionDirective .. | .tagDirective .. | .documentStart | .documentEnd | .streamEnd =>
      some (noScalar, m.resume)
    | _ => m.node true false
  | .documentEnd => do
    let (t, m) ← m.peek
    some (.documentEnd, (if t == .documentEnd then m.take else m).expect (.document false))
  | .blockNode => m.node true false
  | .blockItem first => do
    let m := if first then m.take else m
    let (t, m) ← m.peek
    if t == .blockEntry then
      m.take.nodeUnless [.blockEntry, .blockEnd] (.blockItem false) true false
    else if t == .blockEnd then m.close .sequenceEnd
    else none
  | .looseItem => do
    let (t, m) ← m.peek
    if t == .blockEntry then
      m.take.nodeUnless [.blockEntry, .key, .value, .blockEnd] .looseItem true false
    else some (.sequenceEnd, m.resume)
  | .blockKey first => do
    let m := if first then m.take else m
    let (t, m) ← m.peek
    if t == .key then m.take.nodeUnless [.key, .value, .blockEnd] .blockValue true true
    else if t == .blockEnd then m.close .mappingEnd
    else none
  | .blockValue => do
    let (t, m) ← m.peek
    if t == .value then m.take.nodeUnless [.key, .value, .blockEnd] (.blockKey false) true true
    else some (noScalar, m.expect (.blockKey false))
  | .flowItem first => do
    let m := if first then m.take else m
    let (t, m) ← m.peek
    if t == .flowSequenceEnd then m.close .sequenceEnd
    else do
      let m ← if first then some m else if t == .flowEntry then some m.take else none
      let (t, m) ← m.peek
      if t == .key then some (.mappingStart ⟨none, none⟩, (m.expect .pairKey).take)
      else if t == .flowSequenceEnd then m.close .sequenceEnd
      else (m.later (.flowItem false)).node false false
  | .pairKey => do
    let (t, m) ← m.peek
    if [Token.value, .flowEntry, .flowSequenceEnd].contains t then
      some (noScalar, (m.expect .pairValue).take)
    else (m.later .pairValue).node false false
  | .pairValue => do
    let (t, m) ← m.peek
    if t == .value then m.take.nodeUnless [.flowEntry, .flowSequenceEnd] .pairEnd false false
    else some (noScalar, m.expect .pairEnd)
  | .pairEnd => some (.mappingEnd, m.expect (.flowItem false))
  | .flowKey first => do
    let m := if first then m.take else m
    let (t, m) ← m.peek
    if t == .flowMappingEnd then m.close .mappingEnd
    else do
      let m ← if first then some m else if t == .flowEntry then some m.take else none
      let (t, m) ← m.peek
      if t == .key then
        m.take.nodeUnless [.value, .flowEntry, .flowMappingEnd] .flowValue false false
      else if t == .flowMappingEnd then m.close .mappingEnd
      else (m.later .flowNoValue).node false false
  | .flowValue => do
    let (t, m) ← m.peek
    if t == .value then
      m.take.nodeUnless [.flowEntry, .flowMappingEnd] (.flowKey false) false false
    else some (noScalar, m.expect (.flowKey false))
  | .flowNoValue => do
    let (_, m) ← m.peek
    some (noScalar, m.expect (.flowKey false))
  | .nothing => none

end Machine

/-- The events of a text from where the machine stands, and whether the text is well
formed to its end. -/
def eventsFrom : (fuel : Nat) → Machine → List Event × Bool
  | 0, _ => ([], false)
  | fuel + 1, m =>
    match m.step with
    | none => ([], false)
    | some (.streamEnd, _) => ([.streamEnd], true)
    | some (e, m) =>
      let (es, complete) := eventsFrom fuel m
      (e :: es, complete)

/-- The events of a text. A text with a character that no text may contain has
none. -/
def events (text : String) : List Event × Bool :=
  let chars := match text.toList with
    | '\ufeff' :: rest => rest
    | chars => chars
  if chars.all isAllowed then eventsFrom (4 * chars.length + 16) (.ofText chars) else ([], false)

end Telemetry.Yaml
