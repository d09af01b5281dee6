import Telemetry.Yaml.Document
import Telemetry.Yaml.Scalar

/-!
# Reading settings from documents

Settings are read by type, one after the other, in the order in which they are
written. What is wrong with a setting is told together with its path, like
`server.listen` or `agent.backoff_ms[0]`. A text that is malformed, or holds more than
one document, is refused without a reason; that only shows when the reading comes to
it.

An empty scalar without quotes stands for an empty mapping, an empty sequence, or no
setting at all, as it is needed.
-/

namespace Telemetry.Yaml

/-- The path to a value. -/
inductive Path where
  /-- The whole document. -/
  | root
  /-- An item of a sequence. -/
  | item (parent : Path) (index : Nat)
  /-- The value of a key of a mapping. -/
  | field (parent : Path) (key : String)
  /-- The value of a key that is a reference. -/
  | unnamed (parent : Path)
deriving DecidableEq, Repr

namespace Path

/-- The wording of a path. -/
def text : Path → String
  | .root => "."
  | .item parent index => parent.text ++ "[" ++ toString index ++ "]"
  | .field .root key => key
  | .field parent key => parent.text ++ "." ++ key
  | .unnamed .root => "?"
  | .unnamed parent => parent.text ++ ".?"

end Path

/-- What can be wrong with a value. -/
inductive Problem where
  /-- It is of another type. -/
  | wrongType (found expected : String)
  /-- It is out of range, or not what its tag says. -/
  | wrongValue (found expected : String)
  /-- A field that must be there is not. -/
  | missingField (name : String)
  /-- A field that is there twice. -/
  | duplicateField (name : String)
  /-- A field that does not exist. -/
  | unknownField (name : String) (known : List String)
deriving DecidableEq, Repr

/-- The wording of a problem. -/
def Problem.describe : Problem → String
  | .wrongType found expected => "invalid type: " ++ found ++ ", expected " ++ expected
  | .wrongValue found expected => "invalid value: " ++ found ++ ", expected " ++ expected
  | .missingField name => "missing field `" ++ name ++ "`"
  | .duplicateField name => "duplicate field `" ++ name ++ "`"
  | .unknownField name known => "unknown field `" ++ name ++ "`, " ++ oneOf known

/-- Why a document holds no settings. -/
inductive Trouble where
  /-- The text is malformed, or holds more than one document. -/
  | malformed
  /-- A value is wrong. -/
  | wrong (path : Path) (problem : Problem)
deriving DecidableEq, Repr

/-- The wording of what is wrong with a document. -/
def Trouble.message : Trouble → String
  | .malformed => "invalid yaml"
  | .wrong .root problem => "invalid yaml: " ++ problem.describe
  | .wrong path problem => "invalid yaml: " ++ path.text ++ ": " ++ problem.describe

/-! ### Parts -/

/-- A part with the parts behind it. What a reference leads to is read in its place;
`resume` then tells where to go on. -/
structure Opened where
  /-- The part. -/
  part : Part
  /-- The parts behind it. -/
  inside : List Part
  /-- The parts behind the reference, if it was one. -/
  resume : Option (List Part)

/-- The next part. -/
def openNext (d : Document) (parts : List Part) : Except Trouble Opened :=
  match parts with
  | [] => .error .malformed
  | .alias number :: rest =>
    match d.target number with
    | part :: inside => .ok ⟨part, inside, some rest⟩
    | [] => .error .malformed
  | part :: rest => .ok ⟨part, rest, none⟩

/-- Where to go on behind a value whose own parts end before `rest`. -/
def Opened.behind (o : Opened) (rest : List Part) : List Part := o.resume.getD rest

/-- The trouble that a part is not of the type expected. -/
def notA {α : Type} (expected : String) (path : Path) : Part → Except Trouble α
  | .scalar tag s style =>
    match meaning tag s style with
    | .ok m => .error (.wrong path (.wrongType m.describe expected))
    | .error should => .error (.wrong path (.wrongValue (Meaning.text s).describe should))
  | .sequenceStart => .error (.wrong path (.wrongType "sequence" expected))
  | .mappingStart => .error (.wrong path (.wrongType "map" expected))
  | .sequenceEnd | .mappingEnd | .alias _ => .error .malformed

/-- A scalar that stands for an empty collection. -/
def isEmptyScalar : Part → Bool
  | .scalar _ s style => s == "" && style == .plain
  | _ => false

/-! ### Scalars -/

/-- A scalar that may be a value of the type of a tag: without quotes, or as indented
lines with the tag. -/
def mayBe (name : String) (tag : Option String) (style : ScalarStyle) : Bool :=
  style == .plain || (style == .literal && tag == some (usualTag name))

/-- A natural number of 64 bits. `expected` is the type it is read for. -/
def readNatural (d : Document) (expected : String) (path : Path) (parts : List Part) :
    Except Trouble (Nat × List Part) := do
  let o ← openNext d parts
  match o.part with
  | .scalar tag s style =>
    match if mayBe "int" tag style then looksNatural? (Nat.pow 2 64) s else none with
    | some n => .ok (n, o.behind o.inside)
    | none => notA expected path o.part
  | part => notA expected path part

/-- A natural number of 32 bits. -/
def readShortNatural (d : Document) (path : Path) (parts : List Part) :
    Except Trouble (Nat × List Part) := do
  let (n, rest) ← readNatural d "u32" path parts
  if n < Nat.pow 2 32 then .ok (n, rest)
  else .error (.wrong path (.wrongValue (Meaning.integer n).describe "u32"))

/-- A truth value. -/
def readBool (d : Document) (path : Path) (parts : List Part) :
    Except Trouble (Bool × List Part) := do
  let o ← openNext d parts
  match o.part with
  | .scalar tag s style =>
    match if mayBe "bool" tag style then looksBool? s else none with
    | some b => .ok (b, o.behind o.inside)
    | none => notA "a boolean" path o.part
  | part => notA "a boolean" path part

/-- A text: any scalar, as it is written. -/
def readText (d : Document) (expected : String) (path : Path) (parts : List Part) :
    Except Trouble (String × List Part) := do
  let o ← openNext d parts
  match o.part with
  | .scalar _ s _ => .ok (s, o.behind o.inside)
  | part => notA expected path part

/-- A text or nothing. What is wrong with a tag that says nothing is told of the
mapping around, whose path is `parent`. -/
def readOptionalText (d : Document) (expected : String) (parent path : Path) (parts : List Part) :
    Except Trouble (Option String × List Part) := do
  let o ← openNext d parts
  match o.part with
  | .scalar tag s style =>
    let rest := o.behind o.inside
    if style ≠ .plain then .ok (some s, rest)
    else if tag = some (usualTag "null") then
      if looksNull s then .ok (none, rest)
      else .error (.wrong parent (.wrongValue (Meaning.text s).describe "null"))
    else if tag.isNone && (s == "" || looksNull s) then .ok (none, rest)
    else .ok (some s, rest)
  | part => notA expected path part

/-! ### Collections -/

/-- The natural numbers up to the end of a sequence. -/
def readItems (d : Document) (path : Path) :
    (fuel index : Nat) → List Part → Except Trouble (List Nat × List Part)
  | 0, _, _ => .error .malformed
  | fuel + 1, index, parts => do
    match parts with
    | .sequenceEnd :: rest => .ok ([], rest)
    | parts => do
      let (n, rest) ← readNatural d "u64" (.item path index) parts
      let (ns, rest) ← readItems d path fuel (index + 1) rest
      .ok (n :: ns, rest)

/-- A sequence of natural numbers. -/
def readNaturals (d : Document) (path : Path) (parts : List Part) :
    Except Trouble (List Nat × List Part) := do
  let o ← openNext d parts
  if isEmptyScalar o.part then .ok ([], o.behind o.inside)
  else match o.part with
    | .sequenceStart => do
      let (ns, rest) ← readItems d path (o.inside.length + 1) 0 o.inside
      .ok (ns, o.behind rest)
    | part => notA "a sequence" path part

/-- The key of an entry, and the path of its value. -/
def readKey (d : Document) (path : Path) (parts : List Part) :
    Except Trouble ((String × Path) × List Part) := do
  let o ← openNext d parts
  match o.part with
  | .scalar _ s _ =>
    .ok ((s, if o.resume.isSome then .unnamed path else .field path s), o.behind o.inside)
  | part => notA "field identifier" path part

/-- The entries up to the end of a mapping. Every key is handed on with the path of
its value and what has been gathered so far. -/
def readEntries {σ : Type} (d : Document) (path : Path)
    (entry : String → Path → σ → List Part → Except Trouble (σ × List Part)) :
    (fuel : Nat) → σ → List Part → Except Trouble (σ × List Part)
  | 0, _, _ => .error .malformed
  | fuel + 1, sofar, parts => do
    match parts with
    | .mappingEnd :: rest => .ok (sofar, rest)
    | parts => do
      let ((key, place), rest) ← readKey d path parts
      let (sofar, rest) ← entry key place sofar rest
      readEntries d path entry fuel sofar rest

/-- A mapping with known fields. `finish` makes the value of what has been
gathered. -/
def readMapping {σ α : Type} (d : Document) (expected : String) (path : Path) (start : σ)
    (entry : String → Path → σ → List Part → Except Trouble (σ × List Part))
    (finish : σ → Except Trouble α) (parts : List Part) : Except Trouble (α × List Part) := do
  let o ← openNext d parts
  if isEmptyScalar o.part then do
    let a ← finish start
    .ok (a, o.behind o.inside)
  else match o.part with
    | .mappingStart => do
      let (sofar, rest) ← readEntries d path entry (o.inside.length + 1) start o.inside
      let a ← finish sofar
      .ok (a, o.behind rest)
    | part => notA expected path part

/-- A field that may be there once. -/
def readOnce {α : Type} (key : String) (path : Path) (sofar : Option α)
    (read : List Part → Except Trouble (α × List Part)) (parts : List Part) :
    Except Trouble (Option α × List Part) :=
  if sofar.isSome then .error (.wrong path (.duplicateField key))
  else (read parts).map fun p => (some p.1, p.2)

/-- The value of a text's one document. -/
def readDocument {α : Type} (read : Document → List Part → Except Trouble (α × List Part))
    (text : String) : Except Trouble α := do
  let d := Document.ofText text
  let (a, _) ← read d d.parts
  if d.complete then .ok a else .error .malformed

end Telemetry.Yaml
