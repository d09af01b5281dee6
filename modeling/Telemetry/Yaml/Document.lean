import Telemetry.Yaml.Event

/-!
# Documents

The one document of a text, as a list of parts, with references resolved to the place
of the part they refer to. An anchor is known by a number, the number of different
anchor names that came before it; a reference carries the number that its name had
last, and leads to the last part with that number. As long as no name is used for two
anchors, that is the part that carries the name.

A text that stops being well formed gives the parts up to there.
-/

namespace Telemetry.Yaml

/-- A part of a document. -/
inductive Part where
  /-- A node that came before, by the number of its anchor. -/
  | alias (number : Nat)
  /-- A scalar, with its tag. -/
  | scalar (tag : Option String) (text : String) (style : ScalarStyle)
  /-- A sequence starts. -/
  | sequenceStart
  /-- A sequence ends. -/
  | sequenceEnd
  /-- A mapping starts. -/
  | mappingStart
  /-- A mapping ends. -/
  | mappingEnd
deriving DecidableEq, Repr

/-- A document. -/
structure Document where
  /-- Its parts in order. -/
  parts : List Part
  /-- The places of the parts with anchors, by number; the last entry of a number
  counts. -/
  anchored : List (Nat × Nat)
  /-- Is the text well formed to the end of the document, and is there no other
  document behind it? -/
  complete : Bool

namespace Document

/-- What is being gathered from events. -/
structure Draft where
  /-- The parts so far, in reverse. -/
  parts : List Part
  /-- The numbers of anchor names, the last one of a name first. -/
  numbers : List (String × Nat)
  /-- How many different names there are. -/
  names : Nat
  /-- The places of the parts with anchors, the last one first. -/
  anchored : List (Nat × Nat)

/-- The draft with a part that carries an anchor or none. -/
def Draft.add (d : Draft) (anchor : Option String) (p : Part) : Draft :=
  match anchor with
  | none => { d with parts := p :: d.parts }
  | some name =>
    { parts := p :: d.parts
      numbers := (name, d.names) :: d.numbers
      names := if (d.numbers.lookup name).isSome then d.names else d.names + 1
      anchored := (d.names, d.parts.length) :: d.anchored }

/-- The document of a draft. -/
def Draft.finish (d : Draft) (complete : Bool) : Document := ⟨d.parts.reverse, d.anchored, complete⟩

/-- The first document of events. A reference to a name that has not come is a
fault. -/
def gather (wellFormed : Bool) : Draft → List Event → Document
  | d, [] => d.finish false
  | d, .streamStart :: es | d, .documentStart :: es => gather wellFormed d es
  | d, .streamEnd :: _ => d.finish wellFormed
  | d, .documentEnd :: es => d.finish (wellFormed && es == [.streamEnd])
  | d, .alias name :: es =>
    match d.numbers.lookup name with
    | some number => gather wellFormed (d.add none (.alias number)) es
    | none => d.finish false
  | d, .scalar p text style :: es =>
    gather wellFormed (d.add p.anchor (.scalar p.tag text style)) es
  | d, .sequenceStart p :: es => gather wellFormed (d.add p.anchor .sequenceStart) es
  | d, .sequenceEnd :: es => gather wellFormed (d.add none .sequenceEnd) es
  | d, .mappingStart p :: es => gather wellFormed (d.add p.anchor .mappingStart) es
  | d, .mappingEnd :: es => gather wellFormed (d.add none .mappingEnd) es

/-- The document of a text. A text without any is like an empty document. -/
def ofText (text : String) : Document :=
  let (es, wellFormed) := events text
  let d := gather wellFormed ⟨[], [], 0, []⟩ es
  if d.parts.isEmpty && d.complete then { d with parts := [.scalar none "" .plain] } else d

/-- The parts from the one on that a reference leads to. -/
def target (d : Document) (number : Nat) : List Part :=
  match d.anchored.lookup number with
  | some place => d.parts.drop place
  | none => []

end Document

end Telemetry.Yaml
