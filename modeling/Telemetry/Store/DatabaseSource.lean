import Telemetry.Net.Percent
import Telemetry.Text.Split

/-!
# Where a database is

A text tells it: a path, with or without a scheme in front of it, and behind a
question mark how to treat what is there. In the path and in the options an octet may
be written as a percent sign and two hexadecimal digits. Options that do not exist,
and values that an option does not have, make the whole text invalid.
-/

namespace Telemetry

/-! ### Options -/

/-- One side of an option, in which a plus sign stands for a space. Octets that are no
text give a text that no option has. -/
def optionText (bs : Octets) : String :=
  let spaced := bs.map fun b => if b = ascii '+' then ascii ' ' else b
  (textOf? (percentDecode spaced)).getD "\uFFFD"

/-- The options in a text, as names and values. -/
def optionPairs (bs : Octets) : List (String × String) :=
  ((cutAt (· == ascii '&') bs).filter fun part => !part.isEmpty).map fun part =>
    let name := part.takeWhile (· != ascii '=')
    (optionText name, optionText (part.drop (name.length + 1)))

/-! ### Sources -/

/-- Where a database is and how it is treated. -/
structure DatabaseSource where
  /-- The path of its file. -/
  path : String
  /-- Is it kept in memory, whatever its path is? -/
  inMemory : Bool
  /-- May it only be read? -/
  readOnly : Bool
  /-- Is the file taken for one that nobody changes? -/
  immutable : Bool
  /-- How files are reached, if not in the usual way. -/
  reach : Option String
deriving DecidableEq, Repr

namespace DatabaseSource

/-- The source with an option applied, unless there is no such option or it has no
such value. -/
def withOption (s : DatabaseSource) (name value : String) : Option DatabaseSource :=
  match name, value with
  | "mode", "ro" => some { s with readOnly := true }
  | "mode", "rw" | "mode", "rwc" => some s
  | "mode", "memory" => some { s with inMemory := true }
  | "cache", "private" | "cache", "shared" => some s
  | "immutable", "true" | "immutable", "1" => some { s with immutable := true }
  | "immutable", "false" | "immutable", "0" => some { s with immutable := false }
  | "vfs", name => some { s with reach := some name }
  | _, _ => none

/-- A text without all of the copies of another one at its head. -/
def dropAll (head : List Char) : (fuel : Nat) → List Char → List Char
  | 0, cs => cs
  | fuel + 1, cs =>
    if head.isPrefixOf cs then dropAll head fuel (cs.drop head.length) else cs

/-- The source that a text tells. -/
def parse? (dsn : String) : Option DatabaseSource := do
  let cs := dsn.toList
  let cs := dropAll "sqlite://".toList cs.length cs
  let cs := dropAll "sqlite:".toList cs.length cs
  let database := cs.takeWhile (· != '?')
  let options := cs.drop (database.length + 1)
  let path ← if database = ":memory:".toList then some ":memory:"
    else percentDecodeText? database
  let inMemory : Bool := database = ":memory:".toList || path.isEmpty
  (optionPairs (octetsOf (String.ofList options))).foldlM (fun s p => s.withOption p.1 p.2)
    ⟨path, inMemory, false, false, none⟩

end DatabaseSource

end Telemetry
