import Telemetry.Octets

/-!
# Requests and responses

What goes over the wire between an agent, or any other client, and a collector: a
method, a path, named values in a header, and a body. The names in a header are read
in either case, and of several values under one name the first one counts.
-/

namespace Telemetry

/-- A request. -/
structure Request where
  /-- The method. -/
  method : String
  /-- The path, and behind a question mark whatever a client adds to it. -/
  target : String
  /-- The named values of the header, in order. -/
  headers : List (String × Octets)
  /-- The body. -/
  body : Octets
deriving DecidableEq

/-- A response. -/
structure Response where
  /-- The status. -/
  status : Nat
  /-- The body. -/
  body : Octets
  /-- The type of the body. -/
  contentType : Option String
  /-- The signature of the body. -/
  signature : Option String
  /-- The methods that would have been taken. -/
  allow : Option String
deriving DecidableEq

/-- A character that a header can show. -/
def isHeaderCharacter (b : UInt8) : Bool := (32 ≤ b && b < 127) || b == 9

namespace Request

/-- The path alone. -/
def path (r : Request) : String :=
  String.ofList (r.target.toList.takeWhile fun c => c != '?' && c != '#')

/-- The text under a name in the header, which is given in small letters. A value that
is not all text counts as none. -/
def header? (r : Request) (name : String) : Option String :=
  match r.headers.find? fun p => p.1.toLower == name with
  | some (_, value) => if value.all isHeaderCharacter then some (textOfAscii value) else none
  | none => none

end Request

end Telemetry
