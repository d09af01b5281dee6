import Telemetry.Http.Message
import Telemetry.Http.Status
import Telemetry.Number.Reading
import Telemetry.Text.Split

/-!
# Messages as octets

How requests and responses lie on the wire. A message is a line that says what it is,
the lines of its header, an empty line, and a body of the length that the header
tells. A line ends in a carriage return and a line feed; a line feed alone is read as
an end too.

Messages follow each other without anything between them, so reading one gives what is
behind it as well, and that is always less than there was.

* `takeLine?`, `readHeader?`, `Request.read?`: reading, with the rest;
* `Request.readAll`: all requests up to the first one that is none;
* `messageOctets`, `Response.octets`: writing.
-/

namespace Telemetry

/-! ### Reading -/

/-- The line at the head of octets, without its end, and what is behind it. -/
def takeLine? : Octets → Option (Octets × Octets)
  | [] => none
  | 10 :: rest => some ([], rest)
  | 13 :: 10 :: rest => some ([], rest)
  | b :: rest => (takeLine? rest).map fun p => (b :: p.1, p.2)

/-- Behind a line there is less than with it. -/
theorem length_of_takeLine? {bs line rest : Octets} (h : takeLine? bs = some (line, rest)) :
    rest.length < bs.length := by
  fun_induction takeLine? bs generalizing line with
  | case1 => cases h
  | case2 rest' =>
    cases h
    simp
  | case3 rest' =>
    cases h
    simp only [List.length_cons]
    omega
  | case4 b rest' _ _ ih =>
    obtain ⟨⟨front, behind⟩, hp, heq⟩ := Option.map_eq_some_iff.1 h
    cases heq
    exact Nat.lt_succ_of_lt (ih hp)

/-- A line of a header as a name and a value, which a colon parts. -/
def namedValue? (line : Octets) : Option (String × Octets) :=
  let isSpace (b : UInt8) : Bool := b == 32 || b == 9
  let name := line.takeWhile (· != ascii ':')
  match line.dropWhile (· != ascii ':') with
  | [] => none
  | _ :: value =>
    if name.isEmpty then none
    else some (textOfAscii name,
      ((value.dropWhile isSpace).reverse.dropWhile isSpace).reverse)

/-- The lines of a header up to the empty one, and what is behind that. -/
def readHeader? (bs : Octets) : Option (List (String × Octets) × Octets) :=
  match _h : takeLine? bs with
  | none => none
  | some ([], rest) => some ([], rest)
  | some (line, rest) => do
    let first ← namedValue? line
    let (others, behind) ← readHeader? rest
    some (first :: others, behind)
termination_by bs.length
decreasing_by exact length_of_takeLine? _h

/-- The length of the body that a header tells; there is no body if it tells none. -/
def bodyLength? (headers : List (String × Octets)) : Option Nat :=
  match headers.find? fun p => p.1.toLower == "content-length" with
  | none => some 0
  | some (_, value) =>
    let digits := (textOfAscii value).toList
    if digits.isEmpty || !digits.all isDigit then none else some (digitsValue digits)

/-- The request at the head of octets, and what is behind it. -/
def Request.read? (bs : Octets) : Option (Request × Octets) :=
  match takeLine? bs with
  | none => none
  | some (line, rest) =>
    match cutAt (· == ' ') (textOfAscii line).toList, readHeader? rest with
    | [method, target, _], some (headers, rest) =>
      match bodyLength? headers with
      | some length =>
        if rest.length < length then none
        else some (⟨String.ofList method, String.ofList target, headers, rest.take length⟩,
          rest.drop length)
      | none => none
    | _, _ => none

/-- Behind a header there is less than with it. -/
theorem length_of_readHeader? {bs rest : Octets} {headers : List (String × Octets)}
    (h : readHeader? bs = some (headers, rest)) : rest.length < bs.length := by
  fun_induction readHeader? bs generalizing headers with
  | case1 => cases h
  | case2 bs behind hline =>
    cases h
    exact length_of_takeLine? hline
  | case3 bs line behind _ hline ih =>
    have hless := length_of_takeLine? hline
    obtain ⟨first, _, h⟩ := Option.bind_eq_some_iff.1 h
    obtain ⟨⟨others, last⟩, hrest, h⟩ := Option.bind_eq_some_iff.1 h
    cases h
    have := ih hrest
    omega

/-- Behind a request there is less than with it. -/
theorem Request.length_of_read? {bs rest : Octets} {r : Request}
    (h : Request.read? bs = some (r, rest)) : rest.length < bs.length := by
  unfold Request.read? at h
  split at h
  · cases h
  · rename_i line behind hline
    have hless := length_of_takeLine? hline
    split at h
    · rename_i headers body _ hheader
      have := length_of_readHeader? hheader
      split at h
      · split at h
        · cases h
        · cases h
          simp only [List.length_drop]
          omega
      · cases h
    · cases h

/-- The requests that follow each other in octets, up to the first one that is none. -/
def Request.readAll (bs : Octets) : List Request :=
  match _h : Request.read? bs with
  | none => []
  | some (r, rest) => r :: Request.readAll rest
termination_by bs.length
decreasing_by exact Request.length_of_read? _h

/-! ### Writing -/

/-- The end of a line. -/
def lineEnd : Octets := [13, 10]

/-- A message of a first line, a header and a body, whose length is added to the
header. -/
def messageOctets (first : String) (headers : List (String × Octets)) (body : Octets) : Octets :=
  let length := ("content-length", octetsOf (toString body.length))
  octetsOf first ++ lineEnd ++
    ((headers ++ [length]).flatMap fun p => octetsOf (p.1 ++ ": ") ++ p.2 ++ lineEnd) ++
    lineEnd ++ body

/-- The named values of a response. -/
def Response.headers (r : Response) : List (String × Octets) :=
  let named (name : String) (value : Option String) : List (String × Octets) :=
    value.toList.map fun v => (name, octetsOf v)
  named "content-type" r.contentType ++ named "hashsha256" r.signature ++ named "allow" r.allow

/-- A response on the wire. -/
def Response.octets (r : Response) : Octets :=
  messageOctets ("HTTP/1.1 " ++ statusText r.status) r.headers r.body

end Telemetry
