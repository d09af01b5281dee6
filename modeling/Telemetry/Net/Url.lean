import Telemetry.Net.Percent
import Telemetry.Net.Punycode
import Telemetry.Text.Split

/-!
# Where a request goes

The location of a service on the web, read as browsers read it: generously where the
meaning is plain, so that a blank in a path or a capital letter in a name is put
right, and not at all where there is no host. A location has one text, in which all
of that has been put right; it is the text that messages show.

Only locations over the two schemes of the web are read here, and their scheme is in
small letters already.

* `Url.parse?`: the location that a text tells;
* `Url.text`: its text;
* `Url.authority`, `Url.target`: the parts that a request carries.
-/

namespace Telemetry.Net

/-! ### What the parts do not hold -/

/-- The characters that a fragment does not hold. -/
def fragmentSpecials : String := " \"<>`"

/-- The characters that a query does not hold. -/
def querySpecials : String := " \"#<>'"

/-- The characters that a path does not hold. -/
def pathSpecials : String := " \"<>`#?\x7b\x7d"

/-- The characters that a name of a user does not hold. -/
def userSpecials : String := pathSpecials ++ "/:;=@[\\]^|"

/-! ### Hosts -/

/-- A number in a host: decimal, or octal behind a zero, or hexadecimal behind a zero
and an x. -/
def hostNumber? (part : List Char) : Option Nat :=
  let (base, digits) := match part with
    | '0' :: 'x' :: rest => (16, rest)
    | '0' :: rest => if rest.isEmpty then (10, part) else (8, rest)
    | _ => (10, part)
  if part.isEmpty then none
  else digits.foldlM (fun n c => (digitOf? base c).map fun d => base * n + d) 0

/-- The parts of a host, without an empty one at the end. -/
def hostParts (host : List Char) : List (List Char) :=
  let parts := cutAt (· == '.') host
  if parts.getLast? = some [] then parts.dropLast else parts

/-- Does the last part of a host look like a number? Such a host has to be an address. -/
def endsInNumber (host : List Char) : Bool :=
  match (hostParts host).getLast? with
  | none => false
  | some part => (!part.isEmpty && part.all isDigit) || (hostNumber? part).isSome

/-- The address that up to four numbers tell, the last one of which fills what is left. -/
def hostAddress? (host : List Char) : Option HostAddress := do
  let numbers ← (hostParts host).mapM hostNumber?
  let last ← numbers.getLast?
  let front := numbers.dropLast
  if 3 < front.length || front.any (255 < ·) || Nat.pow 256 (4 - front.length) ≤ last then none
  else
    let n := front.zipIdx.foldl (fun n p => n + p.1 * Nat.pow 256 (3 - p.2)) last
    some (.v4 [n / Nat.pow 256 3, n / Nat.pow 256 2 % 256, n / 256 % 256, n % 256])

/-- The text of eight groups, which here never ends in four numbers. -/
def groupsHostText (groups : List Nat) : String :=
  match longestZeros 0 groups with
  | (place, length) =>
    if length ≤ 1 then groupsText groups
    else groupsText (groups.take place) ++ "::" ++ groupsText (groups.drop (place + length))

/-- A character that no name of a host has. -/
def isForbiddenInHost (c : Char) : Bool :=
  c.toNat ≤ 32 || c.toNat == 127 || "%#/:<>?@[\\]^|".toList.contains c

/-- The text of the host that a text tells. -/
def hostText? (cs : List Char) : Option String :=
  match cs with
  | [] => none
  | '[' :: rest =>
    if rest.getLast? = some ']' then
      match takeV6 rest.dropLast with
      | some (groups, []) => some ("[" ++ groupsHostText groups ++ "]")
      | _ => none
    else none
  | _ => do
    let decoded ← percentDecodeText? cs
    let labels ← (cutAt (· == '.') (decoded.toList.map nameLetter)).mapM asciiLabel?
    let host := (labels.intersperse ['.']).flatten
    if host.isEmpty || host.any isForbiddenInHost then none
    else if endsInNumber host then (hostAddress? host).map HostAddress.text
    else some (String.ofList host)

/-- The port behind a host: none, if there are no digits, or the one of the scheme. -/
def port? (scheme : String) (cs : List Char) : Option (Option Nat) :=
  match cs with
  | [] | [':'] => some none
  | ':' :: digits =>
    if digits.all isDigit && digitsValue digits < 65536 then
      let n := digitsValue digits
      some (if n = (if scheme = "http" then 80 else 443) then none else some n)
    else none
  | _ => none

/-- A host with what follows it up to its port. -/
def splitHost : (inBrackets : Bool) → List Char → List Char × List Char
  | _, [] => ([], [])
  | inBrackets, c :: cs =>
    if c = ':' && !inBrackets then ([], c :: cs)
    else
      let inBrackets := if c = '[' then true else if c = ']' then false else inBrackets
      let (host, rest) := splitHost inBrackets cs
      (c :: host, rest)

/-! ### Paths -/

/-- Is a name in a path one point, in any way of writing it? -/
def isOnePoint (part : List Char) : Bool :=
  let s := String.ofList (part.map Char.toLower)
  s == "." || s == "%2e"

/-- Is a name in a path two points? -/
def isTwoPoints (part : List Char) : Bool :=
  let s := String.ofList (part.map Char.toLower)
  s == ".." || s == ".%2e" || s == "%2e." || s == "%2e%2e"

/-- The names of a path behind those that were there before, which are held in
reverse. -/
def pathParts : (before : List (List Char)) → List (List Char) → List (List Char)
  | before, [] => before.reverse
  | before, [part] =>
    if isTwoPoints part then ([] :: before.tail).reverse
    else if isOnePoint part then ([] :: before).reverse
    else (percentEncode pathSpecials part :: before).reverse
  | before, part :: parts =>
    if isTwoPoints part then pathParts before.tail parts
    else if isOnePoint part then pathParts before parts
    else pathParts (percentEncode pathSpecials part :: before) parts

/-- The text of a path. -/
def pathText (cs : List Char) : String :=
  let parts := match cs with
    | [] => [[]]
    | _ :: rest => cutAt (fun c => c == '/' || c == '\\') rest
  String.ofList ((pathParts [] parts).flatMap fun part => '/' :: part)

/-! ### Locations -/

/-- A location of a service on the web. -/
structure Url where
  /-- The scheme. -/
  scheme : String
  /-- The user and what follows it up to the host, or nothing. -/
  user : String
  /-- The host. -/
  host : String
  /-- The port, unless it is the one of the scheme. -/
  port : Option Nat
  /-- The path. -/
  path : String
  /-- What is asked for there. -/
  query : Option String
  /-- A part of what is there. -/
  fragment : Option String
deriving DecidableEq, Repr

namespace Url

/-- The user in front of a host. One whose name is text is not kept, for a request tells
it elsewhere. -/
def keptUser (cs : List Char) : String :=
  let name := percentEncode userSpecials (cs.takeWhile (· != ':'))
  let word := percentEncode userSpecials (cs.drop ((cs.takeWhile (· != ':')).length + 1))
  let isText (cs : List Char) : Bool := (percentDecodeText? cs).isSome
  if name.isEmpty && word.isEmpty then ""
  else if isText name && (!name.isEmpty || isText word) then ""
  else String.ofList (name ++ (if word.isEmpty then [] else ':' :: word) ++ ['@'])

/-- The parts of a text in front of the first of some characters, and from it on. -/
def span (isEnd : Char → Bool) (cs : List Char) : List Char × List Char :=
  (cs.takeWhile fun c => !isEnd c, cs.dropWhile fun c => !isEnd c)

/-- The location that a text tells. -/
def parse? (s : String) : Option Url := do
  let cs := s.toList.filter fun c => c != '\t' && c != '\n' && c != '\r'
  let scheme := String.ofList (cs.takeWhile (· != ':'))
  let cs := cs.drop (scheme.length + 1)
  let (authority, rest) := span (fun c => c == '/' || c == '\\' || c == '?' || c == '#')
    (cs.dropWhile fun c => c == '/' || c == '\\')
  let behindUser := (authority.reverse.takeWhile (· != '@')).reverse
  let user := authority.take (authority.length - behindUser.length - 1)
  let (host, port) := splitHost false behindUser
  let hostText ← hostText? host
  let port ← port? scheme port
  let (path, rest) := span (fun c => c == '?' || c == '#') rest
  let (query, rest) := span (· == '#') rest
  some {
    scheme := scheme
    user := keptUser user
    host := hostText
    port := port
    path := pathText path
    query :=
      if query.isEmpty then none
      else some (String.ofList (percentEncode querySpecials query.tail))
    fragment :=
      if rest.isEmpty then none
      else some (String.ofList (percentEncode fragmentSpecials rest.tail)) }

/-- The host with its port. -/
def authority (u : Url) : String :=
  u.host ++ (u.port.elim "" fun n => ":" ++ toString n)

/-- The path with what is asked for there. -/
def target (u : Url) : String := u.path ++ (u.query.elim "" fun q => "?" ++ q)

/-- The text of a location. -/
def text (u : Url) : String :=
  u.scheme ++ "://" ++ u.user ++ u.authority ++ u.target ++ (u.fragment.elim "" fun f => "#" ++ f)

/-- Can a request be sent there? A host with a character that a header does not take
cannot be told in one. -/
def isSendable (u : Url) : Bool := u.host.toList.all fun c => !"\"`\x7b\x7d".toList.contains c

end Url

end Telemetry.Net
