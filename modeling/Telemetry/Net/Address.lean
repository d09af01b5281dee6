import Telemetry.Number.Reading
import Telemetry.Text.Quoted

/-!
# Addresses

Addresses of hosts, in the strict forms: four decimal numbers without needless zeros,
or eight hexadecimal groups, of which a run may be left out and the last two may be
written as four decimal numbers. The address of a service adds a port, and brackets
around the groups.

Readers take an address from the head of a text and give what is left, so that the
same one serves on its own and inside of a longer form.
-/

namespace Telemetry.Net

/-- The address of a host. -/
inductive HostAddress where
  /-- Four octets. -/
  | v4 (octets : List Nat)
  /-- Eight groups of two octets. -/
  | v6 (groups : List Nat)
deriving DecidableEq, Repr

/-! ### Reading -/

/-- The value of a digit in a base up to sixteen. -/
def digitOf? (base : Nat) (c : Char) : Option Nat :=
  let v :=
    if '0' ≤ c ∧ c ≤ '9' then c.toNat - 48
    else if 'a' ≤ c ∧ c ≤ 'f' then c.toNat - 87
    else if 'A' ≤ c ∧ c ≤ 'F' then c.toNat - 55
    else base
  if v < base then some v else none

/-- A number below a limit, of all the digits at the head of a text. -/
def takeNumber (base limit : Nat) (cs : List Char) : Option (Nat × List Char) :=
  let digits := cs.takeWhile fun c => (digitOf? base c).isSome
  let n := digits.foldl (fun n c => base * n + (digitOf? base c).getD 0) 0
  if digits.isEmpty || limit ≤ n then none else some (n, cs.drop digits.length)

/-- One of the four numbers: at most three digits, no needless zero. -/
def takeOctet (cs : List Char) : Option (Nat × List Char) :=
  let digits := cs.takeWhile isDigit
  if 3 < digits.length || (digits.head? == some '0' && 1 < digits.length) then none
  else takeNumber 10 256 cs

/-- One of the eight groups: at most four digits. -/
def takeGroup (cs : List Char) : Option (Nat × List Char) :=
  if 4 < (cs.takeWhile fun c => (digitOf? 16 c).isSome).length then none
  else takeNumber 16 65536 cs

/-- A character that has to be there. -/
def takeChar (c : Char) (cs : List Char) : Option (List Char) :=
  match cs with
  | x :: rest => if x = c then some rest else none
  | [] => none

/-- Four numbers with points between them. -/
def takeV4 (cs : List Char) : Option (List Nat × List Char) := do
  let (a, cs) ← takeOctet cs
  let (b, cs) ← takeOctet (← takeChar '.' cs)
  let (c, cs) ← takeOctet (← takeChar '.' cs)
  let (d, cs) ← takeOctet (← takeChar '.' cs)
  some ([a, b, c, d], cs)

/-- At most `room` groups with colons between them, and whether the last two were
written as four numbers. `first` tells that no colon is due. -/
def takeGroups : (room : Nat) → (first : Bool) → List Char → List Nat × Bool × List Char
  | 0, _, cs => ([], false, cs)
  | room + 1, first, cs =>
    let behind := if first then some cs else takeChar ':' cs
    match if room = 0 then none else behind.bind takeV4 with
    | some ([a, b, c, d], rest) => ([256 * a + b, 256 * c + d], true, rest)
    | _ =>
      match behind.bind takeGroup with
      | none => ([], false, cs)
      | some (g, rest) =>
        let (gs, v4, rest) := takeGroups room false rest
        (g :: gs, v4, rest)

/-- Eight groups, a run of which may be left out between two colons. -/
def takeV6 (cs : List Char) : Option (List Nat × List Char) :=
  match takeGroups 8 true cs with
  | (front, v4, rest) =>
    if front.length = 8 then some (front, rest)
    else if v4 then none
    else do
      let rest ← takeChar ':' (← takeChar ':' rest)
      let (back, _, rest) := takeGroups (7 - front.length) true rest
      some (front ++ (List.replicate (8 - front.length - back.length) 0 ++ back), rest)

/-- The address of a host at the head of a text. -/
def takeHost (cs : List Char) : Option (HostAddress × List Char) :=
  match takeV4 cs with
  | some (octets, rest) => some (.v4 octets, rest)
  | none => (takeV6 cs).map fun p => (.v6 p.1, p.2)

/-- The address of a host that a text is. -/
def HostAddress.parse? (s : String) : Option HostAddress :=
  match takeHost s.toList with
  | some (a, []) => some a
  | _ => none

/-! ### Writing -/

/-- The longest run of zeros in groups, as place and length; the first one of
several. -/
def longestZeros : (place : Nat) → List Nat → Nat × Nat
  | _, [] => (0, 0)
  | place, g :: gs =>
    let here := ((g :: gs).takeWhile (· == 0)).length
    let later := longestZeros (place + 1) gs
    if here = 0 then later else if later.2 ≤ here then (place, here) else later

/-- Groups with colons between them. -/
def groupsText (gs : List Nat) : String :=
  ":".intercalate (gs.map fun g => String.ofList (hexDigits g))

/-- Octets with points between them. -/
def octetsText (os : List Nat) : String := ".".intercalate (os.map toString)

/-- The text of an address. -/
def HostAddress.text : HostAddress → String
  | .v4 os => octetsText os
  | .v6 [0, 0, 0, 0, 0, 0xFFFF, a, b] =>
    "::ffff:" ++ octetsText [a / 256, a % 256, b / 256, b % 256]
  | .v6 gs =>
    match longestZeros 0 gs with
    | (place, length) =>
      if length ≤ 1 then groupsText gs
      else groupsText (gs.take place) ++ "::" ++ groupsText (gs.drop (place + length))

/-! ### Services -/

/-- The address of a service. -/
structure ServiceAddress where
  /-- The host. -/
  host : HostAddress
  /-- The part of a network the host is in, zero if not told. -/
  scope : Nat
  /-- The port. -/
  port : Nat
deriving DecidableEq, Repr

/-- A port behind its colon. -/
def takePort (cs : List Char) : Option (Nat × List Char) := do
  takeNumber 10 65536 (← takeChar ':' cs)

/-- The address of a service at the head of a text. -/
def takeService (cs : List Char) : Option (ServiceAddress × List Char) :=
  match takeV4 cs with
  | some (octets, rest) => do
    let (port, rest) ← takePort rest
    some (⟨.v4 octets, 0, port⟩, rest)
  | none => do
    let (groups, rest) ← takeV6 (← takeChar '[' cs)
    let (scope, rest) ← match rest with
      | '%' :: rest => takeNumber 10 (Nat.pow 2 32) rest
      | rest => some (0, rest)
    let (port, rest) ← takePort (← takeChar ']' rest)
    some (⟨.v6 groups, scope, port⟩, rest)

/-- The address of a service that a text is. -/
def ServiceAddress.parse? (s : String) : Option ServiceAddress :=
  match takeService s.toList with
  | some (a, []) => some a
  | _ => none

/-- The text of the address of a service. -/
def ServiceAddress.text (a : ServiceAddress) : String :=
  match a.host with
  | .v4 _ => a.host.text ++ ":" ++ toString a.port
  | .v6 _ =>
    let scope := if a.scope = 0 then "" else "%" ++ toString a.scope
    "[" ++ a.host.text ++ scope ++ "]:" ++ toString a.port

end Telemetry.Net
