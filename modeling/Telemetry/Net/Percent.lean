import Telemetry.Net.Address
import Telemetry.Octets

/-!
# Octets written by numbers

In locations on the web, and in the texts that tell where a database is, an octet may
be written as a percent sign and two hexadecimal digits. What cannot stand in a part
of a location has to be.

* `percentDecode`: the octets that a text stands for;
* `percentEncode`: a text that stands for characters and does not hold those given.
-/

namespace Telemetry

/-! ### Reading -/

/-- The octet that two hexadecimal digits write. -/
def hexPair? (high low : UInt8) : Option UInt8 := do
  let h ← Net.digitOf? 16 (Char.ofNat high.toNat)
  let l ← Net.digitOf? 16 (Char.ofNat low.toNat)
  return (16 * h + l).toUInt8

/-- The octet that a percent sign and two hexadecimal digits at the head of octets
write. -/
def escapedOctet? : Octets → Option UInt8
  | a :: b :: c :: _ => if a = ascii '%' then hexPair? b c else none
  | _ => none

/-- Octets in which each percent sign with two hexadecimal digits behind it stands for
one octet; another percent sign stands for itself. `skip` octets have been used up. -/
def percentDecodeFrom : (skip : Nat) → Octets → Octets
  | _, [] => []
  | skip + 1, _ :: rest => percentDecodeFrom skip rest
  | 0, a :: rest =>
    match escapedOctet? (a :: rest) with
    | some octet => octet :: percentDecodeFrom 2 rest
    | none => a :: percentDecodeFrom 0 rest

/-- Octets with those written by a percent sign and digits put in. -/
def percentDecode (bs : Octets) : Octets := percentDecodeFrom 0 bs

/-- The text that a text stands for, if it stands for one. -/
def percentDecodeText? (cs : List Char) : Option String :=
  textOf? (percentDecode (octetsOf (String.ofList cs)))

/-! ### Writing -/

/-- An octet by a percent sign and two capital digits. -/
def percentChars (b : UInt8) : List Char :=
  let digit (n : Nat) : Char := (Nat.digitChar n).toUpper
  ['%', digit (b.toNat / 16), digit (b.toNat % 16)]

/-- Characters in which controls, whatever is not ASCII, and the characters given are
written by percent signs and digits. -/
def percentEncode (specials : String) (cs : List Char) : List Char :=
  cs.flatMap fun c =>
    if 32 ≤ c.toNat && c.toNat < 127 && !specials.toList.contains c then [c]
    else (String.utf8EncodeChar c).flatMap percentChars

end Telemetry
