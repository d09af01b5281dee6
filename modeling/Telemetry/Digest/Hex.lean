import Telemetry.Octets

/-!
# Hexadecimal digits

Octets as pairs of hexadecimal digits. Written digits are lower case; either case is
read.
-/

namespace Telemetry

/-- The lower-case digits of an octet. -/
def hexPair (b : UInt8) : List Char := [Nat.digitChar (b.toNat / 16), Nat.digitChar (b.toNat % 16)]

/-- The lower-case digits of octets. -/
def hexOf (bs : Octets) : String := String.ofList (bs.flatMap hexPair)

/-- The value of a hexadecimal digit of either case. -/
def hexDigitValue? (c : Char) : Option Nat :=
  if '0' ≤ c ∧ c ≤ '9' then some (c.toNat - 48)
  else if 'A' ≤ c ∧ c ≤ 'F' then some (c.toNat - 55)
  else if 'a' ≤ c ∧ c ≤ 'f' then some (c.toNat - 87)
  else none

/-- The octets that pairs of digits write. -/
def ofHexChars? : List Char → Option Octets
  | [] => some []
  | [_] => none
  | a :: b :: rest =>
    match hexDigitValue? a, hexDigitValue? b, ofHexChars? rest with
    | some a, some b, some bs => some ((16 * a + b).toUInt8 :: bs)
    | _, _, _ => none

end Telemetry
