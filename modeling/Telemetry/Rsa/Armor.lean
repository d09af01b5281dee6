import Telemetry.Octets

/-!
# Armored keys

A key file is text: a line that opens the armor, lines of 64 characters in base 64,
the last one possibly shorter, and a line that closes it. Text may come before the
armor, nothing but the end of the line after it. The armor tells what it holds, and
that has to be what is asked for.
-/

namespace Telemetry.Rsa

/-! ### Base 64 -/

/-- The value of a digit. -/
def digit64? (b : UInt8) : Option Nat :=
  if 65 ≤ b ∧ b ≤ 90 then some (b.toNat - 65)
  else if 97 ≤ b ∧ b ≤ 122 then some (b.toNat - 71)
  else if 48 ≤ b ∧ b ≤ 57 then some (b.toNat + 4)
  else if b = ascii '+' then some 62
  else if b = ascii '/' then some 63
  else none

/-- The octets that digits write, four for three. The last four may be filled up
with one or two signs, and then the bits they leave over must be zero. -/
def ofBase64? : Octets → Option Octets
  | [] => some []
  | [a, b, c, d] => do
    let x ← digit64? a
    let y ← digit64? b
    if c = ascii '=' then
      if d = ascii '=' ∧ y % 16 = 0 then some [(4 * x + y / 16).toUInt8] else none
    else do
      let z ← digit64? c
      let head := [(4 * x + y / 16).toUInt8, (16 * (y % 16) + z / 4).toUInt8]
      if d = ascii '=' then if z % 4 = 0 then some head else none
      else do
        let w ← digit64? d
        some (head ++ [(64 * (z % 4) + w).toUInt8])
  | a :: b :: c :: d :: rest => do
    let x ← digit64? a
    let y ← digit64? b
    let z ← digit64? c
    let w ← digit64? d
    let tail ← ofBase64? rest
    some ((4 * x + y / 16).toUInt8 :: (16 * (y % 16) + z / 4).toUInt8 ::
      (64 * (z % 4) + w).toUInt8 :: tail)
  | _ => none

/-! ### Lines -/

/-- A text behind the end of a line at its head. -/
def dropLineEnd? (text : Octets) : Option Octets :=
  match text with
  | 13 :: 10 :: rest => some rest
  | 13 :: rest => some rest
  | 10 :: rest => some rest
  | _ => none

/-- A text before the end of a line at its end. -/
def dropFinalLineEnd? (text : Octets) : Option Octets :=
  match text.reverse with
  | 10 :: 13 :: rest => some rest.reverse
  | 10 :: rest => some rest.reverse
  | 13 :: rest => some rest.reverse
  | _ => none

/-- A text behind another one at its head. -/
def dropHead? (head text : Octets) : Option Octets :=
  if head.isPrefixOf text then some (text.drop head.length) else none

/-- A text before another one at its end. -/
def dropEnd? (tail text : Octets) : Option Octets :=
  if tail.isSuffixOf text then some (text.take (text.length - tail.length)) else none

/-- The characters of lines of 64, of which only the last one may be shorter. -/
def joinLines? : (fuel : Nat) → Octets → Option Octets
  | 0, text => some text
  | fuel + 1, text =>
    if text.length ≤ 64 then some text
    else do
      let rest ← dropLineEnd? (text.drop 64)
      let tail ← joinLines? fuel rest
      some (text.take 64 ++ tail)

/-! ### The armor -/

/-- How the armor opens. -/
def opening : Octets := octetsOf "-----BEGIN "

/-- How the armor closes. -/
def closing : Octets := octetsOf "-----END "

/-- The end of either line. -/
def dashes : Octets := octetsOf "-----"

/-- A text from the first line on that opens an armor. -/
def findOpening? : Octets → Option Octets
  | [] => none
  | b :: rest =>
    if b = 0 then none
    else if b = 10 ∧ opening.isPrefixOf rest = true then some rest
    else findOpening? rest

/-- What an armor of a label holds. -/
def unarmor? (label : Octets) (text : Octets) : Option Octets := do
  let text ← if opening.isPrefixOf text then some text else findOpening? text
  let text ← dropHead? opening text
  let text ← dropHead? (label ++ dashes) text
  let text ← dropLineEnd? text
  let text ← dropEnd? dashes ((dropFinalLineEnd? text).getD text)
  let text ← dropEnd? (closing ++ label) text
  let text ← dropFinalLineEnd? text
  let text ← joinLines? text.length text
  ofBase64? text

end Telemetry.Rsa
