import Telemetry.Digest.Sha512

/-!
# Padding

Before a block of text is raised to a power it is spread over the whole width of
the modulus: the digest of an empty label, zeros, a one and the text form the data,
and data and a random seed mask each other. Undoing this either gives back the text
or shows that the block is none; which of the checks failed is not told.
-/

namespace Telemetry.Rsa

/-- How many octets a digest has. -/
abbrev hashSize : Nat := Sha512.digestSize

/-- How much of a block the padding takes. -/
def paddingSize : Nat := 2 * hashSize + 2

/-- The octets of one another masked. -/
def maskWith (bs mask : Octets) : Octets := List.zipWith (· ^^^ ·) bs mask

/-- Octets spun from a seed: the digests of the seed with a counter behind it. -/
def spin (seed : Octets) (count : Nat) : Octets :=
  ((List.range ((count + hashSize - 1) / hashSize)).flatMap fun i =>
    Sha512.digest (seed ++ Sha512.bigEndian 4 i)).take count

/-- The digest of the empty label. -/
def labelHash : Octets := Sha512.digest []

/-- A text of at most `size - paddingSize` octets in a block of `size` octets, the
first of which is zero. -/
def pad (size : Nat) (seed text : Octets) : Octets :=
  let zeros := List.replicate (size - text.length - paddingSize) 0
  let data := labelHash ++ (zeros ++ (1 :: text))
  let masked := maskWith data (spin seed data.length)
  0 :: (maskWith seed (spin masked hashSize) ++ masked)

/-- The text in a block. -/
def unpad? (block : Octets) : Option Octets :=
  let maskedSeed := (block.drop 1).take hashSize
  let masked := block.drop (1 + hashSize)
  let seed := maskWith maskedSeed (spin masked hashSize)
  let data := maskWith masked (spin seed masked.length)
  let behind := (data.drop hashSize).dropWhile (· == 0)
  if block.head? = some 0 ∧ paddingSize ≤ block.length ∧ data.take hashSize = labelHash then
    match behind with
    | b :: text => if b = 1 then some text else none
    | [] => none
  else none

end Telemetry.Rsa
