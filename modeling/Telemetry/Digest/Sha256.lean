import Telemetry.Octets

/-!
# The 256-bit digest

The digest of octets by the 256-bit member of the second family of secure hash
algorithms. The octets are padded to whole blocks of 64: a one bit, zeros, and the
length in bits. Each block is stretched to a schedule of 64 words, and each word
turns the state of eight words once.
-/

namespace Telemetry.Sha256

/-- A word. -/
abbrev Word : Type := UInt32

/-- Eight words. -/
structure State where
  /-- First word. -/
  a : Word
  /-- Second word. -/
  b : Word
  /-- Third word. -/
  c : Word
  /-- Fourth word. -/
  d : Word
  /-- Fifth word. -/
  e : Word
  /-- Sixth word. -/
  f : Word
  /-- Seventh word. -/
  g : Word
  /-- Eighth word. -/
  h : Word

/-- How many octets a block has. -/
def blockSize : Nat := 64

/-- The state at the start: the fractions of the square roots of the first primes. -/
def initial : State := ⟨
  0x6a09e667, 0xbb67ae85, 0x3c6ef372, 0xa54ff53a, 0x510e527f, 0x9b05688c, 0x1f83d9ab, 0x5be0cd19⟩

/-- The words that the rounds add: the fractions of the cube roots of the first
primes. -/
def roundWords : List Word := [
  0x428a2f98, 0x71374491, 0xb5c0fbcf, 0xe9b5dba5, 0x3956c25b, 0x59f111f1, 0x923f82a4, 0xab1c5ed5,
  0xd807aa98, 0x12835b01, 0x243185be, 0x550c7dc3, 0x72be5d74, 0x80deb1fe, 0x9bdc06a7, 0xc19bf174,
  0xe49b69c1, 0xefbe4786, 0x0fc19dc6, 0x240ca1cc, 0x2de92c6f, 0x4a7484aa, 0x5cb0a9dc, 0x76f988da,
  0x983e5152, 0xa831c66d, 0xb00327c8, 0xbf597fc7, 0xc6e00bf3, 0xd5a79147, 0x06ca6351, 0x14292967,
  0x27b70a85, 0x2e1b2138, 0x4d2c6dfc, 0x53380d13, 0x650a7354, 0x766a0abb, 0x81c2c92e, 0x92722c85,
  0xa2bfe8a1, 0xa81a664b, 0xc24b8b70, 0xc76c51a3, 0xd192e819, 0xd6990624, 0xf40e3585, 0x106aa070,
  0x19a4c116, 0x1e376c08, 0x2748774c, 0x34b0bcb5, 0x391c0cb3, 0x4ed8aa4a, 0x5b9cca4f, 0x682e6ff3,
  0x748f82ee, 0x78a5636f, 0x84c87814, 0x8cc70208, 0x90befffa, 0xa4506ceb, 0xbef9a3f7, 0xc67178f2]

/-- A word turned to the right. -/
def turn (x : Word) (count : Word) : Word := (x >>> count) ||| (x <<< (32 - count))

/-- The word that octets write, the most significant first. -/
def wordOf (bs : Octets) : Word := bs.foldl (fun w b => (w <<< 8) ||| b.toUInt32) 0

/-- The octets of a word, the most significant first. -/
def octetsOfWord (w : Word) : Octets :=
  [(w >>> 24).toUInt8, (w >>> 16).toUInt8, (w >>> 8).toUInt8, w.toUInt8]

/-- A block cut into words, of which the later ones come first. -/
def blockWords : (count : Nat) → Octets → List Word → List Word
  | 0, _, words => words
  | count + 1, block, words =>
    blockWords count (block.drop 4) (wordOf (block.take 4) :: words)

/-- The schedule with one more word at its head, made of four of the sixteen words
before. -/
def stretch (words : List Word) : List Word :=
  let x := words.getD 14 0
  let y := words.getD 1 0
  (words.getD 15 0 + (turn x 7 ^^^ turn x 18 ^^^ (x >>> 3)) + words.getD 6 0 +
    (turn y 17 ^^^ turn y 19 ^^^ (y >>> 10))) :: words

/-- The schedule of a block, the first word first. -/
def schedule (block : Octets) : List Word :=
  (Nat.repeat stretch 48 (blockWords 16 block [])).reverse

/-- One round. -/
def round (s : State) (word : Word) : State :=
  let t := s.h + (turn s.e 6 ^^^ turn s.e 11 ^^^ turn s.e 25) +
    ((s.e &&& s.f) ^^^ (~~~s.e &&& s.g)) + word
  let u := (turn s.a 2 ^^^ turn s.a 13 ^^^ turn s.a 22) +
    ((s.a &&& s.b) ^^^ (s.a &&& s.c) ^^^ (s.b &&& s.c))
  ⟨t + u, s.a, s.b, s.c, s.d + t, s.e, s.f, s.g⟩

/-- The state behind one more block. -/
def absorb (s : State) (block : Octets) : State :=
  let r := (List.zipWith (· + ·) roundWords (schedule block)).foldl round s
  ⟨s.a + r.a, s.b + r.b, s.c + r.c, s.d + r.d, s.e + r.e, s.f + r.f, s.g + r.g, s.h + r.h⟩

/-- The state behind `count` blocks of a message. -/
def absorbBlocks : (count : Nat) → State → Octets → State
  | 0, s, _ => s
  | count + 1, s, message =>
    absorbBlocks count (absorb s (message.take blockSize)) (message.drop blockSize)

/-- The `count` octets of a number, the most significant first. -/
def bigEndian (count n : Nat) : Octets :=
  (List.range count).reverse.map fun i => (n >>> (8 * i)).toUInt8

/-- A message with its padding. -/
def padded (message : Octets) : Octets :=
  let zeros := (2 * blockSize - 1 - 8 - message.length % blockSize) % blockSize
  message ++ (0x80 :: (List.replicate zeros 0 ++ bigEndian 8 (8 * message.length)))

/-- The digest of a message. -/
def digest (message : Octets) : Octets :=
  let whole := padded message
  let s := absorbBlocks (whole.length / blockSize) initial whole
  [s.a, s.b, s.c, s.d, s.e, s.f, s.g, s.h].flatMap octetsOfWord

/-- How many octets a digest has. -/
def digestSize : Nat := 32

@[simp] theorem length_digest (message : Octets) : (digest message).length = digestSize := rfl

end Telemetry.Sha256
