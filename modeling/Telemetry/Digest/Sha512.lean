import Telemetry.Octets

/-!
# The 512-bit digest

The digest of octets by the 512-bit member of the second family of secure hash
algorithms. The octets are padded to whole blocks of 128: a one bit, zeros, and the
length in bits. Each block is stretched to a schedule of 80 words, and each word
turns the state of eight words once.
-/

namespace Telemetry.Sha512

/-- A word. -/
abbrev Word : Type := UInt64

/-- Eight words. -/
structure State where
  /-- First word. -/
  a : Word
  /-- Second word. -/
  b : Word
  /-- Third word. -/
  c : Word
  /-- Fourth word. -/
  d : Word
  /-- Fifth word. -/
  e : Word
  /-- Sixth word. -/
  f : Word
  /-- Seventh word. -/
  g : Word
  /-- Eighth word. -/
  h : Word

/-- How many octets a block has. -/
def blockSize : Nat := 128

/-- The state at the start: the fractions of the square roots of the first primes. -/
def initial : State := ⟨
  0x6a09e667f3bcc908, 0xbb67ae8584caa73b, 0x3c6ef372fe94f82b, 0xa54ff53a5f1d36f1,
  0x510e527fade682d1, 0x9b05688c2b3e6c1f, 0x1f83d9abfb41bd6b, 0x5be0cd19137e2179⟩

/-- The words that the rounds add: the fractions of the cube roots of the first
primes. -/
def roundWords : List Word := [
  0x428a2f98d728ae22, 0x7137449123ef65cd, 0xb5c0fbcfec4d3b2f, 0xe9b5dba58189dbbc,
  0x3956c25bf348b538, 0x59f111f1b605d019, 0x923f82a4af194f9b, 0xab1c5ed5da6d8118,
  0xd807aa98a3030242, 0x12835b0145706fbe, 0x243185be4ee4b28c, 0x550c7dc3d5ffb4e2,
  0x72be5d74f27b896f, 0x80deb1fe3b1696b1, 0x9bdc06a725c71235, 0xc19bf174cf692694,
  0xe49b69c19ef14ad2, 0xefbe4786384f25e3, 0x0fc19dc68b8cd5b5, 0x240ca1cc77ac9c65,
  0x2de92c6f592b0275, 0x4a7484aa6ea6e483, 0x5cb0a9dcbd41fbd4, 0x76f988da831153b5,
  0x983e5152ee66dfab, 0xa831c66d2db43210, 0xb00327c898fb213f, 0xbf597fc7beef0ee4,
  0xc6e00bf33da88fc2, 0xd5a79147930aa725, 0x06ca6351e003826f, 0x142929670a0e6e70,
  0x27b70a8546d22ffc, 0x2e1b21385c26c926, 0x4d2c6dfc5ac42aed, 0x53380d139d95b3df,
  0x650a73548baf63de, 0x766a0abb3c77b2a8, 0x81c2c92e47edaee6, 0x92722c851482353b,
  0xa2bfe8a14cf10364, 0xa81a664bbc423001, 0xc24b8b70d0f89791, 0xc76c51a30654be30,
  0xd192e819d6ef5218, 0xd69906245565a910, 0xf40e35855771202a, 0x106aa07032bbd1b8,
  0x19a4c116b8d2d0c8, 0x1e376c085141ab53, 0x2748774cdf8eeb99, 0x34b0bcb5e19b48a8,
  0x391c0cb3c5c95a63, 0x4ed8aa4ae3418acb, 0x5b9cca4f7763e373, 0x682e6ff3d6b2b8a3,
  0x748f82ee5defb2fc, 0x78a5636f43172f60, 0x84c87814a1f0ab72, 0x8cc702081a6439ec,
  0x90befffa23631e28, 0xa4506cebde82bde9, 0xbef9a3f7b2c67915, 0xc67178f2e372532b,
  0xca273eceea26619c, 0xd186b8c721c0c207, 0xeada7dd6cde0eb1e, 0xf57d4f7fee6ed178,
  0x06f067aa72176fba, 0x0a637dc5a2c898a6, 0x113f9804bef90dae, 0x1b710b35131c471b,
  0x28db77f523047d84, 0x32caab7b40c72493, 0x3c9ebe0a15c9bebc, 0x431d67c49c100d4c,
  0x4cc5d4becb3e42b6, 0x597f299cfc657e2a, 0x5fcb6fab3ad6faec, 0x6c44198c4a475817]

/-- A word turned to the right. -/
def turn (x : Word) (count : Word) : Word := (x >>> count) ||| (x <<< (64 - count))

/-- The word that octets write, the most significant first. -/
def wordOf (bs : Octets) : Word := bs.foldl (fun w b => (w <<< 8) ||| b.toUInt64) 0

/-- The octets of a word, the most significant first. -/
def octetsOfWord (w : Word) : Octets :=
  [(w >>> 56).toUInt8, (w >>> 48).toUInt8, (w >>> 40).toUInt8, (w >>> 32).toUInt8,
    (w >>> 24).toUInt8, (w >>> 16).toUInt8, (w >>> 8).toUInt8, w.toUInt8]

/-- A block cut into words, of which the later ones come first. -/
def blockWords : (count : Nat) → Octets → List Word → List Word
  | 0, _, words => words
  | count + 1, block, words =>
    blockWords count (block.drop 8) (wordOf (block.take 8) :: words)

/-- The schedule with one more word at its head, made of four of the sixteen words
before. -/
def stretch (words : List Word) : List Word :=
  let x := words.getD 14 0
  let y := words.getD 1 0
  (words.getD 15 0 + (turn x 1 ^^^ turn x 8 ^^^ (x >>> 7)) + words.getD 6 0 +
    (turn y 19 ^^^ turn y 61 ^^^ (y >>> 6))) :: words

/-- The schedule of a block, the first word first. -/
def schedule (block : Octets) : List Word :=
  (Nat.repeat stretch 64 (blockWords 16 block [])).reverse

/-- One round. -/
def round (s : State) (word : Word) : State :=
  let t := s.h + (turn s.e 14 ^^^ turn s.e 18 ^^^ turn s.e 41) +
    ((s.e &&& s.f) ^^^ (~~~s.e &&& s.g)) + word
  let u := (turn s.a 28 ^^^ turn s.a 34 ^^^ turn s.a 39) +
    ((s.a &&& s.b) ^^^ (s.a &&& s.c) ^^^ (s.b &&& s.c))
  ⟨t + u, s.a, s.b, s.c, s.d + t, s.e, s.f, s.g⟩

/-- The state behind one more block. -/
def absorb (s : State) (block : Octets) : State :=
  let r := (List.zipWith (· + ·) roundWords (schedule block)).foldl round s
  ⟨s.a + r.a, s.b + r.b, s.c + r.c, s.d + r.d, s.e + r.e, s.f + r.f, s.g + r.g, s.h + r.h⟩

/-- The state behind `count` blocks of a message. -/
def absorbBlocks : (count : Nat) → State → Octets → State
  | 0, s, _ => s
  | count + 1, s, message =>
    absorbBlocks count (absorb s (message.take blockSize)) (message.drop blockSize)

/-- The `count` octets of a number, the most significant first. -/
def bigEndian (count n : Nat) : Octets :=
  (List.range count).reverse.map fun i => (n >>> (8 * i)).toUInt8

/-- A message with its padding. -/
def padded (message : Octets) : Octets :=
  let zeros := (2 * blockSize - 1 - 16 - message.length % blockSize) % blockSize
  message ++ (0x80 :: (List.replicate zeros 0 ++ bigEndian 16 (8 * message.length)))

/-- The digest of a message. -/
def digest (message : Octets) : Octets :=
  let whole := padded message
  let s := absorbBlocks (whole.length / blockSize) initial whole
  [s.a, s.b, s.c, s.d, s.e, s.f, s.g, s.h].flatMap octetsOfWord

/-- How many octets a digest has. -/
def digestSize : Nat := 64

@[simp] theorem length_digest (message : Octets) : (digest message).length = digestSize := rfl

end Telemetry.Sha512
