import Telemetry.Gzip.Checksum
import Telemetry.Gzip.Code

/-!
# Unpacking

Compressed data is a sequence of blocks. A block is stored as it is, or written in
symbols: octets, the end of the block, or a repetition of octets that came before,
given by a length and a distance. The codes of the symbols are fixed, or stand at
the head of the block in a code of their own.

What has been unpacked is held in reverse, so that the octet at distance `d` is the
`d`-th of the list. A distance that reaches beyond the beginning finds zeros.
-/

namespace Telemetry.Gzip

/-! ### Repetitions -/

/-- The least length of each length symbol and how many bits add to it. -/
def lengthBases : List (Nat × Nat) := [
  (3, 0), (4, 0), (5, 0), (6, 0), (7, 0), (8, 0), (9, 0), (10, 0), (11, 1), (13, 1), (15, 1),
  (17, 1), (19, 2), (23, 2), (27, 2), (31, 2), (35, 3), (43, 3), (51, 3), (59, 3), (67, 4),
  (83, 4), (99, 4), (115, 4), (131, 5), (163, 5), (195, 5), (227, 5), (258, 0)]

/-- The least distance of each distance symbol and how many bits add to it. -/
def distanceBases : List (Nat × Nat) := [
  (1, 0), (2, 0), (3, 0), (4, 0), (5, 1), (7, 1), (9, 2), (13, 2), (17, 3), (25, 3), (33, 4),
  (49, 4), (65, 5), (97, 5), (129, 6), (193, 6), (257, 7), (385, 7), (513, 8), (769, 8),
  (1025, 9), (1537, 9), (2049, 10), (3073, 10), (4097, 11), (6145, 11), (8193, 12), (12289, 12),
  (16385, 13), (24577, 13)]

/-- The number that a symbol and the bits behind it stand for. -/
def takeBased (bases : List (Nat × Nat)) (symbol : Nat) (bits : Bits) : Except Fault (Nat × Bits) :=
  match bases[symbol]? with
  | none => .error .corrupt
  | some (least, extra) => do
    let (more, bits) ← bits.take extra
    .ok (least + more, bits)

/-- The first `count` octets of `now` followed by `source` again and again, in
reverse on top of `out`. -/
def pushCycle (source : Octets) : (count : Nat) → (now out : Octets) → Octets
  | 0, _, out => out
  | count + 1, b :: now, out => pushCycle source count now (b :: out)
  | count + 1, [], out =>
    match source with
    | [] => out
    | b :: now => pushCycle source count now (b :: out)

/-- What has been unpacked with `length` octets repeated from a distance. -/
def repeatBack (length distance : Nat) (out : Octets) : Octets :=
  let found := (out.take distance).reverse
  let source := List.replicate (distance - found.length) 0 ++ found
  pushCycle source length source out

/-! ### Blocks -/

/-- The two codes of a block. -/
structure Codes where
  /-- The code of octets, lengths and the end. -/
  literal : CodeTree
  /-- The code of distances. -/
  distance : CodeTree

/-- The fixed codes. -/
def fixedCodes : Codes where
  literal := treeOf (List.replicate 144 8 ++ List.replicate 112 9 ++ List.replicate 24 7 ++
    List.replicate 8 8)
  distance := treeOf (List.replicate 32 5)

/-- The order in which the lengths of the code of lengths are written. -/
def lengthOrder : List Nat := [16, 17, 18, 0, 8, 7, 9, 6, 10, 5, 11, 4, 12, 3, 13, 2, 14, 1, 15]

/-- The first `count` lengths of the code of lengths, each with its place. -/
def takePlaces : List Nat → (count : Nat) → Bits → Except Fault (List (Nat × Nat) × Bits)
  | [], _, bits | _, 0, bits => .ok ([], bits)
  | place :: places, count + 1, bits => do
    let (length, bits) ← bits.take 3
    let (rest, bits) ← takePlaces places count bits
    .ok ((place, length) :: rest, bits)

/-- The lengths of words as the code of lengths writes them, at least `count` of
them, in reverse. A symbol from 16 on repeats the last length, or zero. -/
def takeLengths (tree : CodeTree) (count : Nat) :
    (fuel : Nat) → List Nat → Bits → Except Fault (List Nat × Bits)
  | 0, _, _ => .error .incomplete
  | fuel + 1, lengths, bits =>
    if count ≤ lengths.length then .ok (lengths, bits)
    else match tree.find bits with
      | .error e => .error e
      | .ok (symbol, bits) =>
        if symbol < 16 then takeLengths tree count fuel (symbol :: lengths) bits
        else
          let (base, extra) :=
            if symbol = 16 then (3, 2) else if symbol = 17 then (3, 3) else (11, 7)
          match if symbol = 16 then lengths.head? else some 0 with
          | none => .error .corrupt
          | some last =>
            match bits.take extra with
            | .error e => .error e
            | .ok (more, bits) =>
              takeLengths tree count fuel (List.replicate (base + more) last ++ lengths) bits

/-- The codes at the head of a block. -/
def takeCodes (bits : Bits) : Except Fault (Codes × Bits) := do
  let (literals, bits) ← bits.take 5
  let (distances, bits) ← bits.take 5
  let (places, bits) ← bits.take 4
  let literals := literals + 257
  let distances := distances + 1
  if 286 < literals ∨ 30 < distances then .error .corrupt
  else
    let (written, bits) ← takePlaces lengthOrder (places + 4) bits
    let tree ← codeOf true ((List.range 19).map fun place => (written.lookup place).getD 0)
    let (lengths, bits) ← takeLengths tree (literals + distances) (bits.size + 1) [] bits
    if lengths.length ≠ literals + distances then .error .corrupt
    else
      let lengths := lengths.reverse
      let distance ← codeOf false (lengths.drop literals)
      let literal ← codeOf false (lengths.take literals)
      .ok (⟨literal, distance⟩, bits)

/-- What has been unpacked at the end of a block written in symbols. -/
def inflateSymbols (codes : Codes) : (fuel : Nat) → Octets → Bits → Except Fault (Octets × Bits)
  | 0, _, _ => .error .incomplete
  | fuel + 1, out, bits =>
    match codes.literal.find bits with
    | .error e => .error e
    | .ok (symbol, bits) =>
      if symbol < 256 then inflateSymbols codes fuel (symbol.toUInt8 :: out) bits
      else if symbol = 256 then .ok (out, bits)
      else match takeBased lengthBases (symbol - 257) bits with
        | .error e => .error e
        | .ok (length, bits) =>
          match codes.distance.find bits with
          | .error e => .error e
          | .ok (symbol, bits) =>
            match takeBased distanceBases symbol bits with
            | .error e => .error e
            | .ok (distance, bits) =>
              inflateSymbols codes fuel (repeatBack length distance out) bits

/-- What has been unpacked at the end of a stored block: its length stands there
twice, once with all bits flipped. -/
def inflateStored (out : Octets) (bits : Bits) : Except Fault (Octets × Bits) :=
  match bits.align with
  | a :: b :: c :: d :: rest =>
    let length := ofLittleEndian [a, b]
    if length + ofLittleEndian [c, d] ≠ 0xFFFF then .error .corrupt
    else
      let found := rest.take length
      if found.length < length then .error .incomplete
      else .ok (found.reverseAux out, .ofOctets (rest.drop length))
  | _ => .error .incomplete

/-- What has been unpacked at the end of the last block. -/
def inflateBlocks : (fuel : Nat) → Octets → Bits → Except Fault (Octets × Bits)
  | 0, _, _ => .error .incomplete
  | fuel + 1, out, bits => do
    let (last, bits) ← bits.take 1
    let (method, bits) ← bits.take 2
    let (out, bits) ←
      if method = 0 then inflateStored out bits
      else if method = 1 then inflateSymbols fixedCodes (bits.size + 1) out bits
      else if method = 2 then do
        let (codes, bits) ← takeCodes bits
        inflateSymbols codes (bits.size + 1) out bits
      else .error .corrupt
    if last = 1 then .ok (out, bits) else inflateBlocks fuel out bits

/-- What compressed data unpacks to, and the octets behind it. -/
def inflate (octets : Octets) : Except Fault (Octets × Octets) := do
  let bits := Bits.ofOctets octets
  let (out, bits) ← inflateBlocks (bits.size + 1) [] bits
  .ok (out.reverse, bits.align)

end Telemetry.Gzip
