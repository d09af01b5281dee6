import Telemetry.Gzip.Inflate

/-!
# Compressed bodies

A compressed body is a header, compressed data and a trailer with the checksum and
the length of what it unpacks to. Any such body is read, however it was compressed,
and what follows it is ignored.
-/

namespace Telemetry.Gzip

/-- The first `count` octets of a body and the rest. -/
def takeOctets (count : Nat) (body : Octets) : Except Fault (Octets × Octets) :=
  let found := body.take count
  if found.length < count then .error .endOfFile else .ok (found, body.drop count)

/-- The longest name or comment of a header. -/
def maxField : Nat := 65535

/-- A field that ends with a zero, with the zero, and the rest. -/
def takeField : (room : Nat) → Octets → Except Fault (Octets × Octets)
  | _, [] => .error .endOfFile
  | room, b :: rest =>
    if b = 0 then .ok ([0], rest)
    else match room with
      | 0 => .error .fieldTooLong
      | room + 1 => do
        let (field, rest) ← takeField room rest
        .ok (b :: field, rest)

/-- A part of the header that a flag tells of. -/
def takeIf (flag : Bool) (part : Octets → Except Fault (Octets × Octets)) (body : Octets) :
    Except Fault (Octets × Octets) :=
  if flag then part body else .ok ([], body)

/-- A part that begins with its own length. -/
def takeExtra (body : Octets) : Except Fault (Octets × Octets) := do
  let (length, body) ← takeOctets 2 body
  let (extra, body) ← takeOctets (ofLittleEndian length) body
  .ok (length ++ extra, body)

/-- The body behind its header. Three flags have no meaning and must not be set; a
checksum of the header is compared if there is one. -/
def skipHeader (body : Octets) : Except Fault Octets := do
  let (fixed, body) ← takeOctets 10 body
  let flags := (fixed.getD 3 0).toNat
  if fixed.take 3 ≠ [0x1f, 0x8b, 8] ∨ 32 ≤ flags then .error .header
  else
    let (extra, body) ← takeIf (flags.testBit 2) takeExtra body
    let (name, body) ← takeIf (flags.testBit 3) (takeField maxField) body
    let (comment, body) ← takeIf (flags.testBit 4) (takeField maxField) body
    let (sum, body) ← takeIf (flags.testBit 1) (takeOctets 2) body
    let computed := checksum (fixed ++ extra ++ name ++ comment)
    if flags.testBit 1 = true ∧ ofLittleEndian sum ≠ computed.toNat % 65536 then .error .checksum
    else .ok body

/-- What a compressed body unpacks to. -/
def unpack (body : Octets) : Except Fault Octets := do
  let body ← skipHeader body
  let (out, body) ← inflate body
  let (trailer, _) ← takeOctets 8 body
  if ofLittleEndian (trailer.take 4) ≠ (checksum out).toNat ∨
      ofLittleEndian (trailer.drop 4) ≠ out.length % Nat.pow 2 32 then .error .checksum
  else .ok out

end Telemetry.Gzip
