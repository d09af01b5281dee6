import Telemetry.Gzip.Fault
import Telemetry.Octets

/-!
# Reading bits

Compressed data is a sequence of bits, the least significant bit of an octet
first. The reader holds the octets not yet used up and how many bits of the first
of them are gone.
-/

namespace Telemetry.Gzip

/-- Bits still to be read. -/
structure Bits where
  /-- How many bits of the first octet have been read, at most seven. -/
  used : Nat
  /-- The octets from that one on. -/
  octets : Octets

namespace Bits

/-- All bits of a body. -/
def ofOctets (octets : Octets) : Bits := ⟨0, octets⟩

/-- An upper bound for the number of bits. -/
def size (bits : Bits) : Nat := 8 * bits.octets.length

/-- The next bit. -/
def next (bits : Bits) : Except Fault (Nat × Bits) :=
  match bits.octets with
  | [] => .error .incomplete
  | b :: rest =>
    let bit := b.toNat >>> bits.used % 2
    if bits.used = 7 then .ok (bit, ⟨0, rest⟩) else .ok (bit, ⟨bits.used + 1, b :: rest⟩)

/-- The number that the next `count` bits write, the least significant first. -/
def take : (count : Nat) → Bits → Except Fault (Nat × Bits)
  | 0, bits => .ok (0, bits)
  | count + 1, bits => do
    let (low, bits) ← bits.next
    let (high, bits) ← take count bits
    .ok (low + 2 * high, bits)

/-- The octets behind the one that is being read; all, if none is. -/
def align (bits : Bits) : Octets :=
  if bits.used = 0 then bits.octets else bits.octets.drop 1

@[simp] theorem align_ofOctets (octets : Octets) : (ofOctets octets).align = octets := rfl

end Bits

end Telemetry.Gzip
