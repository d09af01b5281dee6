import Telemetry.Octets

/-!
# The checksum of compressed bodies

The cyclic redundancy check of 32 bits, reflected, with all bits set at the start
and flipped at the end. A compressed body ends with the one of what it unpacks to;
its header may carry the low half of its own.

Numbers in these formats stand with their least octet first.
-/

namespace Telemetry.Gzip

/-- One bit of the division. -/
def checksumBit (c : UInt32) : UInt32 :=
  if c &&& 1 = 1 then (c >>> 1) ^^^ 0xEDB88320 else c >>> 1

/-- One octet of the division. -/
def checksumOctet (c : UInt32) (b : UInt8) : UInt32 :=
  checksumBit (checksumBit (checksumBit (checksumBit (checksumBit (checksumBit (checksumBit
    (checksumBit (c ^^^ b.toUInt32))))))))

/-- The checksum of octets. -/
def checksum (bs : Octets) : UInt32 := (bs.foldl checksumOctet 0xFFFFFFFF) ^^^ 0xFFFFFFFF

/-- The low `count` octets of a number, the least first. -/
def littleEndian : (count : Nat) → Nat → Octets
  | 0, _ => []
  | count + 1, n => n.toUInt8 :: littleEndian count (n / 256)

/-- The number that octets write, the least first. -/
def ofLittleEndian : Octets → Nat
  | [] => 0
  | b :: bs => b.toNat + 256 * ofLittleEndian bs

@[simp] theorem length_littleEndian (count n : Nat) : (littleEndian count n).length = count := by
  induction count generalizing n with
  | zero => rfl
  | succ count ih => simp [littleEndian, ih]

/-- Writing and reading a number keeps what fits. -/
theorem ofLittleEndian_littleEndian (count n : Nat) :
    ofLittleEndian (littleEndian count n) = n % Nat.pow 256 count := by
  induction count generalizing n with
  | zero => simp [littleEndian, ofLittleEndian, Nat.mod_one]
  | succ count ih =>
    have h : n.toUInt8.toNat = n % 256 := by simp [Nat.toUInt8]
    have hpow : Nat.pow 256 (count + 1) = 256 * Nat.pow 256 count := Nat.mul_comm _ _
    rw [littleEndian, ofLittleEndian, ih, h, hpow, Nat.mod_mul]

end Telemetry.Gzip
