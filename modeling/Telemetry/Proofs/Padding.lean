import Mathlib
import Telemetry.Rsa.Padding

/-!
# Padded blocks give their text back

A block holds data under a mask that is spun from a seed, and the seed under a mask that is spun
from the masked data. Masks are as long as what they cover and undo themselves, so the seed is
uncovered first and the data with it; and in the data the text stands behind the only one that
has nothing but zeros in front of it.

* `length_spin`, `maskWith_maskWith`: masks;
* `unpad?_pad`: whatever the seed, the text comes back from its block;
* `pad_eq_cons`: a block begins with a zero and is as wide as it is to be.
-/

namespace Telemetry.Rsa

/-! ### Masks -/

theorem length_maskWith (bs mask : Octets) :
    (maskWith bs mask).length = min bs.length mask.length := List.length_zipWith

/-- **A mask that is long enough undoes itself.** -/
theorem maskWith_maskWith {bs mask : Octets} (h : bs.length ≤ mask.length) :
    maskWith (maskWith bs mask) mask = bs := by
  induction bs generalizing mask with
  | nil => rfl
  | cons b bs ih =>
    cases mask with
    | nil => simp at h
    | cons m mask =>
      have hself : b ^^^ m ^^^ m = b := by rw [UInt8.xor_assoc, UInt8.xor_self, UInt8.xor_zero]
      show (b ^^^ m ^^^ m) :: maskWith (maskWith bs mask) mask = b :: bs
      rw [hself, ih (Nat.le_of_succ_le_succ h)]

/-- As many octets are spun as are asked for. -/
theorem length_spin (seed : Octets) (count : Nat) : (spin seed count).length = count := by
  have hpos : 0 < hashSize := by decide
  have hdigests : ∀ xs : List Nat, (xs.flatMap fun i =>
      Sha512.digest (seed ++ Sha512.bigEndian 4 i)).length = hashSize * xs.length := by
    intro xs
    induction xs with
    | nil => rfl
    | cons x xs ih =>
      rw [List.flatMap_cons, List.length_append, ih, Sha512.length_digest, List.length_cons]
      ring
  -- whole digests are spun, enough of them to cut the octets from
  have henough : count ≤ hashSize * ((count + hashSize - 1) / hashSize) := by
    have hlt := Nat.lt_mul_div_succ (count + hashSize - 1) hpos
    rw [Nat.mul_add] at hlt
    omega
  rw [spin, List.length_take, hdigests, List.length_range]
  exact Nat.min_eq_left henough

/-! ### Blocks -/

/-- What is masked in a block of a text. -/
def dataOf (size : Nat) (text : Octets) : Octets :=
  labelHash ++ (List.replicate (size - text.length - paddingSize) 0 ++ 1 :: text)

theorem length_dataOf {size : Nat} {text : Octets} (h : text.length + paddingSize ≤ size) :
    (dataOf size text).length + (1 + hashSize) = size := by
  have hpadding : paddingSize = hashSize + hashSize + 2 := by decide
  rw [dataOf, List.length_append, List.length_append, List.length_replicate, List.length_cons,
    labelHash, Sha512.length_digest]
  show hashSize + _ + _ = _
  omega

/-- The masked data in a block. -/
def maskedOf (size : Nat) (seed text : Octets) : Octets :=
  maskWith (dataOf size text) (spin seed (dataOf size text).length)

/-- A block is a zero, the masked seed and the masked data. -/
theorem pad_eq_cons (size : Nat) (seed text : Octets) :
    pad size seed text = 0 :: (maskWith seed (spin (maskedOf size seed text) hashSize) ++
      maskedOf size seed text) := rfl

theorem length_maskedOf (size : Nat) (seed text : Octets) :
    (maskedOf size seed text).length = (dataOf size text).length := by
  rw [maskedOf, length_maskWith, length_spin, Nat.min_self]

/-- A masked seed is as long as the seed. -/
theorem length_maskedSeed {seed : Octets} (hseed : seed.length = hashSize) (masked : Octets) :
    (maskWith seed (spin masked hashSize)).length = hashSize := by
  rw [length_maskWith, length_spin, hseed, Nat.min_self]

/-- A block is as wide as it is to be. -/
theorem length_pad {size : Nat} {seed text : Octets} (hseed : seed.length = hashSize)
    (h : text.length + paddingSize ≤ size) : (pad size seed text).length = size := by
  have hdata := length_dataOf h
  rw [pad_eq_cons, List.length_cons, List.length_append, length_maskedSeed hseed,
    length_maskedOf]
  omega

/-- **The text comes back from its block**, whatever the seed. -/
theorem unpad?_pad {size : Nat} {seed text : Octets} (hseed : seed.length = hashSize)
    (h : text.length + paddingSize ≤ size) : unpad? (pad size seed text) = some text := by
  have hcut := length_maskedSeed hseed (maskedOf size seed text)
  have hmaskedSeed : ((pad size seed text).drop 1).take hashSize =
      maskWith seed (spin (maskedOf size seed text) hashSize) := List.take_left' hcut
  have hmasked : (pad size seed text).drop (1 + hashSize) = maskedOf size seed text := by
    rw [← List.drop_drop]
    exact List.drop_left' hcut
  have hseedBack : maskWith (maskWith seed (spin (maskedOf size seed text) hashSize))
      (spin (maskedOf size seed text) hashSize) = seed :=
    maskWith_maskWith (by rw [length_spin, hseed])
  have hdataBack : maskWith (maskedOf size seed text)
      (spin seed (maskedOf size seed text).length) = dataOf size text := by
    rw [length_maskedOf]
    exact maskWith_maskWith (by rw [length_spin])
  have hlabel : labelHash.length = hashSize := Sha512.length_digest []
  have hbehind : ((dataOf size text).drop hashSize).dropWhile (· == 0) = 1 :: text := by
    rw [dataOf, List.drop_left' hlabel, List.dropWhile_append_of_pos]
    · rfl
    · intro b hb
      rw [List.eq_of_mem_replicate hb]
      rfl
  have htake : (dataOf size text).take hashSize = labelHash := List.take_left' hlabel
  have hsize : paddingSize ≤ (pad size seed text).length := by
    rw [length_pad hseed h]
    omega
  unfold unpad?
  simp only [hmaskedSeed, hmasked, hseedBack, hdataBack, hbehind, htake]
  rw [if_pos ⟨rfl, hsize, trivial⟩]
  exact if_pos trivial

end Telemetry.Rsa
