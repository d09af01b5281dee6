import Telemetry.Rsa.Armor

/-!
# Keys

A key is a sequence of natural numbers in the distinguished encoding: each value
has one form, so a form with a needless octet is refused. A public key is a modulus
and an exponent. A private key adds the exponent that undoes the other one and the
two primes; it is only accepted if these numbers fit together.
-/

namespace Telemetry.Rsa

/-- The number that octets write, the most significant first. -/
def ofBigEndian (bs : Octets) : Nat := bs.foldl (fun n b => 256 * n + b.toNat) 0

/-! ### The encoding -/

/-- The length at the head of a value, in its shortest form. -/
def readLength? (text : Octets) : Option (Nat × Octets) :=
  match text with
  | [] => none
  | b :: rest =>
    if b < 128 then some (b.toNat, rest)
    else
      let count := b.toNat - 128
      let digits := rest.take count
      let length := ofBigEndian digits
      if count = 0 ∨ 4 < count ∨ digits.length < count ∨ length < 128 ∨
          length < Nat.pow 256 (count - 1) then none
      else some (length, rest.drop count)

/-- The content of a value with a tag, and what follows it. -/
def readValue? (tag : UInt8) (text : Octets) : Option (Octets × Octets) :=
  match text with
  | [] => none
  | b :: rest => do
    let (length, rest) ← readLength? rest
    if b ≠ tag ∨ rest.length < length then none
    else some (rest.take length, rest.drop length)

/-- The natural number that the content of a value stands for. -/
def natural? (content : Octets) : Option Nat :=
  match content with
  | [] => none
  | [b] => if b < 128 then some b.toNat else none
  | a :: b :: rest =>
    if 128 ≤ a ∨ (a = 0 ∧ b < 128) then none else some (ofBigEndian (a :: b :: rest))

/-- So many natural numbers and nothing else. -/
def readNaturals? : (count : Nat) → Octets → Option (List Nat)
  | 0, text => if text.isEmpty then some [] else none
  | count + 1, text => do
    let (content, rest) ← readValue? 2 text
    let n ← natural? content
    let ns ← readNaturals? count rest
    some (n :: ns)

/-- The natural numbers of a sequence. -/
def readSequence? (count : Nat) (text : Octets) : Option (List Nat) := do
  let (content, rest) ← readValue? 0x30 text
  if rest.isEmpty then readNaturals? count content else none

/-! ### Keys -/

/-- The key that anyone may have. -/
structure PublicKey where
  /-- The modulus. -/
  modulus : Nat
  /-- The exponent. -/
  exponent : Nat
deriving DecidableEq, Repr

/-- The key that only the receiver has. -/
structure PrivateKey extends PublicKey where
  /-- The exponent that undoes the public one. -/
  secret : Nat
deriving DecidableEq, Repr

namespace PublicKey

/-- How many octets the modulus has, and with it every block. -/
def size (key : PublicKey) : Nat :=
  if key.modulus = 0 then 0 else (key.modulus.log2 + 8) / 8

/-- Can the numbers be a key? -/
def isSound (key : PublicKey) : Bool :=
  key.exponent < key.modulus && key.modulus % 2 == 1 && key.exponent % 2 == 1 &&
    2 ≤ key.exponent && key.exponent < Nat.pow 2 33

/-- The longest modulus that is encrypted to, in bits. -/
def maxBits : Nat := 4096

/-- The key in a text. -/
def ofText? (text : Octets) : Option PublicKey := do
  let der ← unarmor? (octetsOf "RSA PUBLIC KEY") text
  match ← readSequence? 2 der with
  | [n, e] =>
    let key : PublicKey := ⟨n, e⟩
    if key.isSound && n < Nat.pow 2 maxBits then some key else none
  | _ => none

end PublicKey

namespace PrivateKey

/-- Do the exponents undo each other modulo the primes, and do the primes make up
the modulus? -/
def fits (key : PrivateKey) (p q : Nat) : Bool :=
  1 < p && 1 < q && p * q == key.modulus &&
    key.exponent * key.secret % (p - 1) == 1 && key.exponent * key.secret % (q - 1) == 1

/-- The key in a text: a version, the key, the primes and three numbers that only
speed up its use. -/
def ofText? (text : Octets) : Option PrivateKey := do
  let der ← unarmor? (octetsOf "RSA PRIVATE KEY") text
  match ← readSequence? 9 der with
  | [version, n, e, d, p, q, _, _, _] =>
    let key : PrivateKey := ⟨⟨n, e⟩, d⟩
    if version = 0 ∧ key.isSound = true ∧ key.fits p q = true then some key else none
  | _ => none

end PrivateKey

end Telemetry.Rsa
