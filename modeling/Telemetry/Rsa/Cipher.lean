import Telemetry.Failure
import Telemetry.Rsa.Key
import Telemetry.Rsa.Padding

/-!
# Encrypted bodies

A body is cut into pieces that leave room for the padding; each piece becomes one
block as long as the modulus, and the blocks follow each other. So an encrypted
body is read in steps of that length, and a body of another length, or of no block
at all, is none.

Keys whose modulus leaves no room are refused when they are loaded, so a loaded key
carries with it that there is room.
-/

namespace Telemetry.Rsa

/-- How many octets of text a block of a key can hold; none if the padding fills
it. -/
def room (key : PublicKey) : Nat := key.size - paddingSize

/-- The refusal of a key without room. -/
def tooSmall (key : PublicKey) : Failure :=
  .config ("rsa key of " ++ toString key.size ++ " bytes is too small for OAEP/SHA-512")

/-- The sending side: a public key with room for text. -/
structure Encryptor where
  /-- The key. -/
  key : PublicKey
  /-- There is room. -/
  hasRoom : 0 < room key

/-- The receiving side: a private key with room for text. -/
structure Decryptor where
  /-- The key. -/
  key : PrivateKey
  /-- There is room. -/
  hasRoom : 0 < room key.toPublicKey

/-- A power modulo another number, by squaring; `fuel` bounds the number of bits of
the exponent. -/
def powMod (modulus : Nat) : (fuel : Nat) → (base exponent : Nat) → Nat
  | 0, _, _ => 1 % modulus
  | fuel + 1, base, exponent =>
    if exponent = 0 then 1 % modulus
    else
      let square := powMod modulus fuel (base * base % modulus) (exponent / 2)
      if exponent % 2 = 1 then square * base % modulus else square

/-- A power modulo the modulus of a key. -/
def PublicKey.raise (key : PublicKey) (base exponent : Nat) : Nat :=
  powMod key.modulus (exponent.log2 + 1) (base % key.modulus) exponent

/-- Pieces of a length, the last one possibly shorter. A piece of no length would
never end, so there are no such pieces. -/
def pieces (length : Nat) (text : Octets) : List Octets :=
  go text.length text
where
  /-- Pieces of a text of at most `fuel` octets. -/
  go : (fuel : Nat) → Octets → List Octets
    | 0, _ => []
    | fuel + 1, text =>
      if text.isEmpty then [] else text.take length :: go fuel (text.drop length)

namespace Encryptor

/-- The sending side of a key. -/
def ofKey (key : PublicKey) : Except Failure Encryptor :=
  if h : 0 < room key then .ok ⟨key, h⟩ else .error (tooSmall key)

/-- The sending side of the key in a text. -/
def ofText (text : Octets) : Except Failure Encryptor :=
  match PublicKey.ofText? text with
  | some key => ofKey key
  | none => .error (.config "invalid rsa public key")

/-- One piece as one block. -/
def block (e : Encryptor) (seed piece : Octets) : Octets :=
  let padded := ofBigEndian (pad e.key.size seed piece)
  Sha512.bigEndian e.key.size (e.key.raise padded e.key.exponent)

/-- A body encrypted, with a seed of its own for each block. -/
def encrypt (e : Encryptor) (seed : Nat → Octets) (body : Octets) : Octets :=
  ((pieces (room e.key) body).mapIdx fun i piece => e.block (seed i) piece).flatten

end Encryptor

namespace Decryptor

/-- The receiving side of a key. -/
def ofKey (key : PrivateKey) : Except Failure Decryptor :=
  if h : 0 < room key.toPublicKey then .ok ⟨key, h⟩ else .error (tooSmall key.toPublicKey)

/-- The receiving side of the key in a text. -/
def ofText (text : Octets) : Except Failure Decryptor :=
  match PrivateKey.ofText? text with
  | some key => ofKey key
  | none => .error (.config "invalid rsa private key")

/-- The piece in one block, if it is one. -/
def piece? (d : Decryptor) (block : Octets) : Option Octets :=
  let c := ofBigEndian block
  if d.key.modulus ≤ c then none
  else unpad? (Sha512.bigEndian d.key.size (d.key.raise c d.key.secret))

/-- The piece in one block. -/
def piece (d : Decryptor) (block : Octets) : Except Failure Octets :=
  match d.piece? block with
  | some piece => .ok piece
  | none => .error (.badRequest "decrypt failed: decryption error")

/-- An encrypted body decrypted. -/
def decrypt (d : Decryptor) (body : Octets) : Except Failure Octets :=
  if body.isEmpty ∨ body.length % d.key.size ≠ 0 then
    .error (.badRequest ("ciphertext length " ++ toString body.length ++
      " is not a multiple of " ++ toString d.key.size))
  else ((pieces d.key.size body).mapM d.piece).map List.flatten

end Decryptor

end Telemetry.Rsa
