import Telemetry.Digest.Sha256

/-!
# Keyed digests

The digest of a message that only the holders of a key can work out. The key, cut
down to a digest if it is longer than a block, is filled up with zeros; two
different masks over it are put in front of the message and in front of the inner
digest.
-/

namespace Telemetry

/-- A key brought to the size of a block. -/
def blockKey (key : Octets) : Octets :=
  let short := if Sha256.blockSize < key.length then Sha256.digest key else key
  short ++ List.replicate (Sha256.blockSize - short.length) 0

/-- The keyed digest of a message. -/
def keyedDigest (key message : Octets) : Octets :=
  let k := blockKey key
  Sha256.digest (k.map (· ^^^ 0x5c) ++ Sha256.digest (k.map (· ^^^ 0x36) ++ message))

@[simp] theorem length_keyedDigest (key message : Octets) :
    (keyedDigest key message).length = Sha256.digestSize := rfl

end Telemetry
