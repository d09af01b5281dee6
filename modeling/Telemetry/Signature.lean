import Telemetry.Digest.Hex
import Telemetry.Digest.Hmac
import Telemetry.Failure
import Telemetry.Text.Blank

/-!
# Signatures

A signature shows that a body comes from someone who knows the shared secret. It is
the keyed digest of the body, written in hexadecimal digits. A reader takes digits of
either case and white space around them, and nothing less or more than the whole
digest.
-/

namespace Telemetry

/-- The signature of a body under a secret. -/
def sign (secret body : Octets) : String := hexOf (keyedDigest secret body)

/-- Is a text the signature of a body under a secret? -/
def isSignature (secret body : Octets) (signature : String) : Bool :=
  ofHexChars? (trimBlank signature.toList) == some (keyedDigest secret body)

/-- The check of a signature. Whatever is wrong with it, the failure is the same. -/
def verify (secret body : Octets) (signature : String) : Except Failure Unit :=
  if isSignature secret body signature then .ok () else .error .badDataHash

end Telemetry
