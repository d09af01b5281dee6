import Telemetry.Gzip.Stored
import Telemetry.Record
import Telemetry.Rsa.Cipher
import Telemetry.Signature

/-!
# Envelopes

What travels from the agent to the collector: records, compressed, signed if there
is a secret, encrypted if there is a key. The signature covers the compressed
octets, so without encryption it covers exactly the body that arrives.

Opening an envelope undoes this from the outside in: decrypt, check the signature,
unpack, read the records. A step whose key or secret is not configured is left out;
unpacking depends on what the envelope says of itself.

How small a body becomes is the compressor's affair, and the two sides do not have to
agree about it: they have to agree about what a compressed body unpacks to. So the
sending side takes whatever compressor it is given, with the two facts that the other
side relies on.

* `Compressor`: what can be asked of a compressor;
* `Sealer.enclose`, `Sealer.encodeBatch`, `Sealer.encodeOne`;
* `Opener.payload`, `Opener.openBody`, `Opener.decodeBatch`, `Opener.decodeOne`.
-/

namespace Telemetry

/-! ### Compression -/

/-- What a compressed body unpacks to. -/
def gunzip (body : Octets) : Except Failure Octets :=
  match Gzip.unpack body with
  | .ok out => .ok out
  | .error e => .error (.badRequest ("invalid gzip body: " ++ e.describe))

/-- A compressor of bodies. Which of the many bodies that unpack to the given one it picks
is left open. -/
class Compressor where
  /-- A body compressed. -/
  compress : Octets → Octets
  /-- Unpacking undoes compressing. -/
  gunzip_compress : ∀ body, gunzip (compress body) = .ok body
  /-- A compressed body is not empty: it has at least its header. -/
  compress_ne_nil : ∀ body, compress body ≠ []

/-- A body in stored blocks. -/
def gzip (body : Octets) : Octets := Gzip.pack body

/-- Unpacking undoes packing in stored blocks. -/
theorem gunzip_gzip (body : Octets) : gunzip (gzip body) = .ok body := by
  rw [gunzip, gzip, Gzip.unpack_pack]

/-- Packing in stored blocks compresses, though it saves nothing. It stands in where no other
compressor is given. -/
instance : Compressor where
  compress := gzip
  gunzip_compress := gunzip_gzip
  compress_ne_nil := Gzip.pack_ne_nil

/-! ### Sealing -/

/-- A body ready to be sent, with its signature if it has one. -/
structure Envelope where
  /-- The body. -/
  body : Octets
  /-- The signature of the compressed octets. -/
  signature : Option String
deriving DecidableEq

/-- The sending side: what to compress, to sign and to encrypt with. -/
structure Sealer where
  /-- The compressor. -/
  [compressor : Compressor]
  /-- The shared secret. -/
  secret : Option Octets
  /-- The key of the collector. -/
  encryptor : Option Rsa.Encryptor

namespace Sealer

/-- An envelope around octets, `seed` giving the randomness of each block. -/
def enclose (s : Sealer) (seed : Nat → Octets) (octets : Octets) : Envelope :=
  let compressed := s.compressor.compress octets
  { body := match s.encryptor with
      | some e => e.encrypt seed compressed
      | none => compressed
    signature := s.secret.map fun secret => sign secret compressed }

/-- An envelope around a batch; there is none around an empty one. -/
def encodeBatch (s : Sealer) (seed : Nat → Octets) (ms : List Metric) : Option Envelope :=
  if ms.isEmpty then none else some (s.enclose seed (encodeRecords ms))

/-- An envelope around one metric. -/
def encodeOne (s : Sealer) (seed : Nat → Octets) (m : Metric) : Envelope :=
  s.enclose seed (encodeRecord m)

end Sealer

/-! ### Opening -/

/-- What an envelope says of itself: the coding of its content and its signature. -/
structure EnvelopeLabel where
  /-- The coding of the content. -/
  contentEncoding : Option String
  /-- The signature. -/
  signature : Option String
deriving DecidableEq

/-- Does a text occur in another one? -/
def occursIn (part : List Char) : List Char → Bool
  | [] => part.isEmpty
  | c :: cs => part.isPrefixOf (c :: cs) || occursIn part cs

/-- Is the content said to be compressed? It is if the word occurs anywhere. -/
def saysGzip (contentEncoding : Option String) : Bool :=
  match contentEncoding with
  | some coding => occursIn "gzip".toList coding.toList
  | none => false

/-- The receiving side: what to check and to decrypt with. -/
structure Opener where
  /-- The shared secret. -/
  secret : Option Octets
  /-- The key of the collector. -/
  decryptor : Option Rsa.Decryptor

namespace Opener

/-- The octets that the signature of an envelope covers. -/
def payload (o : Opener) (body : Octets) : Except Failure Octets :=
  match o.decryptor with
  | some d => d.decrypt body
  | none => .ok body

/-- The check of a payload against what the envelope says. Without a secret there is
nothing to check. -/
def checkSignature (o : Opener) (label : EnvelopeLabel) (payload : Octets) : Except Failure Unit :=
  match o.secret with
  | none => .ok ()
  | some secret =>
    match label.signature with
    | none => .error .badDataHash
    | some signature => verify secret payload signature

/-- A payload unpacked, if the envelope says so. -/
def unpackAs (label : EnvelopeLabel) (payload : Octets) : Except Failure Octets :=
  if saysGzip label.contentEncoding then gunzip payload else .ok payload

/-- The octets in an envelope. -/
def openBody (o : Opener) (label : EnvelopeLabel) (body : Octets) : Except Failure Octets := do
  let payload ← o.payload body
  o.checkSignature label payload
  unpackAs label payload

/-- The batch in an envelope. -/
def decodeBatch (o : Opener) (label : EnvelopeLabel) (body : Octets) :
    Except Failure (List Metric) := do
  decodeRecords (← o.openBody label body)

/-- The one metric in an envelope. -/
def decodeOne (o : Opener) (label : EnvelopeLabel) (body : Octets) : Except Failure Metric := do
  decodeRecord (← o.openBody label body)

end Opener

end Telemetry
