/-!
# Faults of compressed bodies
-/

namespace Telemetry.Gzip

/-- What can be wrong with a compressed body. -/
inductive Fault where
  /-- The body ends inside its header or its trailer. -/
  | endOfFile
  /-- The body does not begin like a compressed one. -/
  | header
  /-- A name or a comment of the header is too long. -/
  | fieldTooLong
  /-- The compressed data cannot be unpacked. -/
  | corrupt
  /-- The body ends inside the compressed data. -/
  | incomplete
  /-- A checksum or the length does not fit. -/
  | checksum
deriving DecidableEq, Repr

/-- The wording of a fault. -/
def Fault.describe : Fault → String
  | .endOfFile => "unexpected end of file"
  | .header => "invalid gzip header"
  | .fieldTooLong => "gzip header field too long"
  | .corrupt => "corrupt deflate stream"
  | .incomplete => "incomplete deflate stream"
  | .checksum => "corrupt gzip stream does not have a matching checksum"

end Telemetry.Gzip
