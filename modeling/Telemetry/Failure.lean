/-!
# What can go wrong

Every operation that a client, an operator or the other program can see fails
with a `Failure`: a cause, its wording and the class it answers a request with.
Faults of the formats underneath (numbers, records, compressed bodies, keys, the
disk, the tables) have types of their own and are worded into one of these.
-/

namespace Telemetry

/-- A failed operation, by cause. -/
inductive Failure where
  /-- A kind other than gauge and counter. -/
  | unknownKind (tag : String)
  /-- A metric without a name. -/
  | emptyName
  /-- A value that is missing or cannot be read. -/
  | badValue (why : String)
  /-- No metric of this kind and name is stored. -/
  | unknownMetric (kind name : String)
  /-- The signature is missing or not that of the body. -/
  | badDataHash
  /-- A request body that cannot be read. -/
  | badRequest (why : String)
  /-- An encryption that could not be carried out. -/
  | crypto (why : String)
  /-- The storage refused. -/
  | storage (why : String)
  /-- A delivery did not get through. -/
  | transport (why : String)
  /-- A deadline elapsed. -/
  | timeout (why : String)
  /-- A setting that cannot be used. -/
  | config (why : String)
  /-- Anything else. -/
  | internal (why : String)
deriving DecidableEq, Repr

/-- The class of a failure, as a client of the collector sees it. -/
inductive FailureClass where
  /-- The kind is unknown. -/
  | unknownKind
  /-- There is no such metric. -/
  | unknownMetric
  /-- The signature does not fit. -/
  | badDataHash
  /-- The request cannot be read. -/
  | badRequest
  /-- Try again later. -/
  | unavailable
  /-- The collector is at fault. -/
  | internal
deriving DecidableEq, Repr

namespace FailureClass

/-- The word for a class in an answer. -/
def code : FailureClass → String
  | .unknownKind => "UNKNOWN_KIND"
  | .unknownMetric => "UNKNOWN_METRIC"
  | .badDataHash => "BAD_DATA_HASH"
  | .badRequest => "BAD_REQUEST"
  | .unavailable => "UNAVAILABLE"
  | .internal => "INTERNAL"

/-- The status that an answer of this class carries. -/
def status : FailureClass → Nat
  | .unknownKind => 400
  | .unknownMetric => 404
  | .badDataHash => 400
  | .badRequest => 400
  | .unavailable => 503
  | .internal => 500

end FailureClass

namespace Failure

/-- The class of a failure. -/
def toClass : Failure → FailureClass
  | .unknownKind _ => .unknownKind
  | .unknownMetric .. => .unknownMetric
  | .badDataHash => .badDataHash
  | .emptyName | .badValue _ | .badRequest _ => .badRequest
  | .storage _ | .transport _ | .timeout _ => .unavailable
  | .crypto _ | .config _ | .internal _ => .internal

/-- The wording of a failure. -/
def message : Failure → String
  | .unknownKind tag => "unknown metric kind: " ++ tag
  | .emptyName => "metric name is empty"
  | .badValue why => "bad metric value: " ++ why
  | .unknownMetric kind name => "unknown metric: kind=" ++ kind ++ " name=" ++ name
  | .badDataHash => "bad data hash"
  | .badRequest why => "bad request: " ++ why
  | .crypto why => "crypto: " ++ why
  | .storage why => "storage: " ++ why
  | .transport why => "transport: " ++ why
  | .timeout why => "timeout: " ++ why
  | .config why => "config: " ++ why
  | .internal why => "internal: " ++ why

/-- No failure answers a request with success. -/
theorem status_toClass_ge (e : Failure) : 400 ≤ e.toClass.status := by
  cases e <;> simp [toClass, FailureClass.status]

end Failure

end Telemetry
