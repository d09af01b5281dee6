import Telemetry.Json.Skip
import Telemetry.Json.Write
import Telemetry.Metric

/-!
# Records

The form in which metrics travel and rest: a JSON object with the name as `id`,
the word for the kind as `type`, and `delta` for a counter or `value` for a gauge.
A batch is a list of records, and so is a snapshot on disk.

Reading has two stages. The first is one pass over the whole text and knows only
which fields there are and what their types are; a record may also be given as a
list of the four in order. The second takes the fields for a metric. So a fault of
the text always comes before a fault of what it says.

* `encodeRecord`, `encodeRecords`: metrics to octets;
* `decodeRecord`, `decodeRecords`: octets to metrics;
* `Query`: the two fields that ask for one metric.
-/

namespace Telemetry

open Json

/-! ### Writing -/

/-- The characters of a record. -/
def recordChars (m : Metric) : List Char :=
  objectChars
    [("id", stringChars m.name), ("type", stringChars m.kind.tag),
      match m.value with
      | .gauge x => ("value", realChars x)
      | .counter n => ("delta", intChars n.toInt)]

/-- The octets of a record. -/
def encodeRecord (m : Metric) : Octets := octetsOfChars (recordChars m)

/-- The octets of a list of records. -/
def encodeRecords (ms : List Metric) : Octets := octetsOfChars (listChars (ms.map recordChars))

/-! ### Reading -/

/-- The fields of a record. -/
structure Record where
  /-- The name of the metric. -/
  id : String
  /-- The word for its kind. -/
  type : String
  /-- The value of a counter. -/
  delta : Option Int64
  /-- The value of a gauge. -/
  value : Option Binary64
deriving DecidableEq

/-- The fields of a record that have been read; for each one whether it was there
and what it held. -/
structure RecordDraft where
  /-- The name. -/
  id : Option String
  /-- The word for the kind. -/
  type : Option String
  /-- The value of a counter. -/
  delta : Option (Option Int64)
  /-- The value of a gauge. -/
  value : Option (Option Binary64)

/-- The field names of a record. -/
def recordFields : List String := ["id", "type", "delta", "value"]

/-- One entry of a record, read from behind its key. -/
def readRecordEntry (key : String) (d : RecordDraft) (text : Octets) :
    Except Stop (RecordDraft × Octets) :=
  if key = "id" then
    if d.id.isSome then stopObject (.duplicateField key) text
    else do
      let (v, text) ← readString (← readColon text)
      .ok ({ d with id := some v }, text)
  else if key = "type" then
    if d.type.isSome then stopObject (.duplicateField key) text
    else do
      let (v, text) ← readString (← readColon text)
      .ok ({ d with type := some v }, text)
  else if key = "delta" then
    if d.delta.isSome then stopObject (.duplicateField key) text
    else do
      let (v, text) ← readOptional readInteger (← readColon text)
      .ok ({ d with delta := some v }, text)
  else if key = "value" then
    if d.value.isSome then stopObject (.duplicateField key) text
    else do
      let (v, text) ← readOptional readReal (← readColon text)
      .ok ({ d with value := some v }, text)
  else stopObject (.unknownField key recordFields) text

/-- A record in the form of an object, from behind the opening brace. -/
def readRecordObject (text : Octets) : Except Stop (Record × Octets) := do
  let (d, text) ← readEntries readRecordEntry text true ⟨none, none, none, none⟩ text
  match d.id, d.type with
  | none, _ => stopObject (.missingField "id") text
  | _, none => stopObject (.missingField "type") text
  | some id, some type =>
    let text ← closeObject text
    .ok (⟨id, type, d.delta.getD none, d.value.getD none⟩, text)

/-- The next item of a list, or `default` at the end of the list. -/
def readItemOr {α : Type} (default : α) (read : Octets → Except Stop (α × Octets)) (text : Octets) :
    Except Stop (α × Octets) := do
  match ← nextItem false text with
  | none => .ok (default, text)
  | some text => read text

/-- A name and the word for a kind, the first two items of a list, from behind the
opening bracket. -/
def readIdType (expected : String) (text : Octets) : Except Stop ((String × String) × Octets) := do
  match ← nextItem true text with
  | none => stopShortList 0 expected text
  | some text =>
    let (id, text) ← readString text
    match ← nextItem false text with
    | none => stopShortList 1 expected text
    | some text =>
      let (type, text) ← readString text
      .ok ((id, type), text)

/-- A record in the form of a list, from behind the opening bracket. -/
def readRecordList (text : Octets) : Except Stop (Record × Octets) := do
  let ((id, type), text) ← readIdType "struct MetricRecord with 4 elements" text
  let (delta, text) ← readItemOr none (readOptional readInteger) text
  let (value, text) ← readItemOr none (readOptional readReal) text
  let text ← closeList text
  .ok (⟨id, type, delta, value⟩, text)

/-- A value that may be given as an object or as a list. -/
def readFramed {α : Type} (expected : String) (object list : Octets → Except Stop (α × Octets))
    (text : Octets) : Except Stop (α × Octets) :=
  match skipSpace text with
  | [] => stopBefore .endInValue []
  | b :: rest =>
    if b = ascii '[' then list rest
    else if b = ascii '{' then object rest
    else wrongType expected (b :: rest)

/-- A record. -/
def readRecord (text : Octets) : Except Stop (Record × Octets) :=
  readFramed "struct MetricRecord" readRecordObject readRecordList text

/-- A list of records. -/
def readRecords (text : Octets) : Except Stop (List Record × Octets) :=
  match skipSpace text with
  | [] => stopBefore .endInValue []
  | b :: rest =>
    if b = ascii '[' then do
      let (records, text) ← readItems readRecord rest true rest
      let text ← closeList text
      .ok (records, text)
    else wrongType "a sequence" (b :: rest)

/-- A text that holds one value and nothing else; a fault is worded. -/
def readAll {α : Type} (read : Octets → Except Stop (α × Octets)) (text : Octets) :
    Except String α :=
  let whole : Except Stop α := do
    let (a, rest) ← read text
    closeText rest
    .ok a
  whole.mapError (Stop.message text)

/-- The metric that a record stands for. The kind is looked at first, then the
value that belongs to it, then the name. -/
def Record.toMetric (r : Record) : Except Failure Metric := do
  match ← Kind.ofTag r.type with
  | .gauge =>
    match r.value with
    | some x => Metric.make r.id .gauge (.gauge x)
    | none => .error (.badValue ("gauge " ++ r.id ++ " has no value"))
  | .counter =>
    match r.delta with
    | some n => Metric.make r.id .counter (.counter n)
    | none => .error (.badValue ("counter " ++ r.id ++ " has no delta"))

/-- The metric in a body. -/
def decodeRecord (body : Octets) : Except Failure Metric :=
  match readAll readRecord body with
  | .ok r => r.toMetric
  | .error e => .error (.badRequest ("invalid record json: " ++ e))

/-- The metrics in a body, the first bad record being the answer if there is
one. -/
def decodeRecords (body : Octets) : Except Failure (List Metric) :=
  match readAll readRecords body with
  | .ok rs => rs.mapM Record.toMetric
  | .error e => .error (.badRequest ("invalid records json: " ++ e))

/-! ### Queries -/

/-- The fields of a query for one metric. -/
structure Query where
  /-- The name of the metric. -/
  id : String
  /-- The word for its kind. -/
  type : String
deriving DecidableEq, Repr

/-- The fields of a query that have been read. -/
structure QueryDraft where
  /-- The name. -/
  id : Option String
  /-- The word for the kind. -/
  type : Option String

/-- One entry of a query, read from behind its key. Other fields are skipped. -/
def readQueryEntry (key : String) (d : QueryDraft) (text : Octets) :
    Except Stop (QueryDraft × Octets) :=
  if key = "id" then
    if d.id.isSome then stopObject (.duplicateField key) text
    else do
      let (v, text) ← readString (← readColon text)
      .ok ({ d with id := some v }, text)
  else if key = "type" then
    if d.type.isSome then stopObject (.duplicateField key) text
    else do
      let (v, text) ← readString (← readColon text)
      .ok ({ d with type := some v }, text)
  else do
    let text ← skipValue (← readColon text)
    .ok (d, text)

/-- A query in the form of an object, from behind the opening brace. -/
def readQueryObject (text : Octets) : Except Stop (Query × Octets) := do
  let (d, text) ← readEntries readQueryEntry text true ⟨none, none⟩ text
  match d.id, d.type with
  | none, _ => stopObject (.missingField "id") text
  | _, none => stopObject (.missingField "type") text
  | some id, some type =>
    let text ← closeObject text
    .ok (⟨id, type⟩, text)

/-- A query in the form of a list, from behind the opening bracket. -/
def readQueryList (text : Octets) : Except Stop (Query × Octets) := do
  let ((id, type), text) ← readIdType "struct MetricQuery with 2 elements" text
  let text ← closeList text
  .ok (⟨id, type⟩, text)

/-- The query in a body, or what is wrong with the body. -/
def Query.parse (body : Octets) : Except String Query :=
  readAll (readFramed "struct MetricQuery" readQueryObject readQueryList) body

/-- The kind that a query asks for. -/
def Query.kind (q : Query) : Except Failure Kind := Kind.ofTag q.type

end Telemetry
