import Telemetry.Envelope
import Telemetry.Http.Message
import Telemetry.Json.Write
import Telemetry.Store.Backend

/-!
# What a collector answers

Four routes:

* `POST /updates/` stores the batch in an envelope;
* `POST /update/` stores the one metric in an envelope, and answers with what is
  stored of it then;
* `POST /value/` answers with what is stored of the metric asked for;
* `GET /ping` tells whether the database answers.

A body is bounded, and is decoded as a whole before anything is stored, so a request
that is refused stores nothing. With a secret, every body that is sent back is signed,
whatever it says.
-/

namespace Telemetry

/-- What a collector does at a path. -/
inductive Route where
  /-- Stores a batch. -/
  | updates
  /-- Stores one metric. -/
  | update
  /-- Looks a metric up. -/
  | value
  /-- Tells whether the database answers. -/
  | ping
deriving DecidableEq, Repr

namespace Route

/-- The path of a route. -/
def path : Route → String
  | .updates => "/updates/"
  | .update => "/update/"
  | .value => "/value/"
  | .ping => "/ping"

/-- All routes. -/
def all : List Route := [.updates, .update, .value, .ping]

/-- The route at a path. -/
def ofPath? (p : String) : Option Route := all.find? fun r => r.path == p

/-- The methods that a route takes. -/
def methods : Route → List String
  | .ping => ["GET", "HEAD"]
  | _ => ["POST"]

end Route

/-! ### Bodies -/

/-- The type of bodies that are records or tell of a failure. -/
def jsonType : String := "application/json"

/-- The greatest length of a body. -/
def bodyLimit : Nat := 2097152

/-- A response without a body. -/
def Response.bare (status : Nat) : Response := ⟨status, [], none, none, none⟩

/-- A response with a body of some type. -/
def Response.withBody (status : Nat) (type : String) (body : Octets) : Response :=
  ⟨status, body, some type, none, none⟩

/-- The response that tells of a failure. -/
def Response.ofFailure (e : Failure) : Response :=
  .withBody e.toClass.status jsonType (Json.octetsOfChars (Json.objectChars
    [("code", Json.stringChars e.toClass.code), ("msg", Json.stringChars e.message)]))

/-- The response with a metric. -/
def Response.ofMetric (m : Metric) : Response := .withBody 200 jsonType (encodeRecord m)

/-- The response to a body that is too long. -/
def Response.tooLong : Response :=
  .withBody 413 "text/plain; charset=utf-8"
    (octetsOf "Failed to buffer the request body: length limit exceeded")

/-- The response to a method that a route does not take. -/
def Response.notAllowed (r : Route) : Response :=
  { Response.bare 405 with allow := some (",".intercalate r.methods) }

/-- The response with its body signed, if there is a secret and a body. -/
def Response.signed (secret : Option Octets) (r : Response) : Response :=
  match secret with
  | some secret => if r.body.isEmpty then r else { r with signature := some (sign secret r.body) }
  | none => r

/-! ### Answers -/

/-- What a request says of its envelope. -/
def Request.label (r : Request) : EnvelopeLabel :=
  ⟨r.header? "content-encoding", r.header? "hashsha256"⟩

/-- A collector: what it opens envelopes and signs answers with. -/
structure Collector where
  /-- The receiving side of envelopes. -/
  opener : Opener

namespace Collector

/-- A batch stored. -/
def postUpdates (c : Collector) (r : Request) (s : Site) : Except Failure Response × Site :=
  match c.opener.decodeBatch r.label r.body with
  | .error e => (.error e, s)
  | .ok ms =>
    match s.batchUpdate ms with
    | (.ok (), s) => (.ok (.bare 200), s)
    | (.error e, s) => (.error e, s)

/-- One metric stored and looked up. -/
def postUpdate (c : Collector) (r : Request) (s : Site) : Except Failure Response × Site :=
  match c.opener.decodeOne r.label r.body with
  | .error e => (.error e, s)
  | .ok m =>
    match s.update m with
    | (.ok (), s) => ((s.get m.kind m.name).map .ofMetric, s)
    | (.error e, s) => (.error e, s)

/-- A metric looked up. Neither secret nor key matter to this. -/
def postValue (r : Request) (s : Site) : Except Failure Response := do
  let body ← Opener.unpackAs r.label r.body
  match Query.parse body with
  | .error e => .error (.badRequest ("invalid query json: " ++ e))
  | .ok q => return .ofMetric (← s.get (← q.kind) q.id)

/-- Whether the database answers. -/
def getPing (s : Site) : Response := .bare (if s.backend.isHealthy then 200 else 500)

/-- The answer of a route that takes the method. -/
def handle (c : Collector) (route : Route) (r : Request) (s : Site) : Response × Site :=
  if route = .ping then (getPing s, s)
  else if bodyLimit < r.body.length then (.tooLong, s)
  else
    let (result, s) := match route with
      | .updates => c.postUpdates r s
      | .update => c.postUpdate r s
      | _ => (postValue r s, s)
    match result with
    | .ok response => (response, s)
    | .error e => (.ofFailure e, s)

/-- The answer to a request, before it is signed. -/
def route (c : Collector) (r : Request) (s : Site) : Response × Site :=
  match Route.ofPath? r.path with
  | none => (.bare 404, s)
  | some route =>
    if route.methods.contains r.method then c.handle route r s else (.notAllowed route, s)

/-- The answer to a request. -/
def respond (c : Collector) (r : Request) (s : Site) : Response × Site :=
  match c.route r s with
  | (response, s) => (response.signed c.opener.secret, s)

end Collector

end Telemetry
