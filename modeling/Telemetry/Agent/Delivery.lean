import Telemetry.Backoff
import Telemetry.Envelope
import Telemetry.Http.Status
import Telemetry.KeyFile
import Telemetry.Net.Url

/-!
# Delivering a batch

A batch goes to the collector in one envelope, in one request to one path of it. A
request that gets lost on the way is sent again on the schedule of pauses; whatever
status the collector answers with is its answer, and is not asked for again. So a
batch that was taken but whose answer got lost is delivered twice.

The **network** is a function: from a request, and from whatever the world out there is
like, to a reply and what the world is like then. All that a delivery knows of the
world is in the replies.

* `updatesUrl`: where the collector takes batches;
* `Delivery.request`: the request around an envelope;
* `Delivery.send`, `Delivery.report`: an envelope, or a batch, delivered.
-/

namespace Telemetry

/-! ### Where to -/

/-- The path of a collector that takes batches. -/
def updatesPath : String := "/updates/"

/-- Text without the slashes at its end. -/
def dropEndSlashes (cs : List Char) : List Char := (cs.reverse.dropWhile (· == '/')).reverse

/-- Does a text tell over which scheme to go? -/
def hasScheme (cs : List Char) : Bool :=
  "http://".toList.isPrefixOf cs || "https://".toList.isPrefixOf cs

/-- Where a collector takes batches, from the text that names the collector. -/
def updatesUrl (base : String) : String :=
  let cs := dropEndSlashes (trimBlank base.toList)
  (if hasScheme cs then "" else "http://") ++ String.ofList cs ++ updatesPath

/-! ### Requests and replies -/

/-- A request on its way to a collector. -/
structure Outgoing where
  /-- Where it goes. -/
  url : Net.Url
  /-- The named values of its header. -/
  headers : List (String × Octets)
  /-- Its body. -/
  body : Octets
deriving DecidableEq

/-- What comes back. -/
inductive Reply where
  /-- An answer with a status. -/
  | status (number : Nat)
  /-- Nothing that could be taken for an answer. -/
  | lost
deriving DecidableEq, Repr

/-- Why an attempt failed. -/
inductive SendFault where
  /-- No request could be made. -/
  | unmade
  /-- No request can be sent to this location. -/
  | unsendable (url : String)
  /-- The request or the answer got lost. -/
  | lost (url : String)
  /-- The collector did not take the batch. -/
  | refused (status : Nat)
deriving DecidableEq, Repr

namespace SendFault

/-- The wording of a fault. -/
def message : SendFault → String
  | .unmade => "network: builder error"
  | .unsendable url => "network: builder error for url (" ++ url ++ ")"
  | .lost url => "network: error sending request for url (" ++ url ++ ")"
  | .refused status => "collector answered " ++ statusText status

/-- Is it worth trying again? Not if the collector has answered. -/
def retriable : SendFault → Bool
  | .refused _ => false
  | _ => true

end SendFault

/-! ### Delivery -/

/-- The sending side of an agent. -/
structure Delivery where
  /-- Where the collector takes batches. -/
  url : String
  /-- What envelopes are made with. -/
  sealer : Sealer
  /-- The pauses between attempts. -/
  backoff : Backoff
  /-- The address that requests tell as that of the agent. -/
  realIp : Option String

namespace Delivery

/-- Can octets stand as a value in a header? -/
def isHeaderValue (bs : Octets) : Bool := bs.all fun b => (32 ≤ b && b ≠ 127) || b = 9

/-- The named values in the header of a request around an envelope. -/
def headers (d : Delivery) (e : Envelope) : List (String × Octets) :=
  let named (name : String) (value : Option String) : List (String × Octets) :=
    value.toList.map fun v => (name, octetsOf v)
  [("content-type", octetsOf "application/json"), ("content-encoding", octetsOf "gzip")] ++
    named "hashsha256" e.signature ++ named "x-real-ip" d.realIp

/-- The request around an envelope. -/
def request (d : Delivery) (e : Envelope) : Except SendFault Outgoing :=
  match Net.Url.parse? d.url with
  | none => .error .unmade
  | some url =>
    if (d.headers e).any fun h => !isHeaderValue h.2 then .error .unmade
    else if !url.isSendable then .error (.unsendable url.text)
    else .ok ⟨url, d.headers e, e.body⟩

/-- One attempt. -/
def attempt {σ : Type} (d : Delivery) (network : Outgoing → σ → Reply × σ) (e : Envelope)
    (world : σ) : Except SendFault Unit × σ :=
  match d.request e with
  | .error fault => (.error fault, world)
  | .ok request =>
    match network request world with
    | (.lost, world) => (.error (.lost request.url.text), world)
    | (.status n, world) => (if isSuccess n then .ok () else .error (.refused n), world)

/-- An envelope delivered. -/
def send {σ : Type} (d : Delivery) (network : Outgoing → σ → Reply × σ) (e : Envelope) (world : σ) :
    Run SendFault σ Unit :=
  d.backoff.run SendFault.retriable (d.attempt network e) (fun _ world => world) world

/-- A batch delivered. There is nothing to deliver of an empty one. -/
def report {σ : Type} (d : Delivery) (network : Outgoing → σ → Reply × σ) (seed : Nat → Octets)
    (batch : List Metric) (world : σ) : Except Failure Unit × σ × Nat :=
  match d.sealer.encodeBatch seed batch with
  | none => (.ok (), world, 0)
  | some e =>
    let run := d.send network e world
    let result := match run.result with
      | .ok () => .ok ()
      | .error e => .error (.transport (e.message SendFault.message))
    (result, run.state, run.waited)

/-- The sending side that settings describe. -/
def ofSettings (s : ReporterSettings) (d : Disk) : Except Failure Delivery := do
  let encryptor ← loadIfNamed Rsa.Encryptor.load s.cryptoKey d
  return ⟨updatesUrl s.server, ⟨s.signatureKey.map octetsOf, encryptor⟩, ⟨s.backoff⟩, s.realIp⟩

end Delivery

end Telemetry
