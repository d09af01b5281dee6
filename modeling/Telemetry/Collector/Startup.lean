import Telemetry.Collector.Routes
import Telemetry.Http.Wire
import Telemetry.KeyFile
import Telemetry.Net.Address

/-!
# How a collector starts and stops

Everything that a collector needs is checked and opened before it takes a request:
its settings, the address to listen on, where to keep metrics, and its key, in this
order. Whatever fails stops it. When it ends, the store is stopped too, and a failure
to do so is a failure of the whole.
-/

namespace Telemetry

/-- The settings that a collector reads if it is told no others. -/
def collectorSettingsPath : String := "metrica-server.yaml"

namespace Collector

/-- A collector with a key from a file. -/
def ofSettings (settings : CollectorSettings) (d : Disk) : Except Failure Collector := do
  let decryptor ← loadIfNamed Rsa.Decryptor.load settings.server.cryptoKey d
  return ⟨settings.server.signatureKey.map octetsOf, decryptor⟩

/-- A collector and its backend, the backend being opened first. -/
def openAt (settings : CollectorSettings) (time : Nat) (d : Disk) :
    Except Failure (Collector × Backend) × Disk :=
  match Backend.openAt settings.storage time d with
  | (.error e, d) => (.error e, d)
  | (.ok backend, d) => ((ofSettings settings d).map fun c => (c, backend), d)

/-- The address that settings say to listen on. -/
def listenAddress (settings : CollectorSettings) : Except Failure Net.ServiceAddress :=
  match Net.ServiceAddress.parse? settings.server.listen with
  | some a => .ok a
  | none =>
    .error (.config "server.listen must be a valid SocketAddr: invalid socket address syntax")

/-- A collector that listens, with its settings and backend. `bind` takes the address, or
tells why it cannot be taken. -/
def start (arguments : List String) (bind : Net.ServiceAddress → Except String Unit) (time : Nat)
    (d : Disk) : Except Failure (CollectorSettings × Collector × Backend) × Disk :=
  let checked : Except Failure (CollectorSettings × Net.ServiceAddress) := do
    let settings ← CollectorSettings.load (arguments.head?.getD collectorSettingsPath) d
    return (settings, ← listenAddress settings)
  match checked with
  | .error e => (.error e, d)
  | .ok (settings, address) =>
    match openAt settings time d with
    | (.error e, d) => (.error e, d)
    | (.ok (c, backend), d) =>
      match bind address with
      | .error why => (.error (.config ("bind " ++ address.text ++ " failed: " ++ why)), d)
      | .ok () => (.ok (settings, c, backend), d)

/-- The answers to requests in turn. -/
def respondAll (c : Collector) : List Request → Site → List Response × Site
  | [], s => ([], s)
  | r :: rs, s =>
    match c.respond r s with
    | (response, s) =>
      match respondAll c rs s with
      | (responses, s) => (response :: responses, s)

/-- The answers on the wire to the requests that arrive over it. -/
def converse (c : Collector) (incoming : Octets) (s : Site) : Octets × Site :=
  match c.respondAll (Request.readAll incoming) s with
  | (responses, s) => (responses.flatMap Response.octets, s)

end Collector

end Telemetry
