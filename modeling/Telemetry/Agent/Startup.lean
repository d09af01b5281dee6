import Telemetry.Agent.Controller
import Telemetry.Agent.Delivery
import Telemetry.Agent.HostReading
import Telemetry.Http.Wire

/-!
# How an agent starts

Its settings are read, and then the key of the collector if they name one. Whatever
fails stops it before it has polled anything.
-/

namespace Telemetry

/-- The settings that an agent reads if it is told no others. -/
def agentSettingsPath : String := "metrica-agent.yaml"

/-- The pace that settings tell. -/
def ReporterSettings.pace (s : ReporterSettings) : Pace := ⟨s.pollInterval, s.reportInterval⟩

/-- A request on the wire. -/
def Outgoing.octets (o : Outgoing) : Octets :=
  messageOctets ("POST " ++ o.url.target ++ " HTTP/1.1")
    (("host", octetsOf o.url.authority) :: o.headers) o.body

/-- The batch of a first report, behind one poll. -/
def firstBatch (reading : HostReading) : List Metric :=
  ((Samples.setGauges .empty reading.gauges).addCounter pollCount 1).takeSnapshot.1

/-- An agent that is ready to work, as its settings and its sending side. -/
def startAgent (arguments : List String) (d : Disk) :
    Except Failure (AgentSettings × Delivery) := do
  let settings ← AgentSettings.load (arguments.head?.getD agentSettingsPath) d
  return (settings, ← Delivery.ofSettings settings.agent d)

end Telemetry
