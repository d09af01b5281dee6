import Telemetry.Backoff
import Telemetry.Failure
import Telemetry.Net.Address
import Telemetry.Text.Blank
import Telemetry.Yaml.Reader

/-!
# The settings of an agent

Where the collector is, how often to gather and to report, and what to sign and to
encrypt with. All settings but the version have a value of their own if they are not
told; a setting that does not exist is refused, and so is a value that makes no sense.
-/

namespace Telemetry

open Yaml

/-- How an agent works. -/
structure ReporterSettings where
  /-- The collector. -/
  server : String
  /-- The milliseconds between two polls. -/
  pollInterval : Nat
  /-- The milliseconds between two reports. -/
  reportInterval : Nat
  /-- The milliseconds that one attempt may take. -/
  requestTimeout : Nat
  /-- The shared secret. -/
  signatureKey : Option String
  /-- The file with the public key of the collector. -/
  cryptoKey : Option String
  /-- The address that requests tell as that of the agent. -/
  realIp : Option String
  /-- The pauses between attempts. -/
  backoff : List Nat
deriving DecidableEq, Repr

namespace ReporterSettings

/-- To a collector on the local host, without secret and key. -/
def standard : ReporterSettings where
  server := "http://127.0.0.1:8080"
  pollInterval := 2000
  reportInterval := 10000
  requestTimeout := 5000
  signatureKey := none
  cryptoKey := none
  realIp := none
  backoff := Backoff.standard.pauses

/-- The first of these settings that makes no sense. -/
def check (s : ReporterSettings) : Except Failure Unit :=
  if isBlankText s.server then .error (.config "agent.server must not be empty")
  else if s.pollInterval = 0 ∨ s.reportInterval = 0 then
    .error (.config "agent intervals must be > 0")
  else if s.reportInterval < s.pollInterval then
    .error (.config ("agent.report_interval_ms (" ++ toString s.reportInterval ++
      ") must be >= poll_interval_ms (" ++ toString s.pollInterval ++ ")"))
  else if s.requestTimeout = 0 then .error (.config "agent.request_timeout_ms must be > 0")
  else if s.realIp.any fun ip => (Net.HostAddress.parse? ip).isNone then
    .error (.config "agent.real_ip must be an IP address")
  else if s.signatureKey = some "" then
    .error (.config "agent.signature_key must not be empty when set")
  else .ok ()

/-- The fields that have been read. -/
structure Draft where
  /-- The collector. -/
  server : Option String
  /-- The milliseconds between two polls. -/
  pollInterval : Option Nat
  /-- The milliseconds between two reports. -/
  reportInterval : Option Nat
  /-- The milliseconds that one attempt may take. -/
  requestTimeout : Option Nat
  /-- The secret. -/
  signatureKey : Option (Option String)
  /-- The key. -/
  cryptoKey : Option (Option String)
  /-- The address. -/
  realIp : Option (Option String)
  /-- The pauses. -/
  backoff : Option (List Nat)

/-- The names of the fields. -/
def fields : List String :=
  ["server", "poll_interval_ms", "report_interval_ms", "request_timeout_ms", "signature_key",
    "crypto_key", "real_ip", "backoff_ms"]

/-- One field. -/
def entry (d : Document) (path : Path) (key : String) (place : Path) (s : Draft)
    (parts : List Part) : Except Trouble (Draft × List Part) := do
  match key with
  | "server" =>
    let (v, rest) ← readOnce key path s.server (readText d "a string" place) parts
    .ok ({ s with server := v }, rest)
  | "poll_interval_ms" =>
    let (v, rest) ← readOnce key path s.pollInterval (readNatural d "u64" place) parts
    .ok ({ s with pollInterval := v }, rest)
  | "report_interval_ms" =>
    let (v, rest) ← readOnce key path s.reportInterval (readNatural d "u64" place) parts
    .ok ({ s with reportInterval := v }, rest)
  | "request_timeout_ms" =>
    let (v, rest) ← readOnce key path s.requestTimeout (readNatural d "u64" place) parts
    .ok ({ s with requestTimeout := v }, rest)
  | "signature_key" =>
    let (v, rest) ← readOnce key path s.signatureKey
      (readOptionalText d "a string" path place) parts
    .ok ({ s with signatureKey := v }, rest)
  | "crypto_key" =>
    let (v, rest) ← readOnce key path s.cryptoKey
      (readOptionalText d "path string" path place) parts
    .ok ({ s with cryptoKey := v }, rest)
  | "real_ip" =>
    let (v, rest) ← readOnce key path s.realIp (readOptionalText d "a string" path place) parts
    .ok ({ s with realIp := v }, rest)
  | "backoff_ms" =>
    let (v, rest) ← readOnce key path s.backoff (readNaturals d place) parts
    .ok ({ s with backoff := v }, rest)
  | _ => .error (.wrong path (.unknownField key fields))

/-- These settings in a document. -/
def read (d : Document) (path : Path) (parts : List Part) :
    Except Trouble (ReporterSettings × List Part) :=
  readMapping d "struct AgentSection" path
    (Draft.mk none none none none none none none none) (entry d path)
    (fun s => .ok {
      server := s.server.getD standard.server
      pollInterval := s.pollInterval.getD standard.pollInterval
      reportInterval := s.reportInterval.getD standard.reportInterval
      requestTimeout := s.requestTimeout.getD standard.requestTimeout
      signatureKey := s.signatureKey.getD standard.signatureKey
      cryptoKey := s.cryptoKey.getD standard.cryptoKey
      realIp := s.realIp.getD standard.realIp
      backoff := s.backoff.getD standard.backoff }) parts

end ReporterSettings

/-- The settings of an agent. -/
structure AgentSettings where
  /-- The version of the settings. -/
  version : Nat
  /-- How the agent works. -/
  agent : ReporterSettings
deriving DecidableEq, Repr

namespace AgentSettings

/-- The first setting that makes no sense. -/
def check (s : AgentSettings) : Except Failure Unit := do
  if s.version ≠ 1 then .error (.config ("unsupported config version " ++ toString s.version))
  s.agent.check

/-- The fields that have been read. -/
structure Draft where
  /-- The version. -/
  version : Option Nat
  /-- How the agent works. -/
  agent : Option ReporterSettings

/-- One field. -/
def entry (d : Document) (key : String) (place : Path) (s : Draft) (parts : List Part) :
    Except Trouble (Draft × List Part) := do
  match key with
  | "version" =>
    let (v, rest) ← readOnce key .root s.version (readShortNatural d place) parts
    .ok ({ s with version := v }, rest)
  | "agent" =>
    let (v, rest) ← readOnce key .root s.agent (ReporterSettings.read d place) parts
    .ok ({ s with agent := v }, rest)
  | _ => .error (.wrong .root (.unknownField key ["version", "agent"]))

/-- The settings in a document. -/
def read (d : Document) (parts : List Part) : Except Trouble (AgentSettings × List Part) :=
  readMapping d "struct AgentConfig" .root (Draft.mk none none) (entry d)
    (fun s => match s.version with
      | none => .error (.wrong .root (.missingField "version"))
      | some version => .ok ⟨version, s.agent.getD .standard⟩) parts

/-- The settings in a text. -/
def parse (text : String) : Except Failure AgentSettings :=
  match readDocument read text with
  | .error e => .error (.config e.message)
  | .ok s => s.check.map fun _ => s

end AgentSettings

end Telemetry
