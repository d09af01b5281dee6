import Telemetry.Failure
import Telemetry.Store.FileStore
import Telemetry.Text.Blank
import Telemetry.Yaml.Reader

/-!
# The settings of a collector

Which address to listen on, what requests are checked and opened with, and where the
metrics are kept. All settings but the version have a value of their own if they are
not told; a setting that does not exist is refused, and so is a value that makes no
sense.
-/

namespace Telemetry

open Yaml

/-- Where the metrics are kept. -/
structure StorageSettings where
  /-- The file, if they are kept in one. -/
  filePath : Option String
  /-- The seconds between two snapshots. -/
  storeIntervalSecs : Nat
  /-- Start with what the file holds? -/
  restore : Bool
  /-- The database, if they are kept in one. -/
  databaseDsn : Option String
deriving DecidableEq, Repr

namespace StorageSettings

/-- In memory. -/
def standard : StorageSettings := ⟨none, 300, true, none⟩

/-- The settings for keeping metrics in a file, if they name one. -/
def file (s : StorageSettings) : Option FileSettings :=
  s.filePath.map fun path => ⟨path, 1000 * s.storeIntervalSecs, s.restore⟩

/-- The first of these settings that makes no sense. -/
def check (s : StorageSettings) : Except Failure Unit :=
  if s.databaseDsn.any isBlankText then
    .error (.config "storage.database_dsn must not be empty when set")
  else if s.filePath = some "" then
    .error (.config "storage.file_path must not be empty when set")
  else .ok ()

/-- The fields that have been read. -/
structure Draft where
  /-- The file. -/
  filePath : Option (Option String)
  /-- The interval. -/
  storeIntervalSecs : Option Nat
  /-- Whether to restore. -/
  restore : Option Bool
  /-- The database. -/
  databaseDsn : Option (Option String)

/-- One field. -/
def entry (d : Document) (path : Path) (key : String) (place : Path) (s : Draft)
    (parts : List Part) : Except Trouble (Draft × List Part) := do
  match key with
  | "file_path" =>
    let (v, rest) ← readOnce key path s.filePath (readOptionalText d "path string" path place) parts
    .ok ({ s with filePath := v }, rest)
  | "store_interval_secs" =>
    let (v, rest) ← readOnce key path s.storeIntervalSecs (readNatural d "u64" place) parts
    .ok ({ s with storeIntervalSecs := v }, rest)
  | "restore" =>
    let (v, rest) ← readOnce key path s.restore (readBool d place) parts
    .ok ({ s with restore := v }, rest)
  | "database_dsn" =>
    let (v, rest) ← readOnce key path s.databaseDsn (readOptionalText d "a string" path place) parts
    .ok ({ s with databaseDsn := v }, rest)
  | _ =>
    .error (.wrong path (.unknownField key
      ["file_path", "store_interval_secs", "restore", "database_dsn"]))

/-- These settings in a document. -/
def read (d : Document) (path : Path) (parts : List Part) :
    Except Trouble (StorageSettings × List Part) :=
  readMapping d "struct StorageConfig" path (Draft.mk none none none none) (entry d path)
    (fun s => .ok ⟨s.filePath.getD standard.filePath,
      s.storeIntervalSecs.getD standard.storeIntervalSecs, s.restore.getD standard.restore,
      s.databaseDsn.getD standard.databaseDsn⟩) parts

end StorageSettings

/-- How requests are received. -/
structure ServerSettings where
  /-- The address to listen on. -/
  listen : String
  /-- The shared secret. -/
  signatureKey : Option String
  /-- The file with the private key. -/
  cryptoKey : Option String
deriving DecidableEq, Repr

namespace ServerSettings

/-- On the local host, without secret and key. -/
def standard : ServerSettings := ⟨"127.0.0.1:8080", none, none⟩

/-- The first of these settings that makes no sense. -/
def check (s : ServerSettings) : Except Failure Unit :=
  if isBlankText s.listen then .error (.config "server.listen must not be empty")
  else if s.signatureKey = some "" then
    .error (.config "server.signature_key must not be empty when set")
  else .ok ()

/-- The fields that have been read. -/
structure Draft where
  /-- The address. -/
  listen : Option String
  /-- The secret. -/
  signatureKey : Option (Option String)
  /-- The key. -/
  cryptoKey : Option (Option String)

/-- One field. -/
def entry (d : Document) (path : Path) (key : String) (place : Path) (s : Draft)
    (parts : List Part) : Except Trouble (Draft × List Part) := do
  match key with
  | "listen" =>
    let (v, rest) ← readOnce key path s.listen (readText d "a string" place) parts
    .ok ({ s with listen := v }, rest)
  | "signature_key" =>
    let (v, rest) ← readOnce key path s.signatureKey
      (readOptionalText d "a string" path place) parts
    .ok ({ s with signatureKey := v }, rest)
  | "crypto_key" =>
    let (v, rest) ← readOnce key path s.cryptoKey
      (readOptionalText d "path string" path place) parts
    .ok ({ s with cryptoKey := v }, rest)
  | _ => .error (.wrong path (.unknownField key ["listen", "signature_key", "crypto_key"]))

/-- These settings in a document. -/
def read (d : Document) (path : Path) (parts : List Part) :
    Except Trouble (ServerSettings × List Part) :=
  readMapping d "struct ServerSection" path (Draft.mk none none none) (entry d path)
    (fun s => .ok ⟨s.listen.getD standard.listen, s.signatureKey.getD standard.signatureKey,
      s.cryptoKey.getD standard.cryptoKey⟩) parts

end ServerSettings

/-- The settings of a collector. -/
structure CollectorSettings where
  /-- The version of the settings. -/
  version : Nat
  /-- How requests are received. -/
  server : ServerSettings
  /-- Where the metrics are kept. -/
  storage : StorageSettings
deriving DecidableEq, Repr

namespace CollectorSettings

/-- The first setting that makes no sense. -/
def check (s : CollectorSettings) : Except Failure Unit := do
  if s.version ≠ 1 then .error (.config ("unsupported config version " ++ toString s.version))
  s.server.check
  s.storage.check

/-- The fields that have been read. -/
structure Draft where
  /-- The version. -/
  version : Option Nat
  /-- How requests are received. -/
  server : Option ServerSettings
  /-- Where the metrics are kept. -/
  storage : Option StorageSettings

/-- One field. -/
def entry (d : Document) (key : String) (place : Path) (s : Draft) (parts : List Part) :
    Except Trouble (Draft × List Part) := do
  match key with
  | "version" =>
    let (v, rest) ← readOnce key .root s.version (readShortNatural d place) parts
    .ok ({ s with version := v }, rest)
  | "server" =>
    let (v, rest) ← readOnce key .root s.server (ServerSettings.read d place) parts
    .ok ({ s with server := v }, rest)
  | "storage" =>
    let (v, rest) ← readOnce key .root s.storage (StorageSettings.read d place) parts
    .ok ({ s with storage := v }, rest)
  | _ => .error (.wrong .root (.unknownField key ["version", "server", "storage"]))

/-- The settings in a document. -/
def read (d : Document) (parts : List Part) : Except Trouble (CollectorSettings × List Part) :=
  readMapping d "struct ServerConfig" .root (Draft.mk none none none) (entry d)
    (fun s => match s.version with
      | none => .error (.wrong .root (.missingField "version"))
      | some version =>
        .ok ⟨version, s.server.getD .standard, s.storage.getD .standard⟩) parts

/-- The settings in a text. -/
def parse (text : String) : Except Failure CollectorSettings :=
  match readDocument read text with
  | .error e => .error (.config e.message)
  | .ok s => s.check.map fun _ => s

end CollectorSettings

end Telemetry
