import Telemetry.Settings.Collector
import Telemetry.Store.Relational

/-!
# Where a collector keeps metrics

In memory, in memory and in a file, or in a database: which of them is chosen once,
from the settings, a database before a file before neither. From then on they are
worked with alike.

A **site** is a backend, the disk under it and the time spent on pauses between
attempts.
-/

namespace Telemetry

/-- Where metrics are kept. -/
inductive Backend where
  /-- In memory. -/
  | memory (store : Memory)
  /-- In memory and in a file. -/
  | file (store : FileStore)
  /-- In a database. -/
  | relational (store : Relational)

namespace Backend

/-- The word for a kind of backend. -/
def name : Backend → String
  | .memory _ => "memory"
  | .file _ => "file"
  | .relational _ => "relational"

/-- Does the database answer? Where there is none, it does not. -/
def isHealthy : Backend → Bool
  | .relational s => s.isHealthy
  | _ => false

/-- The backend that settings choose, opened at some time. -/
def openAt (settings : StorageSettings) (time : Nat) (d : Disk) : Except Failure Backend × Disk :=
  match settings.databaseDsn, settings.file with
  | some dsn, _ =>
    match Relational.openAt dsn .standard d with
    | (result, d) => (result.map .relational, d)
  | none, some snapshots =>
    match FileStore.openAt snapshots time d with
    | (result, d) => (result.map .file, d)
  | none, none => (.ok (.memory .empty), d)

end Backend

/-- A backend, the disk under it and the time spent waiting. -/
structure Site where
  /-- The backend. -/
  backend : Backend
  /-- The disk. -/
  disk : Disk
  /-- The milliseconds spent on pauses between attempts. -/
  waited : Nat

namespace Site

/-- Metrics applied in order. -/
def batchUpdate (s : Site) (ms : List Metric) : Except Failure Unit × Site :=
  match s.backend with
  | .memory m => (.ok (), { s with backend := .memory (m.applyAll ms) })
  | .file f =>
    match f.batchUpdate ms s.disk with
    | (result, f, d) => (result, { s with backend := .file f, disk := d })
  | .relational r =>
    match r.batchUpdate ms s.disk with
    | (result, (r, d), slept) => (result, ⟨.relational r, d, s.waited + slept⟩)

/-- A metric applied. -/
def update (s : Site) (m : Metric) : Except Failure Unit × Site :=
  match s.backend with
  | .memory store => (.ok (), { s with backend := .memory (store.apply m) })
  | .file f =>
    match f.update m s.disk with
    | (result, f, d) => (result, { s with backend := .file f, disk := d })
  | .relational r =>
    match r.update m s.disk with
    | (result, (r, d), slept) => (result, ⟨.relational r, d, s.waited + slept⟩)

/-- The stored metric of a kind and a name. -/
def get (s : Site) (kind : Kind) (name : String) : Except Failure Metric :=
  match s.backend with
  | .memory m => m.lookup kind name
  | .file f => f.memory.lookup kind name
  | .relational r => (r.get kind name s.disk).1

/-- All stored metrics, gauges first. -/
def list (s : Site) : Except Failure (List Metric) :=
  match s.backend with
  | .memory m => .ok m.snapshot
  | .file f => .ok f.memory.snapshot
  | .relational r => r.list s.disk

/-- The end of what the backend does on its own. -/
def stop (s : Site) : Except Failure Unit × Site :=
  match s.backend with
  | .memory _ => (.ok (), s)
  | .file f =>
    match f.stop s.disk with
    | (result, f, d) => (result, { s with backend := .file f, disk := d })
  | .relational r => (.ok (), { s with backend := .relational r.stop })

end Site

end Telemetry
