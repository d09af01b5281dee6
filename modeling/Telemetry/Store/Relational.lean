import Telemetry.Backoff
import Telemetry.Failure
import Telemetry.Store.DatabaseSource
import Telemetry.Store.Disk

/-!
# Metrics in a database

Every operation is one statement or one transaction and is tried again on the
schedule of the store, for failures that may pass. A batch is one transaction, its
gauges and its counters each taken together in the order of the batch, so that it
takes effect as a whole or not at all, however often it is tried.

* `Relational.openAt`: opening, which makes the tables;
* `Relational.update`, `batchUpdate`, `get`, `list`, `stop`, `isHealthy`;
* `Relational.batchUpdateUnder`: the batch with a breakdown for each attempt.
-/

namespace Telemetry

/-- Where the tables of a store are. -/
inductive Tablespace where
  /-- In a file, where others reach them too. -/
  | file (place : Place)
  /-- In memory. -/
  | own (db : Database)
deriving DecidableEq

/-- Metrics in a database. -/
structure Relational where
  /-- Where its tables are. -/
  tables : Tablespace
  /-- May they only be read? -/
  readOnly : Bool
  /-- The pauses between attempts. -/
  backoff : Backoff
  /-- Has it been stopped? -/
  isClosed : Bool
deriving DecidableEq

namespace Relational

/-! ### Reaching the tables -/

/-- The database of a store. An empty file is one without tables. -/
def database (s : Relational) (d : Disk) : Except TableFault Database :=
  if s.isClosed then .error .closed
  else match s.tables with
    | .own db => .ok db
    | .file p =>
      match d.at? p with
      | some (.database db) => .ok db
      | some (.file []) => .ok .blank
      | some (.file _) => .error .notDatabase
      | some .directory => .error .cannotOpen
      | none => .ok .blank

/-- The store and the disk with the database changed. -/
def save (s : Relational) (db : Database) (d : Disk) : Relational × Disk :=
  match s.tables with
  | .own _ => ({ s with tables := .own db }, d)
  | .file p => (s, d.set p (.database db))

/-- A statement that changes the database. The tables that it names have to be there
before anything else is looked at. -/
def change (s : Relational) (kinds : List Kind)
    (f : Database → Except TableFault Unit × Database) (d : Disk) :
    Except TableFault Unit × Relational × Disk :=
  match s.database d with
  | .error e => (.error e, s, d)
  | .ok db =>
    match kinds.find? fun k => (db.table? k).isNone with
    | some k => (.error (.noTable k), s, d)
    | none =>
      if s.readOnly then (.error .readOnly, s, d)
      else match f db with
        | (result, db) => (result, s.save db d)

/-- Attempts on the schedule of the store. The failure names the operation. -/
def call {σ α : Type} (s : Relational) (what : String)
    (attempt : σ → Except TableFault α × σ) (state : σ) : Except Failure α × σ × Nat :=
  let run := s.backoff.run TableFault.retriable attempt (fun _ x => x) state
  let result := match run.result with
    | .ok a => .ok a
    | .error e => .error (.storage (what ++ ": " ++ e.message TableFault.message))
  (result, run.state, run.waited)

/-! ### Opening -/

/-- The ways to reach files that there are. -/
def knownReaches : List String := ["unix", "unix-none", "unix-dotfile", "unix-excl"]

/-- The place that a path of a database leads to. Names that lead upward take back the
one in front of them, whether or not it is there. -/
def placeOf (d : Disk) (path : String) : Place :=
  (pathNames path).foldl
    (fun p name => if name = "." then p else if name = ".." then p.dropLast else p ++ [name])
    (if path.toList.head? = some '/' then [] else d.home)

/-- A file to keep tables in, which is made if it is missing. -/
def reachFile (source : DatabaseSource) (d : Disk) : Except TableFault (Place × Disk) :=
  let p := placeOf d source.path
  match d.at? p with
  | some .directory => .error .cannotOpen
  | some _ => .ok (p, d)
  | none =>
    match d.at? p.dropLast with
    | some .directory =>
      if source.readOnly || p.any fun name => 255 < name.utf8ByteSize then .error .cannotOpen
      else .ok (p, d.set p (.file []))
    | _ => .error .cannotOpen

/-- The connection to a source. -/
def connect (source : DatabaseSource) (backoff : Backoff) (d : Disk) :
    Except TableFault (Relational × Disk) := do
  let readOnly := source.readOnly || source.immutable
  match source.reach with
  | some "memdb" => .ok (⟨.own .blank, readOnly, backoff, false⟩, d)
  | reach =>
    if reach.any fun name => !knownReaches.contains name then
      .error (.noReach (reach.getD ""))
    else if source.inMemory then .ok (⟨.own .blank, readOnly, backoff, false⟩, d)
    else do
      let (p, d) ← reachFile source d
      .ok (⟨.file p, readOnly, backoff, false⟩, d)

/-- The statement that makes a table unless it is there. -/
def createTable (kind : Kind) (at' : Relational × Disk) :
    Except TableFault Unit × Relational × Disk :=
  match at'.1.database at'.2 with
  | .error e => (.error e, at')
  | .ok db =>
    if (db.table? kind).isSome then (.ok (), at')
    else at'.1.change [] (fun db => (.ok (), db.create kind)) at'.2

/-- The store with all of its tables made. -/
def createTables (s : Relational) (d : Disk) : Except Failure Unit × Relational × Disk :=
  Kind.all.foldl
    (fun (result, at') kind =>
      match result with
      | .error e => (.error e, at')
      | .ok () =>
        match s.call "create tables" (createTable kind) at' with
        | (.ok (), at', _) => (.ok (), at')
        | (.error e, at', _) => (.error (.config e.message), at'))
    (.ok (), s, d)

/-- A store on the database that a text tells. -/
def openAt (dsn : String) (backoff : Backoff) (d : Disk) : Except Failure Relational × Disk :=
  match DatabaseSource.parse? dsn with
  | none => (.error (.config "invalid database dsn"), d)
  | some source =>
    if source.path.toList.contains '\x00' then
      (.error (.config ("database connection failed: error communicating with database: " ++
        "filename passed to SQLite must not contain nul bytes")), d)
    else match connect source backoff d with
      | .error e => (.error (.config ("database connection failed: " ++ e.message)), d)
      | .ok (s, d) =>
        match createTables s d with
        | (.ok (), s, d) => (.ok s, d)
        | (.error e, _, d) => (.error e, d)

/-! ### Changing metrics -/

/-- The metrics of a batch, each kind taken together, the kind of the first metric
first. -/
def grouped (ms : List Metric) : List Metric :=
  match ms with
  | [] => []
  | m :: _ => ms.filter (·.kind == m.kind) ++ ms.filter (·.kind != m.kind)

/-- A metric put or added into its row. -/
def update (s : Relational) (m : Metric) (d : Disk) :
    Except Failure Unit × (Relational × Disk) × Nat :=
  s.call "update" (fun at' : Relational × Disk => at'.1.change [m.kind] (fun db =>
    match db.upsert m with
    | .ok db => (.ok (), db)
    | .error e => (.error e, db)) at'.2) (s, d)

/-- One attempt at a batch: a transaction, cut off by a breakdown if there is one. A store
that may only be read refuses the first statement. -/
def attemptBatch (ms : List Metric) (breakdown : Option Breakdown) (s : Relational) (d : Disk) :
    Except TableFault Unit × Relational × Disk :=
  match s.database d with
  | .error e => (.error e, s, d)
  | .ok db =>
    if s.readOnly then
      match stopAt breakdown .opening, stopAt breakdown (.statement 0) with
      | .error e, _ | .ok (), .error e => (.error e, s, d)
      | .ok (), .ok () =>
        s.change ((grouped ms).head?.toList.map Metric.kind) (fun db => (.ok (), db)) d
    else match db.transact breakdown (grouped ms) with
      | (.error e, _) => (.error e, s, d)
      | (.ok (), db) => (.ok (), s.save db d)

/-- The next attempt at a batch, behind some number of them: the `n`-th one is cut off by the
`n`-th breakdown. -/
def nextAttempt (breakdown : Nat → Option Breakdown) (ms : List Metric)
    (x : (Relational × Disk) × Nat) : Except TableFault Unit × (Relational × Disk) × Nat :=
  let (result, at') := x.1.1.attemptBatch ms (breakdown x.2) x.1.2
  (result, at', x.2 + 1)

/-- A batch, each metric put or added into its row, or none, whatever breakdowns cut off the
attempts at it. A failure of the transaction is tried again like any other one. -/
def batchUpdateUnder (breakdown : Nat → Option Breakdown) (s : Relational) (ms : List Metric)
    (d : Disk) : Except Failure Unit × (Relational × Disk) × Nat :=
  if ms.isEmpty then (.ok (), (s, d), 0)
  else
    match s.call "batch update" (nextAttempt breakdown ms) ((s, d), 0) with
    | (result, (at', _), slept) => (result, at', slept)

/-- A batch where nothing breaks down. -/
def batchUpdate (s : Relational) (ms : List Metric) (d : Disk) :
    Except Failure Unit × (Relational × Disk) × Nat :=
  s.batchUpdateUnder (fun _ => none) ms d

/-! ### Reading metrics -/

/-- A cell of the wrong type. -/
def mismatch (kind : Kind) (found : String) : Failure :=
  let wanted := match kind with
    | .gauge => "Rust type `f64` (as SQL type `REAL`)"
    | .counter => "Rust type `i64` (as SQL type `INTEGER`)"
  .storage ("decode " ++ kind.tag ++
    " row: error occurred while decoding column 1: mismatched types; " ++
    wanted ++ " is not compatible with SQL type `" ++ found ++ "`")

/-- The value in a cell. -/
def decodeCell (kind : Kind) (c : Cell) : Except Failure Value :=
  match kind, c with
  | .gauge, .real x => .ok (.gauge x)
  | .counter, .integer n => .ok (.counter n)
  | .gauge, .integer _ => .error (mismatch kind "INTEGER")
  | .counter, .real _ => .error (mismatch kind "REAL")
  | _, .text _ => .error (mismatch kind "TEXT")

/-- The metric in a row. -/
def decodeRow (kind : Kind) (row : String × Cell) : Except Failure Metric := do
  Metric.make row.1 kind (← decodeCell kind row.2)

/-- The stored metric of a kind and a name. -/
def get (s : Relational) (kind : Kind) (name : String) (d : Disk) : Except Failure Metric × Nat :=
  match s.call "get" (fun d => ((s.database d).bind (·.find kind name), d)) d with
  | (.error e, _, slept) => (.error e, slept)
  | (.ok none, _, slept) => (.error (.unknownMetric kind.tag name), slept)
  | (.ok (some c), _, slept) => (decodeRow kind (name, c), slept)

/-- The stored metrics of one kind. -/
def listKind (s : Relational) (d : Disk) (kind : Kind) : Except Failure (List Metric) := do
  let rows ← (s.call "list" (fun d => ((s.database d).bind (·.rowsOf kind), d)) d).1
  rows.mapM (decodeRow kind)

/-- The stored metrics, gauges first. -/
def list (s : Relational) (d : Disk) : Except Failure (List Metric) := do
  let gauges ← s.listKind d .gauge
  let counters ← s.listKind d .counter
  return gauges ++ counters

/-- Does the database answer? -/
def isHealthy (s : Relational) : Bool := !s.isClosed

/-- The store with its connections closed. -/
def stop (s : Relational) : Relational := { s with isClosed := true }

end Relational

end Telemetry
