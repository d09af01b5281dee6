import Telemetry.Metric
import Telemetry.Store.Cell
import Telemetry.Store.NameMap

/-!
# Tables of metrics

A database has two tables, one for each kind of metric, each with a name and a value
in every row. A gauge is put into its row; a counter is added to what its row holds,
in an expression that the database itself evaluates and that stops at the ends of
the range.

Statements may fail, and a transaction is a list of statements of which all are
carried out or none. A **breakdown** says where a transaction is cut off from outside,
so that whatever may happen to a connection can be asked about.

* `raised`: the expression that adds to a counter;
* `Database.upsert`, `find`, `rowsOf`: the statements;
* `Database.transact`: a transaction, with or without a breakdown.
-/

namespace Telemetry

/-! ### Faults -/

/-- Why a statement is refused. -/
inductive TableFault where
  /-- There is no table for the kind. -/
  | noTable (kind : Kind)
  /-- A row without a value. -/
  | noValue (kind : Kind)
  /-- The database may only be read. -/
  | readOnly
  /-- The file holds something else. -/
  | notDatabase
  /-- The file cannot be opened. -/
  | cannotOpen
  /-- There is no such way to reach files. -/
  | noReach (name : String)
  /-- The connections have been closed. -/
  | closed
  /-- The connection failed, and it is worth trying again or not. -/
  | broken (retriable : Bool) (why : String)
deriving DecidableEq, Repr

/-- The name of the table for a kind. -/
def tableName : Kind → String
  | .gauge => "gauge_metrics"
  | .counter => "counter_metrics"

namespace TableFault

/-- A fault that the database tells with a number. -/
def numbered (code : Nat) (why : String) : String :=
  "error returned from database: (code: " ++ toString code ++ ") " ++ why

/-- The wording of a fault. -/
def message : TableFault → String
  | .noTable k => numbered 1 ("no such table: " ++ tableName k)
  | .noValue k => numbered 1299 ("NOT NULL constraint failed: " ++ tableName k ++ ".value")
  | .readOnly => numbered 8 "attempt to write a readonly database"
  | .notDatabase => numbered 26 "file is not a database"
  | .cannotOpen => numbered 14 "unable to open database file"
  | .noReach name => numbered 1 ("no such vfs: " ++ name)
  | .closed => "attempted to acquire a connection on a closed pool"
  | .broken _ why => why

/-- Is it worth trying again? A broken rule on the values is counted among what may
pass. -/
def retriable : TableFault → Bool
  | .noValue _ => true
  | .broken r _ => r
  | _ => false

end TableFault

/-! ### Rows -/

/-- The leaning of the column of values. -/
def leaningOf : Kind → Leaning
  | .gauge => .double
  | .counter => .whole

/-- The cell that a value is bound as. What is not a number is bound as nothing. -/
def bound : Value → Option Cell
  | .gauge .nan => none
  | .gauge x => some (.real x)
  | .counter n => some (.integer n)

/-- Rows of names and values; each name stands in one row. -/
abbrev Rows : Type := List (String × Cell)

/-- Rows with one row put in, or changed if its name is there. -/
def upsertIn (id : String) (fresh : Cell) (change : Cell → Cell) : Rows → Rows
  | [] => [(id, fresh)]
  | (i, c) :: rest =>
    if i = id then (i, change c) :: rest else (i, c) :: upsertIn id fresh change rest

/-- The expression that adds to a counter: at the ends of the range it stops, and
both tests are made in a way that stays in the range. -/
def raised (current excluded : Cell) : Cell :=
  let greatest : Cell := .integer Int64.maxValue
  let least : Cell := .integer Int64.minValue
  if (Cell.integer 0).lt excluded && (greatest.sub excluded).lt current then greatest
  else if excluded.lt (.integer 0) && current.lt (least.sub excluded) then least
  else current.add excluded

/-- Rows with a value bound under a name. -/
def upsertRows (kind : Kind) (id : String) (c : Cell) (rows : Rows) : Rows :=
  let stored := (leaningOf kind).store c
  match kind with
  | .gauge => upsertIn id stored (fun _ => stored) rows
  | .counter =>
    upsertIn id stored (fun current => (leaningOf kind).store (raised current stored)) rows

/-! ### Statements -/

/-- A database: the rows of each table that is there. -/
structure Database where
  /-- The gauges. -/
  gauges : Option Rows
  /-- The counters. -/
  counters : Option Rows
deriving DecidableEq, Repr

namespace Database

/-- A database without tables. -/
def blank : Database := ⟨none, none⟩

/-- The rows of a table, if it is there. -/
def table? (db : Database) : Kind → Option Rows
  | .gauge => db.gauges
  | .counter => db.counters

/-- The database with a table set. -/
def setTable (db : Database) (kind : Kind) (rows : Option Rows) : Database :=
  match kind with
  | .gauge => { db with gauges := rows }
  | .counter => { db with counters := rows }

/-- The rows of a table that has to be there. -/
def rowsOf (db : Database) (kind : Kind) : Except TableFault Rows :=
  match db.table? kind with
  | some rows => .ok rows
  | none => .error (.noTable kind)

/-- The value in the row of a name. -/
def find (db : Database) (kind : Kind) (id : String) : Except TableFault (Option Cell) := do
  return lookupIn id (← db.rowsOf kind)

/-- The database with a table made unless it is there. -/
def create (db : Database) (kind : Kind) : Database :=
  match db.table? kind with
  | some _ => db
  | none => db.setTable kind (some [])

/-- The database with a table dropped. -/
def drop (db : Database) (kind : Kind) : Database := db.setTable kind none

/-- The database with a metric put or added into its row. -/
def upsert (db : Database) (m : Metric) : Except TableFault Database := do
  let rows ← db.rowsOf m.kind
  match bound m.value with
  | none => .error (.noValue m.kind)
  | some c => .ok (db.setTable m.kind (some (upsertRows m.kind m.name c rows)))

/-- The database with a text put into the row of a name in place of what is there,
the row being the last one then. -/
def replaceText (db : Database) (kind : Kind) (id text : String) : Except TableFault Database := do
  let rows ← db.rowsOf kind
  .ok (db.setTable kind
    (some (rows.filter (·.1 != id) ++ [(id, (leaningOf kind).store (.text text))])))

/-! ### Transactions -/

end Database

/-- Where a transaction is cut off. -/
inductive Moment where
  /-- When it begins. -/
  | opening
  /-- In front of a statement, counted from zero. -/
  | statement (n : Nat)
  /-- When it is to be made final. -/
  | closing
deriving DecidableEq, Repr

/-- A failure from outside, at some point of a transaction. -/
structure Breakdown where
  /-- The point. -/
  moment : Moment
  /-- The failure. -/
  fault : TableFault
deriving DecidableEq, Repr

/-- Does the transaction stop here? -/
def stopAt (breakdown : Option Breakdown) (moment : Moment) : Except TableFault Unit :=
  match breakdown with
  | some b => if b.moment = moment then .error b.fault else .ok ()
  | none => .ok ()

namespace Database

/-- Metrics put or added into their rows one after the other, as the statements of a
transaction from the `n`-th on. -/
def statements (breakdown : Option Breakdown) (n : Nat) : List Metric → Database →
    Except TableFault Database
  | [], db => .ok db
  | m :: ms, db => do
    stopAt breakdown (.statement n)
    statements breakdown (n + 1) ms (← db.upsert m)

/-- A transaction: all of the statements, or a fault and nothing at all. -/
def transact (breakdown : Option Breakdown) (ms : List Metric) (db : Database) :
    Except TableFault Unit × Database :=
  let final : Except TableFault Database := do
    stopAt breakdown .opening
    let next ← statements breakdown 0 ms db
    stopAt breakdown .closing
    return next
  match final with
  | .ok next => (.ok (), next)
  | .error e => (.error e, db)

end Database

/-! ### Small laws -/

/-- An insertion or change shows in the row of its name and in no other. -/
theorem lookupIn_upsertIn (id other : String) (fresh : Cell) (change : Cell → Cell) (rows : Rows) :
    lookupIn other (upsertIn id fresh change rows) =
      if other = id then some ((lookupIn id rows).elim fresh change) else lookupIn other rows := by
  induction rows with
  | nil => rfl
  | cons row rest ih =>
    obtain ⟨i, c⟩ := row
    unfold upsertIn
    by_cases hi : i = id
    · subst hi
      by_cases ho : other = i <;> simp [lookupIn, ho]
    · rw [if_neg hi]
      by_cases ho : other = i
      · subst ho
        simp [lookupIn, hi]
      · simp only [lookupIn, if_neg ho, ih]
        by_cases hoi : other = id
        · subst hoi
          simp [ho]
        · simp [hoi]

/-- A transaction that fails changes nothing. -/
theorem Database.transact_error {breakdown : Option Breakdown} {ms : List Metric} {db : Database}
    {e : TableFault} (h : (db.transact breakdown ms).1 = .error e) :
    (db.transact breakdown ms).2 = db := by
  unfold transact at h ⊢
  dsimp only at h ⊢
  split
  · rename_i heq
    rw [heq] at h
    cases h
  · rfl

end Telemetry
