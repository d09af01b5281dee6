import Telemetry.Record
import Telemetry.Store.Disk
import Telemetry.Store.Memory

/-!
# Metrics in memory and in a file

The metrics are kept in memory, and now and then the whole of them is written to a
file: behind every change, or at fixed intervals. A **snapshot** is made in four
steps, each of which is a function here:

1. the maps are copied (`Memory.snapshot`),
2. the copy is put into words (`encodeRecords`),
3. the words are written to a file beside the one meant (`writeBeside`),
4. that file takes the place of the one meant (`replace`).

Only the last step touches the file meant, and it is one operation of the disk; so
whoever reads the file finds one snapshot or the other and never a part of one.

* `FileStore.openAt`: opening, with what the file holds or without;
* `FileStore.sync`: the four steps;
* `FileStore.update`, `batchUpdate`, `stop`;
* `FileStore.nextTick`: when the next snapshot is due.
-/

namespace Telemetry

/-- How to keep metrics in a file. -/
structure FileSettings where
  /-- The file. -/
  path : String
  /-- The milliseconds between two snapshots; zero for one behind every change. -/
  interval : Nat
  /-- Start with what the file holds? -/
  restore : Bool
deriving DecidableEq, Repr

/-- Metrics in memory and in a file. -/
structure FileStore where
  /-- The file. -/
  path : String
  /-- The metrics. -/
  memory : Memory
  /-- The milliseconds between two snapshots; zero for one behind every change. -/
  interval : Nat
  /-- When the store was opened. -/
  opened : Nat
  /-- Are snapshots being made at intervals? -/
  ticking : Bool

namespace FileStore

/-! ### Snapshots -/

/-- The file beside the one meant. -/
def besidePath (path : String) : String := path ++ ".tmp"

/-- The words for a copy of the metrics. -/
def words (m : Memory) : Octets := encodeRecords m.snapshot

/-- The disk with words written beside the file meant. -/
def writeBeside (path : String) (content : Octets) (d : Disk) : Except DiskFault Disk :=
  d.write (besidePath path) content

/-- The disk with the words beside the file meant in its place. -/
def replace (path : String) (d : Disk) : Except DiskFault Disk := d.rename (besidePath path) path

/-- A snapshot that could not be written. -/
def unwritten (path : String) (e : DiskFault) : Failure :=
  .storage ("write snapshot " ++ path ++ " failed: " ++ e.message)

/-- A snapshot. What was written beside the file stays there if it cannot take its
place. -/
def sync (s : FileStore) (d : Disk) : Except Failure Unit × Disk :=
  match writeBeside s.path (words s.memory) d with
  | .error e => (.error (unwritten s.path e), d)
  | .ok d =>
    match replace s.path d with
    | .error e => (.error (unwritten s.path e), d)
    | .ok d => (.ok (), d)

/-! ### Opening -/

/-- What the contents of a file restore: all of the metrics in it, or nothing if they
cannot be read. -/
def restored (content : Octets) : Memory :=
  match decodeRecords content with
  | .ok ms => .ofMetrics ms
  | .error _ => .empty

/-- What a path restores. A file that is missing or cannot be read restores nothing. -/
def restoredAt (path : String) (d : Disk) : Memory :=
  match d.read path with
  | .ok content => restored content
  | .error _ => .empty

/-- The directory of a path made, if the path names one. -/
def makeParent (path : String) (d : Disk) : Except Failure Unit × Disk :=
  match parentPath path with
  | none | some "" => (.ok (), d)
  | some parent =>
    match d.makeDirectories parent with
    | (.ok (), d) => (.ok (), d)
    | (.error e, d) => (.error (.config ("create dir " ++ parent ++ " failed: " ++ e.message)), d)

/-- A store opened at some time. -/
def openAt (settings : FileSettings) (time : Nat) (d : Disk) : Except Failure FileStore × Disk :=
  match makeParent settings.path d with
  | (.error e, d) => (.error e, d)
  | (.ok (), d) =>
    let memory := if settings.restore then restoredAt settings.path d else .empty
    (.ok ⟨settings.path, memory, settings.interval, time, settings.interval ≠ 0⟩, d)

/-! ### Changing metrics -/

/-- Is a snapshot made behind every change? -/
def writesThrough (s : FileStore) : Bool := s.interval == 0

/-- The snapshot behind a change, if there is to be one. -/
def afterChange (s : FileStore) (d : Disk) : Except Failure Unit × FileStore × Disk :=
  if s.writesThrough then
    match s.sync d with
    | (result, d) => (result, s, d)
  else (.ok (), s, d)

/-- Metrics applied in order, and one snapshot behind them all. A snapshot that fails
does not take them back. -/
def batchUpdate (s : FileStore) (ms : List Metric) (d : Disk) :
    Except Failure Unit × FileStore × Disk :=
  { s with memory := s.memory.applyAll ms }.afterChange d

/-- A metric applied. -/
def update (s : FileStore) (m : Metric) (d : Disk) : Except Failure Unit × FileStore × Disk :=
  s.batchUpdate [m] d

/-! ### Time -/

/-- When the next snapshot behind some time is due: a whole number of intervals from
when the store was opened. -/
def nextTick (s : FileStore) (now : Nat) : Option Nat :=
  if s.ticking && s.interval != 0 then
    some (s.opened + ((now - s.opened) / s.interval + 1) * s.interval)
  else none

/-- The disk with the snapshot of some time made. One that fails is left out. -/
def tick (s : FileStore) (time : Nat) (d : Disk) : Disk :=
  match time with
  | 0 => d
  | time + 1 => if s.nextTick time = some (time + 1) then (s.sync d).2 else d

/-- The end of the snapshots at intervals, with a last one behind them. Where there
are none, or no more, nothing happens. -/
def stop (s : FileStore) (d : Disk) : Except Failure Unit × FileStore × Disk :=
  if s.ticking then
    match s.sync d with
    | (result, d) => (result, { s with ticking := false }, d)
  else (.ok (), s, d)

/-! ### Small laws -/

/-- The next snapshot lies ahead. -/
theorem lt_nextTick {s : FileStore} {now t : Nat} (h : s.nextTick now = some t) : now < t := by
  unfold nextTick at h
  split at h
  · rename_i hi
    have hpos : 0 < s.interval := by
      rcases Nat.eq_zero_or_pos s.interval with h0 | h0
      · simp [h0] at hi
      · exact h0
    have hlt : now - s.opened < ((now - s.opened) / s.interval + 1) * s.interval :=
      Nat.lt_mul_of_div_lt (Nat.lt_succ_self _) hpos
    cases h
    omega
  · cases h

/-- A snapshot leaves the metrics in memory and the schedule alone. -/
theorem afterChange_store (s : FileStore) (d : Disk) : (s.afterChange d).2.1 = s := by
  unfold afterChange
  split <;> rfl

/-- A change is in memory whether or not a snapshot of it can be made. -/
theorem batchUpdate_memory (s : FileStore) (ms : List Metric) (d : Disk) :
    (s.batchUpdate ms d).2.1.memory = s.memory.applyAll ms := by
  unfold batchUpdate
  rw [afterChange_store]

end FileStore

end Telemetry
