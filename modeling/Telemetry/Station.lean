import Telemetry.Store.Backend

/-!
# A machine with stores on it

A station has a disk, a clock and any number of stores under names. Working with a
store takes no time but for the pauses between its attempts. When time passes, the
stores that make snapshots at intervals make them, each at its own times.

* `Station.place`: a store put under a name;
* `Station.work`: an operation on the store of a name;
* `Station.wait`: time passing.
-/

namespace Telemetry

/-- A machine with stores on it. -/
structure Station where
  /-- The disk. -/
  disk : Disk
  /-- The time, in milliseconds. -/
  clock : Nat
  /-- The stores. -/
  stores : NameMap Backend

namespace Station

/-- A machine with nothing on it. -/
def blank (disk : Disk) : Station := ⟨disk, 0, .empty⟩

/-! ### Time -/

/-- The lesser of two times, of which either may be missing. -/
def earlier : Option Nat → Option Nat → Option Nat
  | some a, some b => some (min a b)
  | some a, none => some a
  | none, t => t

/-- When the next snapshot of any store is due. -/
def nextTick (s : Station) : Option Nat :=
  s.stores.entries.foldl (fun t p => match p.2 with
    | .file f => earlier t (f.nextTick s.clock)
    | _ => t) none

/-- The station at a time at which snapshots are due. -/
def tickAt (s : Station) (time : Nat) : Station :=
  { s with
    clock := time
    disk := s.stores.entries.foldl (fun d p => match p.2 with
      | .file f => f.tick time d
      | _ => d) s.disk }

/-- The station at a later time, all snapshots until then having been made. -/
def waitUntil (s : Station) (time : Nat) : Station :=
  match s.nextTick with
  | some t =>
    if t ≤ time ∧ s.clock < t then (s.tickAt t).waitUntil time else { s with clock := time }
  | none => { s with clock := time }
termination_by time - s.clock
decreasing_by
  simp only [tickAt]
  omega

/-- The station some milliseconds later. -/
def wait (s : Station) (duration : Nat) : Station := s.waitUntil (s.clock + duration)

/-! ### Stores -/

/-- The outcome of opening a store, which takes the place of what its name stood for.
Where it fails, the name stands for nothing. -/
def place (s : Station) (name : String) (opened : Except Failure Backend × Disk) :
    Except Failure Backend × Station :=
  match opened with
  | (.ok b, d) => (.ok b, { s with disk := d, stores := s.stores.insert name b })
  | (.error e, d) => (.error e, { s with disk := d, stores := s.stores.erase name })

/-- The station without a store, which is not stopped first. -/
def drop (s : Station) (name : String) : Station := { s with stores := s.stores.erase name }

/-- An operation on the store of a name, if there is one. -/
def work {α : Type} (s : Station) (name : String) (operation : Site → α × Site) :
    Option (α × Station) :=
  (s.stores.lookup name).map fun b =>
    match operation ⟨b, s.disk, 0⟩ with
    | (a, site) =>
      let s := { s with disk := site.disk, stores := s.stores.insert name site.backend }
      (a, s.wait site.waited)

end Station

end Telemetry
