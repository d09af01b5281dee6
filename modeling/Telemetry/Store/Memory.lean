import Telemetry.Metric
import Telemetry.Store.NameMap

/-!
# Metrics in memory

Two maps, one for each kind, so that a gauge and a counter of one name do not touch
each other. Applying a gauge overwrites its value, applying a counter adds to its
total. Everything a collector keeps, and what an agent has gathered, is such a pair
of maps.
-/

namespace Telemetry

/-- The values of gauges and the totals of counters. -/
structure Memory where
  /-- The gauges. -/
  gauges : NameMap Binary64
  /-- The counters. -/
  counters : NameMap Int64
deriving DecidableEq

namespace Memory

/-- Nothing stored. -/
def empty : Memory := ⟨.empty, .empty⟩

/-- The maps with a named value applied. -/
def write (s : Memory) (name : String) : Value → Memory
  | .gauge x => { s with gauges := s.gauges.insert name x }
  | .counter d =>
    { s with counters := s.counters.modify name fun total => addClamped (total.getD 0) d }

/-- The maps with a metric applied. -/
def apply (s : Memory) (m : Metric) : Memory := s.write m.name m.value

/-- The maps with metrics applied in order. -/
def applyAll (s : Memory) (ms : List Metric) : Memory := ms.foldl apply s

/-- The stored value of a kind and a name. -/
def value? (s : Memory) : Kind → String → Option Value
  | .gauge, name => (s.gauges.lookup name).map .gauge
  | .counter, name => (s.counters.lookup name).map .counter

/-- The stored metric of a kind and a name. -/
def lookup (s : Memory) (kind : Kind) (name : String) : Except Failure Metric :=
  match s.value? kind name with
  | some v => Metric.make name kind v
  | none => .error (.unknownMetric kind.tag name)

/-- The metrics of entries. An entry without a name is none. -/
def metricsOf {α : Type} (value : α → Value) (entries : List (String × α)) : List Metric :=
  entries.filterMap fun p => (Metric.make p.1 (value p.2).kind (value p.2)).toOption

/-- All stored metrics, gauges first, each kind by name. -/
def snapshot (s : Memory) : List Metric :=
  metricsOf .gauge s.gauges.entries ++ metricsOf .counter s.counters.entries

/-- How many entries there are. -/
def size (s : Memory) : Nat := s.gauges.size + s.counters.size

/-- No entries? -/
def isEmpty (s : Memory) : Bool := s.size == 0

/-- The maps that a list of metrics describes: of several metrics of one kind and
name the last one counts, and a counter is a total. -/
def ofMetrics (ms : List Metric) : Memory :=
  ms.foldl (fun s m => match m.value with
    | .gauge x => { s with gauges := s.gauges.insert m.name x }
    | .counter n => { s with counters := s.counters.insert m.name n }) empty

/-- What is stored under a kind is of that kind. -/
theorem kind_of_value? {s : Memory} {kind : Kind} {name : String} {v : Value}
    (h : s.value? kind name = some v) : v.kind = kind := by
  cases kind <;>
  · obtain ⟨a, -, rfl⟩ := Option.map_eq_some_iff.1 h
    rfl

/-- So it is found as it is stored: nothing has to be brought to another kind. -/
theorem lookup_eq (s : Memory) (kind : Kind) (name : String) :
    s.lookup kind name = match s.value? kind name with
      | some v => Metric.ofValue name v
      | none => .error (.unknownMetric kind.tag name) := by
  rw [lookup]
  cases h : s.value? kind name with
  | none => rfl
  | some v => exact Metric.make_of_kind (kind_of_value? h)

/-- And it is listed as it is stored. -/
theorem metricsOf_eq {α : Type} (value : α → Value) (entries : List (String × α)) :
    metricsOf value entries =
      entries.filterMap fun p => (Metric.ofValue p.1 (value p.2)).toOption := by
  simp only [metricsOf, Metric.make_of_kind]

@[simp] theorem applyAll_nil (s : Memory) : s.applyAll [] = s := rfl

@[simp] theorem applyAll_cons (s : Memory) (m : Metric) (ms : List Metric) :
    s.applyAll (m :: ms) = (s.apply m).applyAll ms := rfl

/-- Batches applied one after the other are one batch. -/
theorem applyAll_append (s : Memory) (ms ns : List Metric) :
    s.applyAll (ms ++ ns) = (s.applyAll ms).applyAll ns := List.foldl_append

end Memory

end Telemetry
