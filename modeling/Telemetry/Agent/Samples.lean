import Telemetry.Store.Memory

/-!
# What an agent has gathered

Between two reports an agent keeps the last value of every gauge and what every
counter has counted. Taking a snapshot for a report drains the counters, for the
collector will add them up; if the report does not get through, they are put back
on top of what has been counted meanwhile.
-/

namespace Telemetry

/-- Gauges, and counters since the last snapshot. -/
abbrev Samples : Type := Memory

namespace Samples

/-- The samples with a gauge set. -/
def setGauge (s : Samples) (name : String) (x : Binary64) : Samples := s.write name (.gauge x)

/-- The samples with gauges set in order. -/
def setGauges (s : Samples) (values : List (String × Binary64)) : Samples :=
  values.foldl (fun s p => s.setGauge p.1 p.2) s

/-- The samples with a counter counted on. -/
def addCounter (s : Samples) (name : String) (d : Int64) : Samples := s.write name (.counter d)

/-- A gauge. -/
def gauge (s : Samples) (name : String) : Option Binary64 := s.gauges.lookup name

/-- What a counter has counted. -/
def counter (s : Samples) (name : String) : Option Int64 := s.counters.lookup name

/-- The batch for a report, and the samples without the counters. -/
def takeSnapshot (s : Samples) : List Metric × Samples :=
  (s.snapshot, { s with counters := .empty })

/-- The samples with the counters of an undelivered batch put back. -/
def restoreCounters (s : Samples) (batch : List Metric) : Samples :=
  batch.foldl (fun s m => match m.value with
    | .counter d => s.addCounter m.name d
    | .gauge _ => s) s

end Samples

end Telemetry
