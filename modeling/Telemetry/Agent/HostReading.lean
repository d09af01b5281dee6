import Telemetry.Number.Binary64

/-!
# What an agent reads off its machine

At every poll: the memory of the machine, how busy each of its processors is, the
memory of the agent itself where that can be told, and a random number. Each becomes a
gauge; amounts of memory are widened to doubles.
-/

namespace Telemetry

/-- The memory of a process, in octets. -/
structure ProcessReading where
  /-- What it has in memory. -/
  resident : Nat
  /-- What it has asked for. -/
  virtual : Nat
deriving DecidableEq, Repr

/-- What is read off a machine at one poll. -/
structure HostReading where
  /-- The memory there is, in octets. -/
  totalMemory : Nat
  /-- The memory that is free. -/
  freeMemory : Nat
  /-- The memory that is in use. -/
  usedMemory : Nat
  /-- How busy each processor is, in per cent. -/
  processors : List Binary64
  /-- The memory of the agent. -/
  process : Option ProcessReading
  /-- A random number between zero and one. -/
  random : Binary64

namespace HostReading

/-- The name of the gauge for a processor. -/
def processorName (n : Nat) : String := "CPUutilization" ++ toString n

/-- The gauges for a reading. -/
def gauges (r : HostReading) : List (String × Binary64) :=
  [("TotalMemory", .ofNat r.totalMemory), ("FreeMemory", .ofNat r.freeMemory),
    ("UsedMemory", .ofNat r.usedMemory)] ++
  (r.processors.zipIdx.map fun p => (processorName p.2, p.1)) ++
  (r.process.toList.flatMap fun p =>
    [("ProcessResidentMemory", .ofNat p.resident), ("ProcessVirtualMemory", .ofNat p.virtual)]) ++
  [("RandomValue", r.random)]

end HostReading

end Telemetry
