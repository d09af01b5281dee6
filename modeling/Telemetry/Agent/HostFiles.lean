import Telemetry.Agent.HostReading
import Telemetry.Number.Reading
import Telemetry.Text.Blank
import Telemetry.Text.Split

/-!
# What a machine tells of itself in files

A machine shows how it is doing in files of numbers: how much memory it has, in lines
of a name, a colon and an amount in units of 1024 octets; how long each processor has
spent on what, in lines of a name and times, of which the fourth and the fifth were
spent idle; and how much memory a process has, in pages. Reading them gives a
`HostReading`. What a file does not tell counts as nothing.
-/

namespace Telemetry

/-- The contents of the files. -/
structure HostFiles where
  /-- The memory of the machine. -/
  memory : String
  /-- The times of its processors. -/
  processors : String
  /-- The memory of the agent, if that can be told. -/
  process : Option String
deriving DecidableEq, Repr

namespace HostFiles

/-- The words of a line. -/
def words (line : List Char) : List (List Char) :=
  (cutAt isBlank line).filter fun word => !word.isEmpty

/-- The lines of a file, as words. -/
def table (file : String) : List (List (List Char)) := (cutAt (· == '\n') file.toList).map words

/-- The numbers of a line, words that are none counting as zero. -/
def numbers (line : List (List Char)) : List Nat :=
  line.map fun word => if word.all isDigit then digitsValue word else 0

/-- An amount of memory by its name, in octets. -/
def amount (f : HostFiles) (name : String) : Nat :=
  match (table f.memory).find? fun line => line.head? == some (name.toList ++ [':']) with
  | some (_ :: value :: _) => 1024 * digitsValue value
  | _ => 0

/-- How busy a processor has been, in per cent of its time. -/
def utilization (times : List Nat) : Binary64 :=
  let total := times.foldl (· + ·) 0
  let idle := ((times.drop 3).take 2).foldl (· + ·) 0
  if total = 0 then .ofNat 0 else .ofFraction false (100 * (total - idle)) total

/-- How busy each processor has been. A line that stands for all of them together has
no number in its name. -/
def utilizations (f : HostFiles) : List Binary64 :=
  (table f.processors).filterMap fun line =>
    match line with
    | ('c' :: 'p' :: 'u' :: _ :: _) :: times => some (utilization (numbers times))
    | _ => none

/-- The octets of a page. -/
def pageSize : Nat := 4096

/-- The memory of the agent. -/
def processReading (f : HostFiles) : Option ProcessReading :=
  f.process.bind fun file =>
    match numbers (words file.toList) with
    | virtual :: resident :: _ => some ⟨pageSize * resident, pageSize * virtual⟩
    | _ => none

/-- What is read off the machine, with a random number out of `2 ^ 53`. -/
def reading (f : HostFiles) (random : Nat) : HostReading where
  totalMemory := f.amount "MemTotal"
  freeMemory := f.amount "MemFree"
  usedMemory := f.amount "MemTotal" - f.amount "MemAvailable"
  processors := f.utilizations
  process := f.processReading
  random := .ofFraction false random (Nat.pow 2 53)

end HostFiles

end Telemetry
