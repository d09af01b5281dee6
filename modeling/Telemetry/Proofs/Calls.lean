import Mathlib
import Telemetry.Store.Backend

/-!
# Calls and their answers

What a client may ask of a collector's store, whichever backend is behind it: to apply a metric
or a batch, for one metric, for all of them. Two backends are compared by the answers that they
give to the same calls, one after the other.

* `Call`, `Answer`: what is asked, and what comes back;
* `Site.serve`, `Site.serveAll`: one call, and calls in order;
* `Site.serve_inMemory`: the answers of a store in memory, against which the others are measured.
-/

namespace Telemetry

/-- What is asked of a store. -/
inductive Call where
  /-- A metric is to be applied. -/
  | update (m : Metric)
  /-- Metrics are to be applied in order. -/
  | batch (ms : List Metric)
  /-- The stored metric of a kind and a name. -/
  | get (kind : Kind) (name : String)
  /-- All stored metrics. -/
  | list

/-- What comes back. -/
inductive Answer where
  /-- How a change went. -/
  | done (result : Except Failure Unit)
  /-- The metric asked for. -/
  | metric (result : Except Failure Metric)
  /-- All metrics. -/
  | metrics (result : Except Failure (List Metric))
deriving DecidableEq

/-- A change that failed? -/
def Answer.isFailedChange : Answer → Bool
  | .done (.error _) => true
  | _ => false

/-- The metrics that a call writes. -/
def Call.written : Call → List Metric
  | .update m => [m]
  | .batch ms => ms
  | .get .. | .list => []

namespace Site

/-- The answer to a call, and the site behind it. -/
def serve (s : Site) : Call → Answer × Site
  | .update m => match s.update m with
    | (result, s) => (.done result, s)
  | .batch ms => match s.batchUpdate ms with
    | (result, s) => (.done result, s)
  | .get kind name => (.metric (s.get kind name), s)
  | .list => (.metrics s.list, s)

/-- The answers to calls in order. -/
def serveAll : Site → List Call → List Answer
  | _, [] => []
  | s, c :: cs => match s.serve c with
    | (answer, s) => answer :: s.serveAll cs

/-- A site with its metrics in memory only. -/
def inMemory (m : Memory) : Site := ⟨.memory m, ⟨[], []⟩, 0⟩

end Site

namespace Memory

/-- The answer of metrics in memory to a call. -/
def answer (m : Memory) : Call → Answer
  | .update _ | .batch _ => .done (.ok ())
  | .get kind name => .metric (m.lookup kind name)
  | .list => .metrics (.ok m.snapshot)

/-- The metrics in memory behind a call. -/
def behind (m : Memory) (c : Call) : Memory := m.applyAll c.written

end Memory

/-- **A store in memory** answers from its two maps, and a change changes them and nothing
else. -/
theorem Site.serve_inMemory (m : Memory) (c : Call) :
    (inMemory m).serve c = (m.answer c, inMemory (m.behind c)) := by
  cases c <;> rfl

/-- The answers of a store in memory, call by call. -/
theorem Site.serveAll_inMemory (m : Memory) (c : Call) (cs : List Call) :
    (inMemory m).serveAll (c :: cs) = m.answer c :: (inMemory (m.behind c)).serveAll cs := by
  rw [serveAll, serve_inMemory]

end Telemetry
