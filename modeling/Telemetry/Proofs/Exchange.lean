import Mathlib
import Telemetry.Agent.Controller
import Telemetry.Agent.Delivery
import Telemetry.Proofs.Totals

/-!
# An agent, a collector and a network between them

One agent reports to one collector that keeps its metrics in memory. The agent is the
two loops of `Controller`, and a report goes out through `Delivery.report` on a schedule
of pauses. What lies between them is chosen freely: every attempt meets a **fate**, and
the four of them are all that an attempt can come to.

Polls, counts from elsewhere, reports that begin and reports that end are the **moves**
of the exchange, and they come in any order. A whole delivery stands at the move with
which its report begins: on its way it touches only the collector, and what is counted
until the report ends touches only the samples, so nothing is lost by letting all of the
counting come behind it.

Beside the exchange a ledger is kept, the **books**. An entry says what happened in whole
numbers, without any end of a range, and every sum that the two programs run is a sum
over the books: what was added at the agent, what is buffered there, the total at the
collector, and what the collector took without the agent hearing of it.

* `Fate`, `relay`: how an attempt ends, and the network that ends it so;
* `Exchange.move`, `Exchange.run`: the moves;
* `Entry`, `sumOver`, `Steady`: the books.
-/

namespace Telemetry

/-! ### Fates -/

/-- How an attempt to deliver a batch ends. -/
inductive Fate where
  /-- The network fails before the collector has the batch. -/
  | lost
  /-- The collector applies the batch and answers that it did. -/
  | taken (status : Nat) (good : isSuccess status = true)
  /-- The collector applies the batch, and its answer gets lost. -/
  | unanswered
  /-- The collector answers that it does not take the batch. -/
  | refused (status : Nat) (bad : isSuccess status = false)

/-- What the agent gets back. -/
def Fate.reply : Fate → Reply
  | .lost | .unanswered => .lost
  | .taken status _ | .refused status _ => .status status

/-! ### Books -/

/-- What happened to counts. -/
inductive Entry where
  /-- The agent counted. -/
  | counted (name : String) (delta : Int64)
  /-- A report drained the samples of a batch. -/
  | drained (batch : List Metric)
  /-- An undelivered batch was put back. -/
  | putBack (batch : List Metric)
  /-- The collector applied a batch, and the agent heard of it or not. -/
  | received (batch : List Metric) (heard : Bool)

namespace Entry

variable (name : String)

/-- What an entry adds at the agent. -/
def added : Entry → Int
  | .counted n d => if name = n then d.toInt else 0
  | _ => 0

/-- By how much an entry raises what is buffered at the agent. -/
def buffered : Entry → Int
  | .counted n d => if name = n then d.toInt else 0
  | .drained batch => -deltaIn name batch
  | .putBack batch => deltaIn name batch
  | .received .. => 0

/-- By how much an entry raises the total at the collector. -/
def collected : Entry → Int
  | .received batch _ => deltaIn name batch
  | _ => 0

/-- What the collector took with an entry without the agent hearing of it. -/
def unheard : Entry → Int
  | .received batch false => deltaIn name batch
  | _ => 0

end Entry

/-- A sum over the books. -/
def sumOver (f : Entry → Int) (books : List Entry) : Int := (books.map f).sum

@[simp] theorem sumOver_nil (f : Entry → Int) : sumOver f [] = 0 := rfl

@[simp] theorem sumOver_snoc (f : Entry → Int) (books : List Entry) (e : Entry) :
    sumOver f (books ++ [e]) = sumOver f books + f e := by
  simp [sumOver]

/-- **The running sums of a name stay inside the range**: at every time, what is
buffered and what is collected are whole numbers of 64 bits. -/
def Steady (name : String) (books : List Entry) : Prop :=
  ∀ p ∈ books.inits,
    InRange (sumOver (Entry.buffered name) p) ∧ InRange (sumOver (Entry.collected name) p)

instance (name : String) (books : List Entry) : Decidable (Steady name books) :=
  inferInstanceAs (Decidable (∀ p ∈ books.inits, _))

theorem Steady.of_initial {name : String} {books more : List Entry} (h : Steady name more)
    (hp : books <+: more) : Steady name books := by
  intro p hpre
  exact h p ((List.mem_inits _ _).2 (((List.mem_inits _ _).1 hpre).trans hp))

theorem Steady.inRange {name : String} {books : List Entry} (h : Steady name books) :
    InRange (sumOver (Entry.buffered name) books) ∧
      InRange (sumOver (Entry.collected name) books) :=
  h books ((List.mem_inits _ _).2 List.prefix_rfl)

/-! ### The exchange -/

/-- The batch that is on its way and will not have been delivered when its report
ends. -/
def Reporting.undelivered : Reporting → Option (List Metric)
  | .sending _ batch _ false => some batch
  | _ => none

@[simp] theorem Reporting.undelivered_sending_true (due : Option Nat) (batch : List Metric)
    (finish : Nat) : (Reporting.sending due batch finish true).undelivered = none := rfl

@[simp] theorem Reporting.undelivered_sending_false (due : Option Nat) (batch : List Metric)
    (finish : Nat) : (Reporting.sending due batch finish false).undelivered = some batch := rfl

@[simp] theorem Reporting.undelivered_waitFor (due : Option Nat) :
    (Reporting.waitFor due).undelivered = none := by
  cases due <;> rfl

/-- Is no report on its way? -/
def Reporting.isIdle : Reporting → Bool
  | .sending .. => false
  | _ => true

/-- What becomes of a batch that is to be delivered. -/
inductive Dispatch where
  /-- It cannot be put in an envelope. -/
  | unsealed (why : Failure)
  /-- It goes out, with some randomness for its envelope, and the `n`-th attempt meets
  the `n`-th fate. -/
  | tried (seed : Nat → Octets) (fates : Nat → Fate)

/-- What can happen. -/
inductive Move where
  /-- The agent polls. -/
  | poll (gauges : List (String × Binary64)) (time : Nat)
  /-- Someone sets a gauge at the agent. -/
  | set (name : String) (x : Binary64)
  /-- Someone counts at the agent. -/
  | count (name : String) (delta : Int64)
  /-- The agent comes to the tick of a report. -/
  | report (dispatch : Dispatch) (time : Nat)
  /-- The report on its way ends. -/
  | settle (time : Nat)

/-- An agent, a collector and the books. -/
structure Exchange where
  /-- The agent. -/
  agent : Controller
  /-- The metrics of the collector. -/
  collector : Memory
  /-- The books. -/
  books : List Entry

/-- The network on which the `n`-th attempt at a batch meets the `n`-th fate. -/
def relay (fates : Nat → Fate) (batch : List Metric) (_ : Outgoing) (world : Exchange × Nat) :
    Reply × Exchange × Nat :=
  let (x, n) := world
  let received (heard : Bool) : Exchange :=
    { x with
      collector := x.collector.applyAll batch
      books := x.books ++ [.received batch heard] }
  let x := match fates n with
    | .taken .. => received true
    | .unanswered => received false
    | .lost | .refused .. => x
  ((fates n).reply, x, n + 1)

namespace Exchange

/-- Nothing has happened yet. -/
def start (pace : Pace) : Exchange := ⟨.start pace, .empty, []⟩

/-- The agent with its samples changed. -/
def gather (x : Exchange) (f : Samples → Samples) : Exchange :=
  { x with agent := { x.agent with samples := f x.agent.samples } }

/-- An entry made. -/
def note (x : Exchange) (e : Entry) : Exchange := { x with books := x.books ++ [e] }

/-- A delivery, with how it ended and how long its pauses were. -/
def deliver (d : Delivery) (batch : List Metric) (x : Exchange) :
    Dispatch → Except Failure Unit × Exchange × Nat
  | .unsealed why => (.error why, x, 0)
  | .tried seed fates =>
    match d.report (relay fates batch) seed batch (x, 0) with
    | (result, (x, _), waited) => (result, x, waited)

/-- What went wrong, if anything did. -/
def failureOf : Except Failure Unit → Option Failure
  | .ok () => none
  | .error e => some e

/-- A report begun: the samples are drained, the batch is delivered, and the agent
will know how that ended when the report ends. -/
def report (d : Delivery) (dispatch : Dispatch) (time : Nat) (x : Exchange) : Exchange :=
  match x.agent.reporting with
  | .waiting _ =>
    let batch := x.agent.samples.takeSnapshot.1
    match (x.note (.drained batch)).deliver d batch dispatch with
    | (result, x, waited) =>
      let outcome : ReportOutcome := ⟨waited, failureOf result⟩
      { x with agent := x.agent.report ⟨fun _ => [], fun _ => outcome⟩ time }
  | _ => x

/-- A report ended. -/
def settle (time : Nat) (x : Exchange) : Exchange :=
  let x' := { x with agent := x.agent.settle time }
  match x.agent.reporting.undelivered with
  | some batch => x'.note (.putBack batch)
  | none => x'

/-- One move. -/
def move (d : Delivery) (x : Exchange) : Move → Exchange
  | .poll gauges time =>
    { x with agent := x.agent.poll ⟨fun _ => gauges, fun _ => ⟨0, none⟩⟩ time }.note
      (.counted pollCount 1)
  | .set name value => x.gather (·.setGauge name value)
  | .count name delta => (x.gather (·.addCounter name delta)).note (.counted name delta)
  | .report dispatch time => x.report d dispatch time
  | .settle time => x.settle time

/-- **A run of the exchange**: moves in any order, from the start. -/
def run (d : Delivery) (pace : Pace) (moves : List Move) : Exchange :=
  moves.foldl (move d) (start pace)

end Exchange

end Telemetry
