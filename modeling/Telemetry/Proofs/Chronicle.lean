import Mathlib
import Telemetry.Agent.Controller
import Telemetry.Proofs.Totals

/-!
# What happens to samples

The two loops of an agent and whoever else counts work on the same samples, and their steps come
in any order: a poll sets its gauges and counts itself in two steps, between which anything may
happen, and while a report is on its way polls and counts go on. Beside the agent **notes** are
taken of what happens, the latest one first.

Two reaches into the past matter to a batch. While it is on its way, the samples gather what has
happened since it was drained, `Notes.sinceBegan`. Once it is delivered that is all there is left
to deliver, and it grows into `Notes.sinceDelivered`; if it is not delivered, the reach does not
get shorter.

* `Note`, `Notes.sinceDelivered`, `Notes.latest`: what happened, and what a batch is to hold;
* `Chronicle.act`, `Chronicle.run`: the steps, in any order;
* `Chronicle.exists_acts_runUntil`: the loops on their own clock take such steps;
* `Samples.lookup_setGauges`, `Memory.levelsOf_snapshot`: gauges, in samples and in a snapshot.
-/

namespace Telemetry

/-! ### Notes -/

/-- What happens to samples. -/
inductive Note where
  /-- Gauges were set. -/
  | levels (values : List (String × Binary64))
  /-- Someone counted. -/
  | counted (name : String) (delta : Int64)
  /-- A poll was counted. -/
  | polled
  /-- A batch was drained and handed over. -/
  | began (batch : List Metric)
  /-- The report of a batch ended, and the batch had been delivered or not. -/
  | ended (batch : List Metric) (delivered : Bool)

/-- What has happened, the latest first. -/
abbrev Notes : Type := List Note

namespace Note

variable (name : String)

/-- What is counted: a poll counts one under a name of its own. -/
def count? : Note → Option (String × Int64)
  | .counted n d => some (n, d)
  | .polled => some (pollCount, 1)
  | _ => none

/-- What is added under a name. -/
def added (n : Note) : Int :=
  match n.count? with
  | some (m, d) => if name = m then d.toInt else 0
  | none => 0

/-- What others than the polling loop add under a name. -/
def addedElsewhere : Note → Int
  | .counted n d => if name = n then d.toInt else 0
  | _ => 0

/-- What is delivered under a name. -/
def delivered : Note → Int
  | .ended batch true => deltaIn name batch
  | _ => 0

/-- By how much the samples hold more under a name. -/
def buffered : Note → Int
  | .began batch => -deltaIn name batch
  | .ended batch false => deltaIn name batch
  | n => n.added name

/-- The value that a gauge is set to, if it is set. -/
def level? : Note → Option Binary64
  | .levels values => lookupIn name values.reverse
  | _ => none

/-- A batch handed over? -/
def isBegan : Note → Bool
  | .began _ => true
  | _ => false

/-- The batch handed over, if one is. -/
def batch? : Note → Option (List Metric)
  | .began batch => some batch
  | _ => none

/-- A poll? -/
def isPolled : Note → Bool
  | .polled => true
  | _ => false

/-- Is something gathered, and no report begun or ended? -/
def isGathered : Note → Bool
  | .began _ | .ended .. => false
  | _ => true

variable {n : Note}

/-- What is gathered is in the samples then. -/
theorem buffered_of_isGathered (hn : n.isGathered = true) : n.buffered name = n.added name := by
  cases n <;> first | rfl | cases hn

theorem delivered_of_isGathered (hn : n.isGathered = true) : n.delivered name = 0 := by
  cases n <;> first | rfl | cases hn

end Note

namespace Notes

/-- A sum over notes. -/
def sum (f : Note → Int) (notes : Notes) : Int := (notes.map f).sum

/-- What has happened since the last batch was handed over. -/
def sinceBegan (notes : Notes) : Notes := notes.takeWhile fun n => !n.isBegan

/-- **What has happened since the last batch that was delivered had been drained.** Behind the end
of its report everything counts, and in front of that what came behind its beginning. -/
def sinceDelivered : Notes → Notes
  | [] => []
  | .ended _ true :: notes => sinceBegan notes
  | n :: notes => n :: sinceDelivered notes

/-- The value that a gauge was last set to. -/
def latest (name : String) (notes : Notes) : Option Binary64 := notes.findSome? (Note.level? name)

/-- **What the samples hold under a name stayed inside the range** all the time. -/
def Fits (name : String) (notes : Notes) : Prop :=
  ∀ past ∈ notes.tails, InRange (sum (Note.buffered name) past)

instance (name : String) (notes : Notes) : Decidable (notes.Fits name) :=
  inferInstanceAs (Decidable (∀ past ∈ notes.tails, _))

@[simp] theorem sum_nil (f : Note → Int) : sum f [] = 0 := rfl

@[simp] theorem sum_cons (f : Note → Int) (n : Note) (notes : Notes) :
    sum f (n :: notes) = f n + sum f notes := by
  simp [sum]

/-- What is gathered belongs to everything that reaches back behind it. -/
theorem sinceBegan_cons {n : Note} (hn : n.isGathered = true) (notes : Notes) :
    sinceBegan (n :: notes) = n :: sinceBegan notes := by
  cases n <;> first | rfl | cases hn

theorem sinceDelivered_cons {n : Note} (hn : n.isGathered = true) (notes : Notes) :
    sinceDelivered (n :: notes) = n :: sinceDelivered notes := by
  cases n <;> first | rfl | cases hn

theorem Fits.of_suffix {name : String} {past notes : Notes} (h : notes.Fits name)
    (hp : past <:+ notes) : past.Fits name := by
  intro p hpast
  exact h p ((List.mem_tails _ _).2 (((List.mem_tails _ _).1 hpast).trans hp))

theorem Fits.inRange {name : String} {notes : Notes} (h : notes.Fits name) :
    InRange (notes.sum (Note.buffered name)) :=
  h notes ((List.mem_tails _ _).2 List.suffix_rfl)

end Notes

/-! ### Steps -/

namespace Reporting

/-- The batch on its way. -/
def inFlight : Reporting → List Metric
  | .sending _ batch _ _ => batch
  | _ => []

/-- What is noted when the loop has waited for a report to end. -/
def ending : Reporting → Notes
  | .sending _ batch _ delivered => [.ended batch delivered]
  | _ => []

end Reporting

namespace Controller

/-- What is noted at the tick of a report. -/
def beginning (c : Controller) : Notes :=
  match c.reporting with
  | .waiting _ => if c.samples.snapshot.isEmpty then [] else [.began c.samples.snapshot]
  | _ => []

/-- The first half of a poll: gauges are set. -/
def sampled (c : Controller) (gauges : List (String × Binary64)) : Controller :=
  { c with samples := c.samples.setGauges gauges }

/-- The second half of a poll: it is counted. -/
def tallied (c : Controller) (time : Nat) : Controller :=
  { c with
    clock := time
    samples := c.samples.addCounter pollCount 1
    polls := c.polls + 1
    pollDue := c.pollDue.bind fun due => nextDue c.pace.poll due time }

/-- **A poll is its two halves**, with nothing between them. -/
theorem poll_eq (env : Surroundings) (c : Controller) (time : Nat) :
    c.poll env time = (c.sampled (env.gauges c.polls)).tallied time := rfl

end Controller

/-- A step of one of the loops, or of someone else. -/
inductive Act where
  /-- The polling loop sets the gauges of a poll. -/
  | sample (gauges : List (String × Binary64))
  /-- The polling loop counts the poll. -/
  | tally (time : Nat)
  /-- Someone sets gauges. -/
  | set (values : List (String × Binary64))
  /-- Someone counts. -/
  | count (name : String) (delta : Int64)
  /-- The reporting loop comes to a tick, and its report, if there is one, will go somehow. -/
  | report (outcome : ReportOutcome) (time : Nat)
  /-- The report on its way ends. -/
  | settle (time : Nat)
  /-- The loops are told to end, and have ended. -/
  | stop

/-- An agent with notes of what happened. -/
structure Chronicle where
  /-- The agent. -/
  agent : Controller
  /-- Is a poll half done? -/
  polling : Bool
  /-- The notes. -/
  notes : Notes

namespace Chronicle

/-- Nothing has happened yet. -/
def start (pace : Pace) : Chronicle := ⟨.start pace, false, []⟩

/-- One step. One whose turn it is not changes nothing: a poll is not begun within another one or
behind the end of its loop, and the loops do not end within a poll. -/
def act (x : Chronicle) : Act → Chronicle
  | .sample gauges =>
    if x.agent.pollDue.isSome && !x.polling then
      ⟨x.agent.sampled gauges, true, .levels gauges :: x.notes⟩
    else x
  | .tally time =>
    if x.polling then ⟨x.agent.tallied time, false, .polled :: x.notes⟩ else x
  | .set values => { x with agent := x.agent.sampled values, notes := .levels values :: x.notes }
  | .count name delta =>
    { x with
      agent := { x.agent with samples := x.agent.samples.addCounter name delta }
      notes := .counted name delta :: x.notes }
  | .report outcome time =>
    { x with
      agent := x.agent.report ⟨fun _ => [], fun _ => outcome⟩ time
      notes := x.agent.beginning ++ x.notes }
  | .settle time =>
    { x with agent := x.agent.settle time, notes := x.agent.reporting.ending ++ x.notes }
  | .stop =>
    if x.polling then x
    else { x with agent := x.agent.stop, notes := x.agent.reporting.ending ++ x.notes }

/-- **A run**: steps in any order, from the start. -/
def run (pace : Pace) (acts : List Act) : Chronicle := acts.foldl act (start pace)

/-! ### The loops on their own clock -/

/-- What happens next is done in steps. -/
theorem exists_acts_fire (env : Surroundings) {x : Chronicle} (hx : x.polling = false) {e : Event}
    {t : Nat} (ht : x.agent.timeOf e = some t) :
    ∃ acts : List Act, (acts.foldl act x).agent = x.agent.fire env e t ∧
      (acts.foldl act x).polling = false := by
  cases e with
  | settle => exact ⟨[.settle t], rfl, hx⟩
  | poll =>
    have hdue : x.agent.pollDue = some t := ht
    refine ⟨[.sample (env.gauges x.agent.polls), .tally t], ?_⟩
    simp [act, hdue, hx, Controller.fire, Controller.poll_eq]
  | report =>
    refine ⟨[.report (env.outcome x.agent.reports.length) t], ?_, hx⟩
    simp only [List.foldl_cons, List.foldl_nil, act, Controller.fire, Controller.report]

/-- **The loops on their own clock** take such steps and no others: wherever they get until some
time, a run gets as well. -/
theorem exists_acts_runUntil (env : Surroundings) (time : Nat) {x : Chronicle}
    (hx : x.polling = false) :
    ∃ (acts : List Act) (clock : Nat), x.agent.runUntil env time =
      { (acts.foldl act x).agent with clock := clock } := by
  -- one event after the other, as the clock comes to them
  generalize hc : x.agent = c
  fun_induction Controller.runUntil env time c generalizing x with
  | case1 c e t hnext hle ih =>
    subst hc
    obtain ⟨first, hagent, hpolling⟩ := exists_acts_fire env hx (Controller.timeOf_of_next? hnext)
    obtain ⟨acts, clock, hrun⟩ := ih hpolling hagent
    exact ⟨first ++ acts, clock, by rw [List.foldl_append, hrun]⟩
  | case2 c e t hnext hlt => exact ⟨[], _, by rw [← hc]; rfl⟩
  | case3 c hnext => exact ⟨[], _, by rw [← hc]; rfl⟩

end Chronicle

/-! ### Levels -/

/-- The level of a metric under a name, if it is a gauge of that name. -/
def levelOf? (name : String) (m : Metric) : Option Binary64 :=
  match m.value with
  | .gauge x => if m.name = name then some x else none
  | .counter _ => none

/-- The levels that a batch holds under a name. -/
def levelsOf (name : String) (ms : List Metric) : List Binary64 := ms.filterMap (levelOf? name)

/-- **A snapshot holds the level of every gauge**, once. -/
theorem Memory.levelsOf_snapshot (s : Memory) {name : String} (hname : name ≠ "") :
    levelsOf name s.snapshot = (s.gauges.lookup name).toList := by
  rw [snapshot, levelsOf, List.filterMap_append,
    filterMap_metricsOf (fun _ _ _ => rfl) hname s.gauges.sorted,
    filterMap_metricsOf_eq_nil (fun _ _ _ => rfl), List.append_nil]
  rfl

namespace Samples

/-- Of several values for a gauge the last one counts. -/
theorem lookup_setGauges (s : Samples) (values : List (String × Binary64)) (name : String) :
    (s.setGauges values).gauges.lookup name =
      (lookupIn name values.reverse).or (s.gauges.lookup name) := by
  -- from the end on, where the value stands that counts
  induction values using List.reverseRecOn with
  | nil => rfl
  | append_singleton values p ih =>
    obtain ⟨n, x⟩ := p
    have hstep : s.setGauges (values ++ [(n, x)]) = (s.setGauges values).setGauge n x := by
      simp [setGauges]
    rw [hstep, List.reverse_append, setGauge, Memory.write, NameMap.lookup_insert, ih]
    show _ = (if name = n then some x else lookupIn name values.reverse).or _
    split <;> rfl

/-- What is put back are counts. -/
theorem gauges_restoreCounters (s : Samples) (batch : List Metric) :
    (s.restoreCounters batch).gauges = s.gauges := by
  unfold restoreCounters
  induction batch generalizing s with
  | nil => rfl
  | cons m ms ih =>
    rw [List.foldl_cons, ih]
    split <;> rfl

end Samples

namespace Controller

/-- A report that ends touches no gauge. -/
theorem gauges_settle (c : Controller) (time : Nat) :
    (c.settle time).samples.gauges = c.samples.gauges := by
  unfold settle
  split
  · show (if _ then _ else _ : Samples).gauges = _
    split
    · rfl
    · exact Samples.gauges_restoreCounters ..
  · rfl

/-- And it begins no other report. -/
theorem reports_settle (c : Controller) (time : Nat) : (c.settle time).reports = c.reports := by
  unfold settle
  split <;> rfl

end Controller

end Telemetry
