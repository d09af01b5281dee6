import Telemetry.Agent.Samples

/-!
# The two loops of an agent

One loop polls: at each of its ticks the gauges are set to what is read off the
machine, and the number of polls is counted. The other one reports: at each of its
ticks a snapshot is taken, and unless it is empty it is handed to the collector. While
a report is on its way its loop does nothing else, but polls go on; if it fails, its
counters are put back.

The first tick of a loop is one interval after the start. A loop that comes late to a
tick takes it at once; if it comes no more than `grace` late, the next tick is where it
would have been anyway, and else one interval from then.

* `Controller.start`, `Controller.runUntil`, `Controller.stop`;
* `Event`, `Controller.fire`: the three things that happen, one at a time;
* `nextDue`: when the next tick is due.
-/

namespace Telemetry

/-- The counter of polls. -/
def pollCount : String := "PollCount"

/-- How often to poll and to report, in milliseconds. -/
structure Pace where
  /-- Between two polls. -/
  poll : Nat
  /-- Between two reports. -/
  report : Nat
deriving DecidableEq, Repr

/-- How late a loop may come to a tick without its next one being put off. -/
def grace : Nat := 5

/-- When the tick behind one that was due and is taken now is due. A loop without an
interval has no ticks. -/
def nextDue (period due now : Nat) : Option Nat :=
  if period = 0 then none
  else if due + grace < now then some (now + period)
  else some (due + period)

/-- The next tick is due later than the one before it. -/
theorem lt_of_nextDue {period due now t : Nat} (h : nextDue period due now = some t) : due < t := by
  unfold nextDue at h
  split at h
  · cases h
  · split at h <;> cases h <;> omega

/-- How a report goes. -/
structure ReportOutcome where
  /-- How long it takes, in milliseconds. -/
  duration : Nat
  /-- What goes wrong, if anything does. -/
  failure : Option Failure
deriving DecidableEq, Repr

/-- What an agent meets: what its polls read and how its reports go, each counted from
zero. -/
structure Surroundings where
  /-- The gauges of a poll. -/
  gauges : Nat → List (String × Binary64)
  /-- How a report goes. -/
  outcome : Nat → ReportOutcome

/-- What the reporting loop is doing. -/
inductive Reporting where
  /-- Waiting for a tick. -/
  | waiting (due : Nat)
  /-- Waiting for a report to end. -/
  | sending (due : Option Nat) (batch : List Metric) (finish : Nat) (delivered : Bool)
  /-- Nothing any more. -/
  | ended

/-- The two loops with what they share. -/
structure Controller where
  /-- How often to poll and to report. -/
  pace : Pace
  /-- The time. -/
  clock : Nat
  /-- What has been gathered. -/
  samples : Samples
  /-- How many polls there have been. -/
  polls : Nat
  /-- When the next poll is due, if polling goes on. -/
  pollDue : Option Nat
  /-- What the reporting loop is doing. -/
  reporting : Reporting
  /-- The reports begun so far, with the times at which they began. -/
  reports : List (Nat × List Metric)

/-- The three things that happen. -/
inductive Event where
  /-- A report ends. -/
  | settle
  /-- A poll. -/
  | poll
  /-- A report begins, or is left out. -/
  | report
deriving DecidableEq, Repr

namespace Reporting

/-- The loop as it goes on when the next tick is due. -/
def waitFor : Option Nat → Reporting
  | some due => .waiting due
  | none => .ended

end Reporting

namespace Controller

/-- Two loops at the time zero. -/
def start (pace : Pace) : Controller where
  pace := pace
  clock := 0
  samples := .empty
  polls := 0
  pollDue := nextDue pace.poll 0 0
  reporting := .waitFor (nextDue pace.report 0 0)
  reports := []

/-! ### What happens next -/

/-- When a thing is to happen. A tick that is overdue is taken now. -/
def timeOf (c : Controller) : Event → Option Nat
  | .settle =>
    match c.reporting with
    | .sending _ _ finish _ => some finish
    | _ => none
  | .poll => c.pollDue
  | .report =>
    match c.reporting with
    | .waiting due => some (max due c.clock)
    | _ => none

/-- The earlier one of two things, the first one if they coincide. -/
def sooner (a b : Option (Event × Nat)) : Option (Event × Nat) :=
  match a, b with
  | some x, some y => if y.2 < x.2 then some y else some x
  | some x, none => some x
  | none, y => y

/-- What happens next, and when. -/
def next? (c : Controller) : Option (Event × Nat) :=
  let at' (e : Event) : Option (Event × Nat) := (c.timeOf e).map fun t => (e, t)
  sooner (sooner (at' .settle) (at' .poll)) (at' .report)

/-- The report on its way has ended. -/
def settle (c : Controller) (time : Nat) : Controller :=
  match c.reporting with
  | .sending due batch _ delivered =>
    { c with
      clock := time
      samples := if delivered then c.samples else c.samples.restoreCounters batch
      reporting := .waitFor due }
  | _ => { c with clock := time }

/-- A poll has been made. -/
def poll (env : Surroundings) (c : Controller) (time : Nat) : Controller :=
  { c with
    clock := time
    samples := (c.samples.setGauges (env.gauges c.polls)).addCounter pollCount 1
    polls := c.polls + 1
    pollDue := c.pollDue.bind fun due => nextDue c.pace.poll due time }

/-- A report has begun, or has been left out for there is nothing to report. -/
def report (env : Surroundings) (c : Controller) (time : Nat) : Controller :=
  match c.reporting with
  | .waiting due =>
    let (batch, samples) := c.samples.takeSnapshot
    let next := nextDue c.pace.report due time
    if batch.isEmpty then
      { c with clock := time, samples := samples, reporting := .waitFor next }
    else
      let outcome := env.outcome c.reports.length
      { c with
        clock := time
        samples := samples
        reporting := .sending next batch (time + outcome.duration) outcome.failure.isNone
        reports := c.reports ++ [(time, batch)] }
  | _ => { c with clock := time }

/-- A thing has happened. -/
def fire (env : Surroundings) (c : Controller) (event : Event) (time : Nat) : Controller :=
  match event with
  | .settle => c.settle time
  | .poll => c.poll env time
  | .report => c.report env time

/-! ### Time -/

/-- How far a tick may still move until some time. -/
def leeway (until' : Nat) : Option Nat → Nat
  | some due => until' + 1 - due
  | none => 0

/-- A bound on how much can still happen until some time. -/
def pending (until' : Nat) (c : Controller) : Nat :=
  leeway until' c.pollDue +
  match c.reporting with
  | .waiting due => 2 * leeway until' (some due)
  | .sending due _ _ _ => 2 * leeway until' due + 1
  | .ended => 0

/-- What is left to a loop that waits for its next tick. -/
theorem pending_waitFor (until' : Nat) (due : Option Nat) :
    (match Reporting.waitFor due with
      | .waiting due => 2 * leeway until' (some due)
      | .sending due _ _ _ => 2 * leeway until' due + 1
      | .ended => 0) = 2 * leeway until' due := by
  cases due <;> simp [Reporting.waitFor, leeway]

/-- A tick that is taken leaves its loop less time. -/
theorem leeway_nextDue {period due now until' : Nat} (h : due ≤ until') :
    leeway until' (nextDue period due now) < leeway until' (some due) := by
  cases hn : nextDue period due now with
  | none =>
    simp only [leeway]
    omega
  | some t =>
    have := lt_of_nextDue hn
    simp only [leeway]
    omega

/-- The earlier one of two things is one of them. -/
theorem sooner_eq_some {a b : Option (Event × Nat)} {x : Event × Nat} (h : sooner a b = some x) :
    a = some x ∨ b = some x := by
  unfold sooner at h
  split at h
  · split at h
    · exact Or.inr h
    · exact Or.inl h
  · exact Or.inl h
  · exact Or.inr h

/-- What happens next happens at its time. -/
theorem timeOf_of_next? {c : Controller} {e : Event} {t : Nat} (h : c.next? = some (e, t)) :
    c.timeOf e = some t := by
  have hat : ∀ e' : Event,
      ((c.timeOf e').map fun t => (e', t)) = some (e, t) → c.timeOf e = some t := by
    intro e' he
    obtain ⟨t', ht, heq⟩ := Option.map_eq_some_iff.1 he
    cases heq
    exact ht
  rcases sooner_eq_some h with h | h
  · rcases sooner_eq_some h with h | h
    · exact hat _ h
    · exact hat _ h
  · exact hat _ h

/-- With everything that happens, less is left to happen. -/
theorem pending_fire_lt {env : Surroundings} {c : Controller} {e : Event} {t until' : Nat}
    (h : c.timeOf e = some t) (ht : t ≤ until') :
    pending until' (c.fire env e t) < pending until' c := by
  cases e with
  | settle =>
    cases hr : c.reporting with
    | waiting due => simp [timeOf, hr] at h
    | ended => simp [timeOf, hr] at h
    | sending due batch finish delivered =>
      simp only [fire, settle, hr, pending, pending_waitFor]
      omega
  | poll =>
    have hd : c.pollDue = some t := h
    have := @leeway_nextDue c.pace.poll _ t _ ht
    simp only [fire, poll, pending, hd, Option.bind_some]
    omega
  | report =>
    cases hr : c.reporting with
    | sending due batch finish delivered => simp [timeOf, hr] at h
    | ended => simp [timeOf, hr] at h
    | waiting due =>
      have hdue : due ≤ until' := by
        simp only [timeOf, hr, Option.some.injEq] at h
        omega
      have := @leeway_nextDue c.pace.report _ t _ hdue
      simp only [fire, report, hr]
      split <;> simp only [pending, hr, pending_waitFor] <;> omega

/-- The loops at a later time, everything until then having happened. -/
def runUntil (env : Surroundings) (time : Nat) (c : Controller) : Controller :=
  match _h : c.next? with
  | some (event, t) =>
    if t ≤ time then runUntil env time (c.fire env event t)
    else { c with clock := max c.clock time }
  | none => { c with clock := max c.clock time }
termination_by pending time c
decreasing_by exact pending_fire_lt (timeOf_of_next? _h) (by assumption)

/-- The loops some milliseconds later. -/
def wait (env : Surroundings) (duration : Nat) (c : Controller) : Controller :=
  c.runUntil env (c.clock + duration)

/-- The loops ended. A report on its way is waited for, and no other thing happens
meanwhile. -/
def stop (c : Controller) : Controller :=
  match c.reporting with
  | .sending _ _ finish _ =>
    { c.settle (max c.clock finish) with pollDue := none, reporting := .ended }
  | _ => { c with pollDue := none, reporting := .ended }

end Controller

end Telemetry
