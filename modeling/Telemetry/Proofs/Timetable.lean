import Mathlib
import Telemetry.Agent.Controller

/-!
# The timetable of the two loops

Time goes on only as far as nothing is due, and what is due happens at the instant at which it is
due. Beside that the loops are left free: things that are due at one instant happen in any order,
anyone may set gauges or count at any time, and the loops may be told to end at any time. A loop
that has been told so ends before time goes on, unless it waits for a report; one that has come late
to a tick may take it once more before it ends.

Two numbers carry the timetable of the reporting loop: the time at which the last tick has let go of
the loop, and the time at which the next one is due. The loop is never before the first one, and it
comes to the next tick at the later one of the two. The next tick is due one interval after the last
one, or a little less: a tick that has come late but within `grace` does not put off those behind
it. So there may be less than an interval between two reports, but not much less.

* `Tick`, `Tick.next`, `Tick.finish`, `Tick.Follows`: the ticks of the reporting loop;
* `Timetable.Step`, `Timetable.act`, `Timetable.run`: what may happen, in any order that time
  allows;
* `Timely`, `Timely.act`: what holds all the time, one lemma for each step;
* `Timetable.exists_steps_runUntil`, `exists_steps_stop`: the loops on their own clock are such
  runs;
* `Timetable.keepsTime_run`: the timetable.
-/

namespace Telemetry

/-! ### Ticks -/

/-- A tick of the reporting loop. -/
structure Tick where
  /-- When it was due. -/
  due : Nat
  /-- When the loop came to it. -/
  taken : Nat
  /-- What there was to report. -/
  batch : List Metric
  /-- How the report goes, if there is one. -/
  outcome : Option ReportOutcome

namespace Tick

/-- **When a tick lets go of the loop**: at once, or when its report has ended. -/
def finish (t : Tick) : Nat := t.taken + (t.outcome.map ReportOutcome.duration).getD 0

/-- **When the next tick is due**: one interval after this one, and if this one has come late but
not very late, one interval after this one was due. -/
def next (period : Nat) (t : Tick) : Nat :=
  if t.due + grace < t.taken then t.taken + period else t.due + period

/-- **A tick behind another one** is taken when it is due and the loop has been let go of. -/
def Follows (period : Nat) (a b : Tick) : Prop :=
  b.due = a.next period ∧ b.taken = max b.due a.finish

variable {period : Nat} {a b t : Tick}

theorem taken_le_finish (t : Tick) : t.taken ≤ t.finish := Nat.le_add_right ..

theorem nextDue_eq (h : 0 < period) (t : Tick) :
    nextDue period t.due t.taken = some (t.next period) := by
  rw [nextDue, if_neg h.ne', next]
  split <;> rfl

/-- The next tick is due an interval later, but for the grace. -/
theorem le_next (period : Nat) (t : Tick) : t.taken + period ≤ t.next period + grace := by
  unfold next
  split <;> omega

/-- **A tick that has come in time, or late beyond the grace**, has the next one an interval behind
itself. -/
theorem Follows.taken_eq (h : Follows period a b) (ha : a.taken = a.due ∨ a.due + grace < a.taken) :
    b.taken = max (a.taken + period) a.finish := by
  obtain ⟨hdue, htaken⟩ := h
  have hnext : a.next period = a.taken + period := by
    unfold next
    split <;> omega
  rw [htaken, hdue, hnext]

end Tick

namespace Reporting

/-- Waiting for a tick? -/
def isWaiting : Reporting → Bool
  | .waiting _ => true
  | _ => false

end Reporting

/-- The tick to which the reporting loop comes now, if it waits for one. -/
def Controller.tick? (env : Surroundings) (c : Controller) : Option Tick :=
  match c.reporting with
  | .waiting due =>
    let batch := c.samples.takeSnapshot.1
    some ⟨due, c.clock, batch,
      if batch.isEmpty then none else some (env.outcome c.reports.length)⟩
  | _ => none

namespace Controller

variable {env : Surroundings} {c : Controller}

/-- A report is to end if one is on its way. -/
theorem timeOf_settle_iff {t : Nat} : c.timeOf .settle = some t ↔
    ∃ next batch delivered, c.reporting = .sending next batch t delivered := by
  cases hr : c.reporting <;> simp [timeOf, hr]

/-- A tick is to come if the loop waits for one, and not in the past. -/
theorem timeOf_report_iff {t : Nat} : c.timeOf .report = some t ↔
    ∃ due, c.reporting = .waiting due ∧ max due c.clock = t := by
  cases hr : c.reporting <;> simp [timeOf, hr]

/-- **What is known of a tick** to which the loop comes. -/
theorem exists_tick (env : Surroundings) {due : Nat} (hr : c.reporting = .waiting due) :
    ∃ t : Tick, c.tick? env = some t ∧ t.due = due ∧ t.taken = c.clock ∧
      (t.outcome = none ↔ t.batch = []) ∧
        ∀ o ∈ t.outcome, o = env.outcome c.reports.length := by
  refine ⟨_, by rw [tick?, hr], rfl, rfl, ?_, ?_⟩
  · simp only [ite_eq_left_iff, reduceCtorEq, imp_false, not_not, List.isEmpty_iff]
  · simp only
    split
    · exact nofun
    · rintro o ⟨⟩
      rfl

/-- **What the loop does at it**: if there is a report it is waited for, and else the next tick. -/
theorem fire_report {t : Tick} (ht : c.tick? env = some t) :
    c.fire env .report c.clock =
      { c with
        samples := c.samples.takeSnapshot.2
        reporting :=
          match t.outcome with
          | none => .waitFor (nextDue c.pace.report t.due t.taken)
          | some o =>
            .sending (nextDue c.pace.report t.due t.taken) t.batch (t.taken + o.duration)
              o.failure.isNone
        reports := c.reports ++ if t.outcome.isSome then [(t.taken, t.batch)] else [] } := by
  unfold tick? at ht
  split at ht
  · rename_i due hr
    obtain rfl := Option.some.inj ht
    simp only [fire, report, hr]
    split <;> simp [*]
  · cases ht

end Controller

/-! ### Runs -/

/-- What may happen. -/
inductive Timetable.Step where
  /-- Time goes on. -/
  | pass (time : Nat)
  /-- One of the things that are due now happens. -/
  | happen (event : Event)
  /-- Someone sets gauges. -/
  | set (values : List (String × Binary64))
  /-- Someone counts. -/
  | count (name : String) (delta : Int64)
  /-- The loops are told to end. -/
  | call
  /-- The polling loop ends. -/
  | leavePolling
  /-- The reporting loop ends. -/
  | leaveReporting

/-- An agent with its timetable. -/
structure Timetable where
  /-- The agent. -/
  agent : Controller
  /-- Have the loops been told to end? -/
  told : Bool
  /-- When there was a poll. -/
  polled : List Nat
  /-- The ticks of the reporting loop. -/
  ticks : List Tick

namespace Timetable

/-- Nothing has happened yet. -/
def start (pace : Pace) : Timetable := ⟨.start pace, false, [], []⟩

/-- May time go on until then? Nothing may be due before, and a loop that is to end may not wait. -/
def mayPass (x : Timetable) (time : Nat) : Bool :=
  decide (x.agent.clock ≤ time) &&
    ([Event.settle, .poll, .report].all fun e =>
      (x.agent.timeOf e).all fun t => decide (time ≤ t)) &&
    (!x.told || (x.agent.pollDue.isNone && !x.agent.reporting.isWaiting))

/-- Something happens now. -/
def happen (env : Surroundings) (x : Timetable) (event : Event) : Timetable where
  agent := x.agent.fire env event x.agent.clock
  told := x.told
  polled := if event = .poll then x.polled ++ [x.agent.clock] else x.polled
  ticks := if event = .report then x.ticks ++ (x.agent.tick? env).toList else x.ticks

/-- One step. One that may not be taken changes nothing. -/
def act (env : Surroundings) (x : Timetable) : Step → Timetable
  | .pass time => if x.mayPass time then { x with agent := { x.agent with clock := time } } else x
  | .happen event =>
    if x.agent.timeOf event = some x.agent.clock then x.happen env event else x
  | .set values =>
    { x with agent := { x.agent with samples := x.agent.samples.setGauges values } }
  | .count name delta =>
    { x with agent := { x.agent with samples := x.agent.samples.addCounter name delta } }
  | .call => { x with told := true }
  | .leavePolling => if x.told then { x with agent := { x.agent with pollDue := none } } else x
  | .leaveReporting =>
    if x.told && x.agent.reporting.isWaiting then
      { x with agent := { x.agent with reporting := .ended } }
    else x

/-- **A run**: steps in any order, from the start. -/
def run (env : Surroundings) (pace : Pace) (steps : List Step) : Timetable :=
  steps.foldl (act env) (start pace)

/-- **The loops have ended**, and whoever has told them so hears of it. -/
structure Over (x : Timetable) : Prop where
  /-- They have been told so. -/
  told : x.told = true
  /-- Polling has ended. -/
  polling : x.agent.pollDue = none
  /-- Reporting has ended. -/
  reporting : x.agent.reporting = .ended

/-- When the next tick is due. -/
def due (pace : Pace) (x : Timetable) : Nat :=
  (x.ticks.getLast?.map (Tick.next pace.report)).getD pace.report

/-- When the last tick lets go of the loop. -/
def back (x : Timetable) : Nat := (x.ticks.getLast?.map Tick.finish).getD 0

theorem mayPass_iff {x : Timetable} {time : Nat} :
    x.mayPass time = true ↔ x.agent.clock ≤ time ∧
      (∀ e t, x.agent.timeOf e = some t → time ≤ t) ∧
        (x.told = true → x.agent.pollDue = none ∧ x.agent.reporting.isWaiting = false) := by
  have hevents : (∀ e ∈ [Event.settle, .poll, .report], ∀ t, x.agent.timeOf e = some t → time ≤ t) ↔
      ∀ e t, x.agent.timeOf e = some t → time ≤ t :=
    ⟨fun h e => h e (by cases e <;> decide), fun h e _ => h e⟩
  rw [← hevents]
  simp only [mayPass, Bool.and_eq_true, decide_eq_true_eq, List.all_eq_true, Option.all_eq_true,
    Bool.or_eq_true, Bool.not_eq_true', Option.isNone_iff_eq_none, and_assoc]
  cases x.told <;> simp

end Timetable

/-! ### What holds all the time -/

/-- **Where the reporting loop is.** It waits for the tick that is due, or for the report of the
last tick. -/
def Timetable.InStep (pace : Pace) (x : Timetable) : Prop :=
  match x.agent.reporting with
  | .waiting due =>
    due = x.due pace ∧ x.back ≤ x.agent.clock ∧ x.agent.clock ≤ max (x.due pace) x.back
  | .sending next batch finish delivered =>
    next = some (x.due pace) ∧ finish = x.back ∧ x.agent.clock ≤ finish ∧
      ∃ t ∈ x.ticks.getLast?, t.batch = batch ∧
        t.outcome.map (fun o => o.failure.isNone) = some delivered
  | .ended => x.told = true ∧ x.back ≤ x.agent.clock

/-- **What holds all the time.** -/
structure Timely (env : Surroundings) (pace : Pace) (x : Timetable) : Prop where
  /-- The intervals stay. -/
  paced : x.agent.pace = pace
  /-- There was a poll at every multiple of the interval. -/
  polled : x.polled = (List.range x.agent.polls).map fun n => (n + 1) * pace.poll
  /-- The next multiple is not passed by, unless polling has ended. -/
  polling : x.agent.pollDue = some ((x.agent.polls + 1) * pace.poll) ∧
      x.agent.clock ≤ (x.agent.polls + 1) * pace.poll ∨
    x.agent.pollDue = none ∧ x.told = true
  /-- The first tick was taken when it was due, one interval after the start. -/
  first : ∀ t ∈ x.ticks.head?, t.due = pace.report ∧ t.taken = pace.report
  /-- Each tick follows the one before it. -/
  chain : x.ticks.IsChain (Tick.Follows pace.report)
  /-- A tick with nothing to report has no report. -/
  silent : ∀ t ∈ x.ticks, t.outcome = none ↔ t.batch = []
  /-- All the others have one. -/
  reports : x.agent.reports =
    (x.ticks.filter fun t => t.outcome.isSome).map fun t => (t.taken, t.batch)
  /-- The reports go as the surroundings have it. -/
  outcomes : x.ticks.filterMap Tick.outcome =
    (List.range x.agent.reports.length).map env.outcome
  /-- The reporting loop is where it should be. -/
  inStep : x.InStep pace

namespace Timely

variable {env : Surroundings} {pace : Pace} {x : Timetable}

theorem start (hpoll : 0 < pace.poll) (hreport : 0 < pace.report) :
    Timely env pace (.start pace) := by
  have hdue {period : Nat} (h : 0 < period) : nextDue period 0 0 = some (0 + period) := by
    rw [nextDue, if_neg h.ne', if_neg (by decide)]
  have hreporting : (Controller.start pace).reporting = .waiting (0 + pace.report) := by
    rw [Controller.start, hdue hreport]
    rfl
  refine ⟨rfl, rfl, .inl ⟨?_, Nat.zero_le _⟩, nofun, .nil, nofun, rfl, rfl, ?_⟩
  · show nextDue pace.poll 0 0 = some ((0 + 1) * pace.poll)
    rw [hdue hpoll, Nat.zero_add, Nat.zero_add, Nat.one_mul]
  · show Timetable.InStep pace ⟨Controller.start pace, false, [], []⟩
    simp only [Timetable.InStep, hreporting]
    exact ⟨Nat.zero_add _, Nat.zero_le _, Nat.zero_le _⟩

/-- The next poll is due at a multiple of the interval, and not in the past. -/
theorem pollDue_eq (h : Timely env pace x) {t : Nat} (ht : x.agent.pollDue = some t) :
    t = (x.agent.polls + 1) * pace.poll ∧ x.agent.clock ≤ t := by
  rcases h.polling with ⟨hpoll, hle⟩ | ⟨hpoll, -⟩
  · obtain rfl := Option.some.inj (hpoll.symm.trans ht)
    exact ⟨rfl, hle⟩
  · rw [hpoll] at ht
    cases ht

/-- **Nothing is overdue.** -/
theorem clock_le (h : Timely env pace x) {e : Event} {t : Nat} (ht : x.agent.timeOf e = some t) :
    x.agent.clock ≤ t := by
  have hstep := h.inStep
  cases e with
  | settle =>
    obtain ⟨next, batch, delivered, hr⟩ := Controller.timeOf_settle_iff.1 ht
    simp only [Timetable.InStep, hr] at hstep
    exact hstep.2.2.1
  | poll => exact (h.pollDue_eq ht).2
  | report =>
    obtain ⟨due, -, rfl⟩ := Controller.timeOf_report_iff.1 ht
    exact le_max_right ..

/-- **Time goes on**, but past nothing that is due. -/
theorem pass (h : Timely env pace x) {time : Nat} (hpass : x.mayPass time = true) :
    Timely env pace { x with agent := { x.agent with clock := time } } := by
  obtain ⟨hclock, hdue, -⟩ := Timetable.mayPass_iff.1 hpass
  have hstep := h.inStep
  refine ⟨h.paced, h.polled, ?_, h.first, h.chain, h.silent, h.reports, h.outcomes, ?_⟩
  · rcases h.polling with ⟨hpoll, -⟩ | hended
    · exact .inl ⟨hpoll, hdue .poll _ hpoll⟩
    · exact .inr hended
  · show Timetable.InStep pace ⟨{ x.agent with clock := time }, x.told, x.polled, x.ticks⟩
    cases hr : x.agent.reporting with
    | waiting due =>
      have htime := hdue .report _ (Controller.timeOf_report_iff.2 ⟨due, hr, rfl⟩)
      simp only [Timetable.InStep, hr] at hstep ⊢
      obtain ⟨rfl, hback, hmax⟩ := hstep
      refine ⟨rfl, hback.trans hclock, htime.trans ?_⟩
      exact max_le (le_max_left ..) hmax
    | sending next batch finish delivered =>
      have htime := hdue .settle finish (Controller.timeOf_settle_iff.2 ⟨_, _, _, hr⟩)
      simp only [Timetable.InStep, hr] at hstep ⊢
      exact ⟨hstep.1, hstep.2.1, htime, hstep.2.2.2⟩
    | ended =>
      simp only [Timetable.InStep, hr] at hstep ⊢
      exact ⟨hstep.1, hstep.2.trans hclock⟩

/-- Samples and the state of the reporting loop may change, if the loop stays in step. -/
theorem frame (h : Timely env pace x) (samples : Samples) (reporting : Reporting)
    (hstep : Timetable.InStep pace
      { x with agent := { x.agent with samples := samples, reporting := reporting } }) :
    Timely env pace
      { x with agent := { x.agent with samples := samples, reporting := reporting } } :=
  ⟨h.paced, h.polled, h.polling, h.first, h.chain, h.silent, h.reports, h.outcomes, hstep⟩

/-- **A report ends** when its tick lets go of the loop, which then waits for the next one. -/
theorem settle (h : Timely env pace x) (ht : x.agent.timeOf .settle = some x.agent.clock) :
    Timely env pace (x.happen env .settle) := by
  have hstep := h.inStep
  obtain ⟨next, batch, delivered, hr⟩ := Controller.timeOf_settle_iff.1 ht
  simp only [Timetable.InStep, hr] at hstep
  obtain ⟨rfl, hback, -, -⟩ := hstep
  have hfire : x.agent.fire env .settle x.agent.clock =
      { x.agent with
        samples := if delivered then x.agent.samples else x.agent.samples.restoreCounters batch
        reporting := .waiting (x.due pace) } := by
    simp only [Controller.fire, Controller.settle, hr]
    rfl
  rw [Timetable.happen, hfire]
  exact h.frame _ _ ⟨rfl, hback.ge, le_max_of_le_right hback.le⟩

/-- **A poll** is at a multiple of the interval. -/
theorem poll (h : Timely env pace x) (hpos : 0 < pace.poll)
    (ht : x.agent.timeOf .poll = some x.agent.clock) : Timely env pace (x.happen env .poll) := by
  have hdue : x.agent.pollDue = some x.agent.clock := ht
  have hclock := (h.pollDue_eq hdue).1
  have hnext : nextDue pace.poll x.agent.clock x.agent.clock =
      some ((x.agent.polls + 1 + 1) * pace.poll) := by
    rw [nextDue, if_neg hpos.ne', if_neg (by omega), Nat.succ_mul (x.agent.polls + 1), ← hclock]
  refine ⟨h.paced, ?_, .inl ⟨?_, ?_⟩, h.first, h.chain, h.silent, h.reports, h.outcomes, h.inStep⟩
  · show x.polled ++ [x.agent.clock] = (List.range (x.agent.polls + 1)).map _
    rw [List.range_succ, List.map_append, ← h.polled, hclock]
    rfl
  · show x.agent.pollDue.bind (fun due => nextDue x.agent.pace.poll due x.agent.clock) = _
    rw [hdue, h.paced]
    exact hnext
  · show x.agent.clock ≤ (x.agent.polls + 1 + 1) * pace.poll
    rw [hclock]
    exact Nat.mul_le_mul_right _ (Nat.le_succ _)

/-- **The tick to which the loop comes** follows the one before it. -/
theorem ticked (h : Timely env pace x) {t : Tick} (hdue : t.due = x.due pace)
    (htaken : t.taken = max t.due x.back) :
    (∀ u ∈ (x.ticks ++ [t]).head?, u.due = pace.report ∧ u.taken = pace.report) ∧
      (x.ticks ++ [t]).IsChain (Tick.Follows pace.report) := by
  have hfirst := h.first
  rw [List.isChain_append, List.head?_append]
  unfold Timetable.due at hdue
  unfold Timetable.back at htaken
  refine ⟨?_, h.chain, .singleton t, ?_⟩
  · cases hticks : x.ticks with
    | nil =>
      rw [hticks] at hdue htaken
      have hself : t.due = pace.report := hdue
      rintro u ⟨⟩
      exact ⟨hself, htaken.trans (hself ▸ Nat.max_zero _)⟩
    | cons u ticks =>
      rw [hticks] at hfirst
      exact hfirst
  · rintro a ha b ⟨⟩
    rw [Option.mem_def.1 ha] at hdue htaken
    exact ⟨hdue, htaken⟩

/-- **The loop comes to a tick.** It hands over what there is to report, and waits for the next tick
if there is nothing. -/
theorem report (h : Timely env pace x) (hpos : 0 < pace.report)
    (ht : x.agent.timeOf .report = some x.agent.clock) :
    Timely env pace (x.happen env .report) := by
  have hstep := h.inStep
  obtain ⟨due, hr, hdue⟩ := Controller.timeOf_report_iff.1 ht
  simp only [Timetable.InStep, hr] at hstep
  obtain ⟨rfl, hback, hmax⟩ := hstep
  obtain ⟨t, htick, hself, htaken, hsilent, houtcome⟩ := Controller.exists_tick env hr
  have hnow : t.taken = max t.due x.back := by
    omega
  obtain ⟨hfirst, hchain⟩ := h.ticked hself hnow
  have hnext : nextDue x.agent.pace.report t.due t.taken = some (t.next pace.report) := by
    rw [h.paced, t.nextDue_eq hpos]
  have hx : x.happen env .report =
      ⟨x.agent.fire env .report x.agent.clock, x.told, x.polled, x.ticks ++ [t]⟩ := by
    rw [Timetable.happen, htick]
    rfl
  rw [hx, Controller.fire_report htick, hnext]
  refine ⟨h.paced, h.polled, h.polling, hfirst, hchain, ?_, ?_, ?_, ?_⟩
  · exact List.forall_mem_append.2 ⟨h.silent, List.forall_mem_singleton.2 hsilent⟩
  · simp only [List.filter_append, List.map_append, ← h.reports]
    cases ho : t.outcome <;> simp [ho]
  · simp only [List.filterMap_append, h.outcomes]
    cases ho : t.outcome with
    | none => simp [ho]
    | some o => simp [ho, List.range_succ, houtcome o ho]
  · have hnow' : x.agent.clock = t.taken := htaken.symm
    cases ho : t.outcome with
    | none =>
      simp only [Timetable.InStep, Reporting.waitFor, Timetable.due, Timetable.back,
        List.getLast?_concat, Option.map_some, Option.getD_some, Tick.finish, ho, hnow']
      exact ⟨trivial, le_rfl, le_max_right _ _⟩
    | some o =>
      simp only [Timetable.InStep, Timetable.due, Timetable.back, List.getLast?_concat,
        Option.map_some, Option.getD_some, Tick.finish, ho, hnow']
      exact ⟨trivial, trivial, Nat.le_add_right _ _, t, rfl, rfl, by rw [ho]; rfl⟩

/-- The reporting loop ends, having been told so. -/
theorem leaveReporting (h : Timely env pace x) (htold : x.told = true)
    (hr : x.agent.reporting.isWaiting = true) :
    Timely env pace { x with agent := { x.agent with reporting := .ended } } := by
  have hstep := h.inStep
  refine h.frame x.agent.samples .ended ⟨htold, ?_⟩
  cases hreporting : x.agent.reporting with
  | waiting due =>
    simp only [Timetable.InStep, hreporting] at hstep
    exact hstep.2.1
  | sending _ _ _ _ => simp [hreporting, Reporting.isWaiting] at hr
  | ended => simp [hreporting, Reporting.isWaiting] at hr

/-- **Whatever happens**, all this goes on to hold. -/
theorem act (h : Timely env pace x) (hpoll : 0 < pace.poll) (hreport : 0 < pace.report)
    (step : Timetable.Step) : Timely env pace (x.act env step) := by
  cases step with
  | pass time =>
    rw [Timetable.act]
    split
    · exact h.pass ‹_›
    · exact h
  | happen event =>
    rw [Timetable.act]
    split
    · rename_i ht
      cases event with
      | settle => exact h.settle ht
      | poll => exact h.poll hpoll ht
      | report => exact h.report hreport ht
    · exact h
  | set values => exact h.frame _ x.agent.reporting h.inStep
  | count name delta => exact h.frame _ x.agent.reporting h.inStep
  | call =>
    refine ⟨h.paced, h.polled, ?_, h.first, h.chain, h.silent, h.reports, h.outcomes, ?_⟩
    · exact h.polling.imp_right fun hended => ⟨hended.1, rfl⟩
    · have hstep := h.inStep
      show Timetable.InStep pace ⟨x.agent, true, x.polled, x.ticks⟩
      cases hr : x.agent.reporting with
      | waiting due =>
        simp only [Timetable.InStep, hr] at hstep ⊢
        exact hstep
      | sending next batch finish delivered =>
        simp only [Timetable.InStep, hr] at hstep ⊢
        exact hstep
      | ended =>
        simp only [Timetable.InStep, hr] at hstep ⊢
        exact ⟨trivial, hstep.2⟩
  | leavePolling =>
    rw [Timetable.act]
    split
    · rename_i htold
      exact ⟨h.paced, h.polled, .inr ⟨rfl, htold⟩, h.first, h.chain, h.silent, h.reports,
        h.outcomes, h.inStep⟩
    · exact h
  | leaveReporting =>
    rw [Timetable.act]
    split
    · rename_i hmay
      obtain ⟨htold, hr⟩ := Bool.and_eq_true_iff.1 hmay
      exact h.leaveReporting htold hr
    · exact h

/-- So it holds behind any steps. -/
theorem foldl_act (h : Timely env pace x) (hpoll : 0 < pace.poll) (hreport : 0 < pace.report)
    (steps : List Timetable.Step) : Timely env pace (steps.foldl (Timetable.act env) x) := by
  induction steps generalizing x with
  | nil => exact h
  | cons step steps ih => exact ih (h.act hpoll hreport step)

end Timely

/-! ### The loops on their own clock -/

namespace Controller

/-- Of two things the earlier one is taken. -/
theorem exists_sooner {a b : Option (Event × Nat)} {p : Event × Nat} (h : p ∈ a ∨ p ∈ b) :
    ∃ q ∈ sooner a b, q.2 ≤ p.2 := by
  unfold sooner
  split
  · split
    · rename_i hlt
      refine ⟨_, rfl, ?_⟩
      rcases h with h | h <;> obtain rfl := Option.some.inj h
      · exact hlt.le
      · exact le_rfl
    · rename_i hle
      refine ⟨_, rfl, ?_⟩
      rcases h with h | h <;> obtain rfl := Option.some.inj h
      · exact le_rfl
      · exact Nat.not_lt.1 hle
  · rcases h with h | h <;> cases h
    exact ⟨_, rfl, le_rfl⟩
  · rcases h with h | h
    · cases h
    · exact ⟨p, h, le_rfl⟩

/-- **What happens next happens first.** -/
theorem exists_next? {c : Controller} {e : Event} {t : Nat} (h : c.timeOf e = some t) :
    ∃ p ∈ c.next?, p.2 ≤ t := by
  have hat : (e, t) ∈ (c.timeOf e).map fun t => (e, t) := Option.mem_map_of_mem _ h
  have hloops {p : Event × Nat} (hp : p ∈ (c.timeOf .settle).map (fun t => (Event.settle, t)) ∨
      p ∈ (c.timeOf .poll).map fun t => (Event.poll, t)) : ∃ q ∈ c.next?, q.2 ≤ p.2 := by
    obtain ⟨q, hq, hle⟩ := exists_sooner hp
    obtain ⟨q', hq', hle'⟩ := exists_sooner (.inl hq)
    exact ⟨q', hq', hle'.trans hle⟩
  cases e with
  | settle => exact hloops (.inl hat)
  | poll => exact hloops (.inr hat)
  | report => exact exists_sooner (.inr hat)

/-- What happens does not depend on what the clock has said before. -/
theorem fire_clock (env : Surroundings) (c : Controller) (clock : Nat) (e : Event) (t : Nat) :
    ({ c with clock := clock } : Controller).fire env e t = c.fire env e t := by
  cases e with
  | settle => simp only [fire, settle]
  | poll => rfl
  | report => simp only [fire, report]

/-- When the time has come to it, a thing is to happen then. -/
theorem timeOf_clock {c : Controller} {e : Event} {t : Nat} (h : c.timeOf e = some t) :
    ({ c with clock := t } : Controller).timeOf e = some t := by
  cases e with
  | settle => exact h
  | poll => exact h
  | report =>
    obtain ⟨due, hr, rfl⟩ := timeOf_report_iff.1 h
    exact timeOf_report_iff.2 ⟨due, hr, max_eq_right (le_max_left ..)⟩

end Controller

namespace Timetable

variable {env : Surroundings} {pace : Pace} {x : Timetable}

/-- As long as nothing happens before, time may go on. -/
theorem mayPass_of_next? (htold : x.told = false) {time : Nat}
    (hclock : x.agent.clock ≤ time) (hnext : ∀ p ∈ x.agent.next?, time ≤ p.2) :
    x.mayPass time = true := by
  refine mayPass_iff.2 ⟨hclock, fun e t ht => ?_, fun hcontra => ?_⟩
  · obtain ⟨p, hp, hle⟩ := Controller.exists_next? ht
    exact (hnext p hp).trans hle
  · rw [htold] at hcontra
    cases hcontra

/-- What happens next is done in two steps: time goes on until then, and it happens. -/
theorem exists_steps_fire (h : Timely env pace x) (htold : x.told = false) {e : Event} {t : Nat}
    (hnext : x.agent.next? = some (e, t)) :
    ∃ steps : List Step, (steps.foldl (act env) x).agent = x.agent.fire env e t ∧
      (steps.foldl (act env) x).told = false := by
  have ht := Controller.timeOf_of_next? hnext
  have hpass : x.mayPass t = true := mayPass_of_next? htold (h.clock_le ht) fun p hp =>
    (Option.some.inj (hnext.symm.trans hp)) ▸ le_rfl
  refine ⟨[.pass t, .happen e], ?_⟩
  simp only [List.foldl_cons, List.foldl_nil, act, hpass, if_true, Controller.timeOf_clock ht,
    happen, Controller.fire_clock, htold]
  exact ⟨trivial, trivial⟩

/-- **The loops on their own clock** take such steps and no others: wherever they get until some
time, a run gets as well. -/
theorem exists_steps_runUntil (hpoll : 0 < pace.poll) (hreport : 0 < pace.report)
    (h : Timely env pace x) (htold : x.told = false) (time : Nat) :
    ∃ steps : List Step, (steps.foldl (act env) x).agent = x.agent.runUntil env time := by
  -- one event after the other, as the clock comes to them
  generalize hc : x.agent = c
  fun_induction Controller.runUntil env time c generalizing x with
  | case1 c e t hnext hle ih =>
    subst hc
    obtain ⟨first, hagent, hfirst⟩ := exists_steps_fire h htold hnext
    obtain ⟨steps, hrun⟩ := ih (h.foldl_act hpoll hreport first) hfirst hagent
    exact ⟨first ++ steps, by rw [List.foldl_append, hrun]⟩
  | case2 c e t hnext hlt =>
    subst hc
    refine ⟨[.pass (max x.agent.clock time)], ?_⟩
    have hclock := h.clock_le (Controller.timeOf_of_next? hnext)
    have hpass := mayPass_of_next? htold (le_max_left _ time) fun p hp =>
      (Option.some.inj (hnext.symm.trans hp)) ▸ max_le hclock (Nat.not_le.1 hlt).le
    simp only [List.foldl_cons, List.foldl_nil, act, hpass, if_true]
  | case3 c hnext =>
    subst hc
    refine ⟨[.pass (max x.agent.clock time)], ?_⟩
    have hpass := mayPass_of_next? htold (le_max_left _ time) fun p hp =>
      absurd (hnext.symm.trans hp) (by simp)
    simp only [List.foldl_cons, List.foldl_nil, act, hpass, if_true]

/-- **So does the end of the loops**, with the report on its way waited for. -/
theorem exists_steps_stop (h : Timely env pace x) :
    ∃ steps : List Step, ((Step.call :: steps).foldl (act env) x).agent = x.agent.stop ∧
      ((Step.call :: steps).foldl (act env) x).Over := by
  have hstep := h.inStep
  obtain ⟨⟨own, clock, samples, polls, pollDue, reporting, reports⟩, told, polled, ticks⟩ := x
  cases reporting with
  | waiting due => exact ⟨[.leavePolling, .leaveReporting], rfl, rfl, rfl, rfl⟩
  | ended => exact ⟨[.leavePolling], rfl, rfl, rfl, rfl⟩
  | sending next batch finish delivered =>
    obtain ⟨hnext, -, hclock, -⟩ := hstep
    obtain ⟨due, rfl⟩ : ∃ due, next = some due := ⟨_, hnext⟩
    -- with polling at an end, time may go on until the report has ended
    have hpass : mayPass ⟨⟨own, clock, samples, polls, none,
        .sending (some due) batch finish delivered, reports⟩, true, polled, ticks⟩ finish =
          true := by
      refine mayPass_iff.2 ⟨hclock, fun e t ht => ?_, fun _ => ⟨rfl, rfl⟩⟩
      cases e with
      | settle => exact (Option.some.inj ht).le
      | poll => cases ht
      | report => cases ht
    refine ⟨[.leavePolling, .pass finish, .happen .settle, .leaveReporting], ?_⟩
    simp only [List.foldl_cons, List.foldl_nil, act, if_true, hpass, Controller.timeOf, happen,
      Controller.fire, Controller.settle, Controller.stop, max_eq_right hclock,
      Reporting.waitFor, Reporting.isWaiting, Bool.and_self]
    exact ⟨trivial, rfl, rfl, rfl⟩

/-! ### The end of a report, and of the loops -/

/-- Whatever happens at an instant, it is still the same instant. -/
theorem clock_fire (env : Surroundings) (c : Controller) (e : Event) (t : Nat) :
    (c.fire env e t).clock = t := by
  cases e with
  | settle =>
    simp only [Controller.fire, Controller.settle]
    split <;> rfl
  | poll => rfl
  | report =>
    simp only [Controller.fire, Controller.report]
    split
    · split <;> rfl
    · rfl

/-- **Time does not go back.** -/
theorem clock_le_act (env : Surroundings) (x : Timetable) (step : Step) :
    x.agent.clock ≤ (x.act env step).agent.clock := by
  cases step with
  | pass time =>
    rw [act]
    split
    · exact (mayPass_iff.1 ‹_›).1
    · exact le_rfl
  | happen event =>
    rw [act]
    split
    · exact (clock_fire env x.agent event x.agent.clock).ge
    · exact le_rfl
  | leavePolling | leaveReporting =>
    rw [act]
    split <;> exact le_rfl
  | set | count | call => exact le_rfl

theorem clock_le_foldl_act (env : Surroundings) (x : Timetable) (steps : List Step) :
    x.agent.clock ≤ (steps.foldl (act env) x).agent.clock := by
  induction steps generalizing x with
  | nil => exact le_rfl
  | cons step steps ih => exact (clock_le_act env x step).trans (ih (x.act env step))

/-- **A report on its way stays there**, unless it ends at its time. -/
theorem act_of_sending (env : Surroundings) {next : Option Nat} {batch : List Metric}
    {finish : Nat} {delivered : Bool}
    (hr : x.agent.reporting = .sending next batch finish delivered) (step : Step) :
    (x.act env step).agent.reporting = .sending next batch finish delivered ∨
      step = .happen .settle ∧ x.agent.clock = finish := by
  cases step with
  | pass time =>
    rw [act]
    split <;> exact .inl hr
  | happen event =>
    rw [act]
    split
    · rename_i ht
      cases event with
      | settle =>
        obtain ⟨_, _, _, hr'⟩ := Controller.timeOf_settle_iff.1 ht
        rw [hr] at hr'
        exact .inr ⟨rfl, (Reporting.sending.inj hr').2.2.1.symm⟩
      | poll => exact .inl hr
      | report =>
        obtain ⟨_, hr', -⟩ := Controller.timeOf_report_iff.1 ht
        rw [hr] at hr'
        cases hr'
    · exact .inl hr
  | set | count | call => exact .inl hr
  | leavePolling =>
    rw [act]
    split <;> exact .inl hr
  | leaveReporting =>
    have hwaiting : x.agent.reporting.isWaiting = false := by
      rw [hr]
      rfl
    rw [act, hwaiting, Bool.and_false, if_neg Bool.false_ne_true]
    exact .inl hr

/-- **So if it is not there any more it has ended**, somewhere among the steps. -/
theorem exists_settle {next : Option Nat} {batch : List Metric} {finish : Nat} {delivered : Bool}
    (hr : x.agent.reporting = .sending next batch finish delivered) {steps : List Step}
    (hend : (steps.foldl (act env) x).agent.reporting ≠ .sending next batch finish delivered) :
    ∃ before behind, steps = before ++ .happen .settle :: behind ∧
      (before.foldl (act env) x).agent.reporting = .sending next batch finish delivered ∧
        (before.foldl (act env) x).agent.clock = finish := by
  induction steps generalizing x with
  | nil => exact absurd hr hend
  | cons step steps ih =>
    rcases act_of_sending env hr step with hstay | ⟨rfl, hclock⟩
    · obtain ⟨before, behind, rfl, hsame, hclock⟩ := ih hstay hend
      exact ⟨step :: before, behind, rfl, hsame, hclock⟩
    · exact ⟨[], steps, rfl, hr, hclock⟩

/-- What is left of a report when it has ended: if it failed its counters have been put back. -/
theorem act_settle {next : Option Nat} {batch : List Metric} {delivered : Bool}
    (hr : x.agent.reporting = .sending next batch x.agent.clock delivered) :
    (x.act env (.happen .settle)).agent.samples =
      if delivered then x.agent.samples else x.agent.samples.restoreCounters batch := by
  rw [act, if_pos (Controller.timeOf_settle_iff.2 ⟨_, _, _, hr⟩)]
  simp only [happen, Controller.fire, Controller.settle, hr]

/-- **Nothing happens behind the end of the loops.** -/
theorem Over.act (env : Surroundings) (h : x.Over) (step : Step) : (x.act env step).Over ∧
    (x.act env step).polled = x.polled ∧ (x.act env step).ticks = x.ticks ∧
      (x.act env step).agent.reports = x.agent.reports := by
  obtain ⟨htold, hpolling, hreporting⟩ := h
  cases step with
  | pass time =>
    rw [Timetable.act]
    split <;> exact ⟨⟨htold, hpolling, hreporting⟩, rfl, rfl, rfl⟩
  | happen event =>
    have htime : x.agent.timeOf event ≠ some x.agent.clock := by
      cases event <;> simp [Controller.timeOf, hpolling, hreporting]
    rw [Timetable.act, if_neg htime]
    exact ⟨⟨htold, hpolling, hreporting⟩, rfl, rfl, rfl⟩
  | set | count => exact ⟨⟨htold, hpolling, hreporting⟩, rfl, rfl, rfl⟩
  | call => exact ⟨⟨rfl, hpolling, hreporting⟩, rfl, rfl, rfl⟩
  | leavePolling =>
    rw [Timetable.act, if_pos htold]
    exact ⟨⟨htold, rfl, hreporting⟩, rfl, rfl, rfl⟩
  | leaveReporting =>
    have hwaiting : x.agent.reporting.isWaiting = false := by
      rw [hreporting]
      rfl
    rw [Timetable.act, hwaiting, Bool.and_false, if_neg Bool.false_ne_true]
    exact ⟨⟨htold, hpolling, hreporting⟩, rfl, rfl, rfl⟩

theorem Over.foldl_act (h : x.Over) (steps : List Step) :
    (steps.foldl (Timetable.act env) x).Over ∧
      (steps.foldl (Timetable.act env) x).polled = x.polled ∧
        (steps.foldl (Timetable.act env) x).ticks = x.ticks ∧
          (steps.foldl (Timetable.act env) x).agent.reports = x.agent.reports := by
  induction steps generalizing x with
  | nil => exact ⟨h, rfl, rfl, rfl⟩
  | cons step steps ih =>
    obtain ⟨hover, hpolled, hticks, hreports⟩ := h.act env step
    obtain ⟨hover', hpolled', hticks', hreports'⟩ := ih hover
    exact ⟨hover', hpolled'.trans hpolled, hticks'.trans hticks, hreports'.trans hreports⟩

end Timetable

/-! ### The timetable -/

/-- **Any two ticks of a chain**: the earlier one has let go of the loop, and is an interval before
the later one, but for the grace. -/
theorem Tick.pairwise_of_isChain {period : Nat} {ticks : List Tick}
    (h : ticks.IsChain (Tick.Follows period)) :
    ticks.Pairwise fun a b => a.finish ≤ b.taken ∧ a.taken + period ≤ b.taken + grace := by
  have htrans : IsTrans Tick fun a b =>
      a.finish ≤ b.taken ∧ a.taken + period ≤ b.taken + grace := by
    refine ⟨fun a b c hab hbc => ?_⟩
    have hb := b.taken_le_finish
    omega
  refine List.isChain_iff_pairwise.1 (h.imp fun a b hab => ?_)
  obtain ⟨hdue, htaken⟩ := hab
  have hnext := a.le_next period
  omega

open Timetable in
/-- **The loops keep to their timetable.** -/
structure KeepsTime (env : Surroundings) (pace : Pace) (x : Timetable) : Prop where
  /-- There was a poll at every multiple of the interval and at no other time, -/
  polls : x.polled = (List.range x.agent.polls).map fun n => (n + 1) * pace.poll
  /-- and until the loops are told to end none is left out. -/
  pollsInTime : x.told = false → x.agent.clock ≤ (x.agent.polls + 1) * pace.poll
  /-- The first tick is one interval after the start. -/
  first : ∀ t ∈ x.ticks.head?, t.due = pace.report ∧ t.taken = pace.report
  /-- Each of the others is taken when it is due or when the report before it has ended, -/
  recurrence : x.ticks.IsChain (Tick.Follows pace.report)
  /-- which is one interval behind the tick before it, or when the report has ended, if that tick
  was in time or late beyond the grace. -/
  unhurried : x.ticks.IsChain fun a b => a.taken = a.due ∨ a.due + grace < a.taken →
    b.taken = max (a.taken + pace.report) a.finish
  /-- Until the loops are told to end no tick is left out. -/
  ticksInTime : x.told = false → x.agent.clock ≤ max (x.due pace) x.back
  /-- Nothing is handed over where there is nothing to report, and what there is otherwise. -/
  reports : (∀ t ∈ x.ticks, t.outcome = none ↔ t.batch = []) ∧
    x.agent.reports = (x.ticks.filter fun t => t.outcome.isSome).map fun t => (t.taken, t.batch)
  /-- The reports go as the surroundings have it. -/
  outcomes : x.ticks.filterMap Tick.outcome = (List.range x.agent.reports.length).map env.outcome
  /-- **Reports do not overlap**, and there is an interval between two of them, but for the
  grace. -/
  apart : x.ticks.Pairwise fun a b => a.finish ≤ b.taken ∧ a.taken + pace.report ≤ b.taken + grace
  /-- The report on its way is that of the last tick. -/
  onItsWay : ∀ {next batch finish delivered},
    x.agent.reporting = .sending next batch finish delivered →
      ∃ t ∈ x.ticks.getLast?, t.batch = batch ∧ t.finish = finish ∧
        t.outcome.map (fun o => o.failure.isNone) = some delivered
  /-- **Whoever has told the loops to end does not hear of it before this report has ended**, and if
  it failed its counters have been put back. -/
  ended : ∀ {next batch finish delivered},
    x.agent.reporting = .sending next batch finish delivered →
      ∀ steps : List Step, (steps.foldl (act env) x).Over →
        finish ≤ (steps.foldl (act env) x).agent.clock ∧
          ∃ before behind, steps = before ++ .happen .settle :: behind ∧
            (before.foldl (act env) x).agent.clock = finish ∧
              ((before ++ [.happen .settle]).foldl (act env) x).agent.samples =
                if delivered then (before.foldl (act env) x).agent.samples
                else (before.foldl (act env) x).agent.samples.restoreCounters batch
  /-- **Nothing begins afterwards.** -/
  afterwards : x.Over → ∀ steps : List Step, (steps.foldl (act env) x).polled = x.polled ∧
    (steps.foldl (act env) x).ticks = x.ticks ∧
      (steps.foldl (act env) x).agent.reports = x.agent.reports
  /-- The loops on their own clock take such steps, -/
  waits : x.told = false → ∀ time, ∃ steps : List Step,
    (steps.foldl (act env) x).agent = x.agent.runUntil env time
  /-- and they can be told to end at any time, and do so. -/
  stops : ∃ steps : List Step, ((Step.call :: steps).foldl (act env) x).agent = x.agent.stop ∧
    ((Step.call :: steps).foldl (act env) x).Over

/-- **In every run the loops keep to their timetable.** -/
theorem Timetable.keepsTime_run {pace : Pace} (hpoll : 0 < pace.poll) (hreport : 0 < pace.report)
    (env : Surroundings) (steps : List Step) : KeepsTime env pace (run env pace steps) := by
  have h : Timely env pace (run env pace steps) :=
    (Timely.start hpoll hreport).foldl_act hpoll hreport steps
  generalize run env pace steps = x at h
  have hstep := h.inStep
  constructor
  case polls => exact h.polled
  case pollsInTime =>
    intro htold
    rcases h.polling with ⟨-, hle⟩ | ⟨-, hended⟩
    · exact hle
    · rw [htold] at hended
      cases hended
  case first => exact h.first
  case recurrence => exact h.chain
  case unhurried => exact h.chain.imp fun a b hab => hab.taken_eq
  case ticksInTime =>
    intro htold
    cases hr : x.agent.reporting with
    | waiting due =>
      simp only [InStep, hr] at hstep
      exact hstep.2.2
    | sending next batch finish delivered =>
      simp only [InStep, hr] at hstep
      obtain ⟨-, rfl, hclock, -⟩ := hstep
      exact le_max_of_le_right hclock
    | ended =>
      simp only [InStep, hr, htold] at hstep
      cases hstep.1
  case reports => exact ⟨h.silent, h.reports⟩
  case outcomes => exact h.outcomes
  case apart => exact Tick.pairwise_of_isChain h.chain
  case onItsWay =>
    intro next batch finish delivered hr
    simp only [InStep, hr] at hstep
    obtain ⟨-, rfl, -, t, ht, hbatch, houtcome⟩ := hstep
    refine ⟨t, ht, hbatch, ?_, houtcome⟩
    rw [back, Option.mem_def.1 ht]
    rfl
  case ended =>
    intro next batch finish delivered hr steps hover
    obtain ⟨before, behind, rfl, hsame, rfl⟩ := exists_settle hr (by rw [hover.reporting]; nofun)
    refine ⟨?_, before, behind, rfl, rfl, ?_⟩
    · rw [List.foldl_append]
      exact clock_le_foldl_act ..
    · rw [List.foldl_append]
      exact act_settle hsame
  case afterwards => exact fun hover steps => (hover.foldl_act steps).2
  case waits => exact fun htold time => exists_steps_runUntil hpoll hreport h htold time
  case stops => exact exists_steps_stop h

/-- A gauge at every poll, and a first report that goes somehow. -/
def firstReport (outcome : ReportOutcome) : Surroundings where
  gauges _ := [("g", .ofNat 1)]
  outcome n := if n = 0 then outcome else ⟨0, none⟩

/-- The loops are told to end while a report is on its way that takes a hundred milliseconds and
fails. They end with it, and both polls are still to be reported. -/
theorem Timetable.keepsTime_failingReport :
    let env := firstReport ⟨100, some (.transport "refused")⟩
    let steps : List Step :=
      [.pass 35, .happen .poll, .pass 40, .happen .report, .pass 70, .happen .poll]
    let stopped : List Step := [.call, .leavePolling, .pass 140, .happen .settle, .leaveReporting]
    let x := run env ⟨35, 40⟩ steps
    (0 < 35 ∧ 0 < 40) ∧ KeepsTime env ⟨35, 40⟩ x ∧
      x.agent.reports.map Prod.fst = [40] ∧ x.agent.samples.counter pollCount = some 1 ∧
        (stopped.foldl (act env) x).Over ∧ (stopped.foldl (act env) x).agent.clock = 140 ∧
          (stopped.foldl (act env) x).agent.samples.counter pollCount = some 2 := by
  refine ⟨⟨by decide, by decide⟩, Timetable.keepsTime_run (by decide) (by decide) _ _,
    by decide +kernel, by decide +kernel, ⟨by decide +kernel, by decide +kernel, ?_⟩,
    by decide +kernel, by decide +kernel⟩
  rfl

/-! ### A tick that is a little late -/

/-- Polls and ticks, each at its time. The report of the first tick is on its way for three
milliseconds more than an interval. -/
def lateSteps : List Timetable.Step :=
  [.pass 35, .happen .poll, .pass 40, .happen .report, .pass 70, .happen .poll, .pass 83,
    .happen .settle, .happen .report, .happen .settle, .pass 105, .happen .poll, .pass 120,
    .happen .report, .happen .settle]

/-- **The third tick is not put off** by the second one, which is three milliseconds late, and so
comes less than an interval behind it. -/
theorem Timetable.third_tick_lateSteps :
    let x := run (firstReport ⟨43, none⟩) ⟨35, 40⟩ lateSteps
    x.told = false ∧
      (x.ticks.map fun t => (t.due, t.taken, t.finish)) =
        [(40, 40, 83), (80, 83, 83), (120, 120, 120)] ∧
      ¬x.ticks.IsChain (fun a b => b.taken = max (a.taken + 40) a.finish) ∧
        ¬x.ticks.Pairwise fun a b => a.taken + 40 ≤ b.taken := by
  have hticks : ((run (firstReport ⟨43, none⟩) ⟨35, 40⟩ lateSteps).ticks.map
      fun t => (t.due, t.taken, t.finish)) = [(40, 40, 83), (80, 83, 83), (120, 120, 120)] := by
    decide +kernel
  refine ⟨by decide +kernel, hticks, fun hchain => ?_, fun hpairwise => ?_⟩
  · have hmap := (List.isChain_map
      (R := fun p q : Nat × Nat × Nat => q.2.1 = max (p.2.1 + 40) p.2.2)
      fun t : Tick => (t.due, t.taken, t.finish)).2 hchain
    rw [hticks] at hmap
    revert hmap
    decide
  · have hmap := (List.pairwise_map (R := fun p q : Nat × Nat × Nat => p.2.1 + 40 ≤ q.2.1)
      (f := fun t : Tick => (t.due, t.taken, t.finish))).2 hpairwise
    rw [hticks] at hmap
    revert hmap
    decide

end Telemetry
