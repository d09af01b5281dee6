import Mathlib
import Telemetry.Agent.Delivery

/-!
# Attempts keep to their schedule

An operation is called until a call of it ends the run, or until the pauses of the schedule are
used up. What a call comes to depends on what the calls and pauses in front of it have left, so an
operation has a sequence of outcomes, one for every call that there could be (`Operation.outcome`),
and which of them is the last can be read off that sequence alone (`Backoff.lastCall`): the first
one that is a value or an error not worth another attempt, or the one behind the last pause. All
that a run does is told by this number. The pauses are those in front of it, the errors are those
of all outcomes up to it, and the result is its own.

A run is told by its state, so an operation that notes down its calls and its pauses
(`Operation.noted`) is run like the one that does not, and what it has noted in the end is when it
was called and when it was not.

* `runFrom_eq`: a run in terms of its last call, by one induction along the pauses;
* `Operation.before_noted`: what has been noted in front of a call;
* `Backoff.obeys`: everything about a run;
* `Delivery.state_send_recorded`: what a delivery sends and hears, attempt by attempt;
* `Delivery.triesLostAgain`: as long as there are pauses, what got lost is sent again, and nothing
  else is;
* `keepsToSchedule`: all of this together.
-/

namespace Telemetry

variable {ε σ α : Type}

/-! ### Operations and their outcomes -/

/-- An operation that is to be tried, with the state that it works on. -/
structure Operation (ε σ α : Type) where
  /-- What a call does. -/
  call : σ → Except ε α × σ
  /-- What a pause does to the state. -/
  pause : Nat → σ → σ
  /-- The state in front of the first call. -/
  start : σ

namespace Operation

/-- The state in front of a call, if no call before it ends the run. -/
def before (op : Operation ε σ α) (pauses : List Nat) : Nat → σ
  | 0 => op.start
  | i + 1 => op.pause (pauses.getD i 0) (op.call (op.before pauses i)).2

/-- **What a call comes to**, if there is such a call. -/
def outcome (op : Operation ε σ α) (pauses : List Nat) (i : Nat) : Except ε α :=
  (op.call (op.before pauses i)).1

/-- The operation as it goes on behind its first call and a pause. -/
def resumed (op : Operation ε σ α) (pause : Nat) : Operation ε σ α :=
  { op with start := op.pause pause (op.call op.start).2 }

theorem before_resumed (op : Operation ε σ α) (pause : Nat) (pauses : List Nat) (i : Nat) :
    (op.resumed pause).before pauses i = op.before (pause :: pauses) (i + 1) := by
  induction i with
  | zero => rfl
  | succ i ih =>
    rw [before, ih]
    rfl

theorem outcome_resumed (op : Operation ε σ α) (pause : Nat) (pauses : List Nat) (i : Nat) :
    (op.resumed pause).outcome pauses i = op.outcome (pause :: pauses) (i + 1) := by
  rw [outcome, before_resumed]
  rfl

end Operation

/-! ### The last call -/

/-- An outcome ends a run: it is a value, or an error that is not worth another attempt. -/
def endsRun (retriable : ε → Bool) : Except ε α → Bool
  | .ok _ => true
  | .error e => !retriable e

/-- The first of some outcomes that ends a run, or their number if none of them does. -/
def firstEnd (retriable : ε → Bool) (outcomes : Nat → Except ε α) (count : Nat) : Nat :=
  (List.range count).findIdx fun i => endsRun retriable (outcomes i)

/-- The error that an outcome is, if it is one. -/
def errorOf? : Except ε α → Option ε
  | .ok _ => none
  | .error e => some e

/-- The errors among outcomes. -/
def errorsOf (outcomes : List (Except ε α)) : List ε := outcomes.filterMap errorOf?

section

variable {retriable : ε → Bool} {outcomes : Nat → Except ε α} {count i : Nat}

theorem firstEnd_le : firstEnd retriable outcomes count ≤ count :=
  List.findIdx_le_length.trans_eq List.length_range

theorem firstEnd_succ_of_ends (h : endsRun retriable (outcomes 0) = true) :
    firstEnd retriable outcomes (count + 1) = 0 := by
  rw [firstEnd, List.range_succ_eq_map, List.findIdx_cons, h, cond_true]

theorem firstEnd_succ_of_not_ends (h : endsRun retriable (outcomes 0) = false) :
    firstEnd retriable outcomes (count + 1) =
      firstEnd retriable (fun i => outcomes (i + 1)) count + 1 := by
  rw [firstEnd, List.range_succ_eq_map, List.findIdx_cons, h, cond_false, List.findIdx_map]
  rfl

/-- What is found before the end of the outcomes ends a run. -/
theorem endsRun_firstEnd (h : firstEnd retriable outcomes count < count) :
    endsRun retriable (outcomes (firstEnd retriable outcomes count)) = true := by
  have hlength : firstEnd retriable outcomes count < (List.range count).length :=
    h.trans_eq List.length_range.symm
  have hfound : endsRun retriable (outcomes ((List.range count).get ⟨_, hlength⟩)) = true :=
    List.findIdx_getElem (w := hlength)
  rwa [List.get_eq_getElem, List.getElem_range] at hfound

/-- In front of the last call there are only errors that are worth another attempt. -/
theorem exists_error_of_lt_firstEnd (h : i < firstEnd retriable outcomes count) :
    ∃ e, outcomes i = .error e ∧ retriable e = true := by
  have hnot := List.not_of_lt_findIdx h
  rw [List.getElem_range] at hnot
  cases ho : outcomes i with
  | ok a =>
    rw [ho] at hnot
    cases hnot
  | error e =>
    rw [ho] at hnot
    exact ⟨e, rfl, by simpa [endsRun] using hnot⟩

end

@[simp] theorem errorsOf_nil : errorsOf ([] : List (Except ε α)) = [] := rfl

@[simp] theorem errorsOf_cons_error (e : ε) (results : List (Except ε α)) :
    errorsOf (.error e :: results) = e :: errorsOf results := rfl

theorem errorsOf_map_error (errors : List ε) :
    errorsOf (errors.map (Except.error : ε → Except ε α)) = errors := by
  rw [errorsOf, List.filterMap_map]
  exact List.filterMap_some

/-- Where there are only errors, no outcome is left out. -/
theorem map_error_errorsOf {results : List (Except ε α)}
    (h : ∀ r ∈ results, ∃ e, r = .error e) : (errorsOf results).map Except.error = results := by
  induction results with
  | nil => rfl
  | cons r results ih =>
    obtain ⟨e, rfl⟩ := h r List.mem_cons_self
    rw [errorsOf_cons_error, List.map_cons, ih fun r hr => h r (List.mem_cons_of_mem _ hr)]

/-- The last error is found in both ways. -/
theorem RetryError.intoLast_eq_last (e : RetryError ε) : e.intoLast = e.last := by
  rcases List.eq_nil_or_concat e.errors with h | ⟨errors, x, h⟩
  · rw [intoLast, last, h]
    rfl
  · rw [intoLast, last, h, List.concat_eq_append, List.foldl_concat, List.getLast?_concat]

/-- The last of the errors that some outcomes are is the last of these outcomes. -/
theorem RetryError.exists_last (e : RetryError ε) {outcomes : Nat → Except ε α} {last : Nat}
    (h : e.errors.map Except.error = (List.range (last + 1)).map outcomes) :
    ∃ x, e.last = some x ∧ outcomes last = .error x := by
  have hlast := congrArg List.getLast? h
  rw [List.range_succ, List.map_append, List.map_singleton, List.getLast?_concat,
    List.getLast?_map] at hlast
  obtain ⟨x, hx, houtcome⟩ := Option.map_eq_some_iff.1 hlast
  exact ⟨x, hx, houtcome.symm⟩

/-! ### Runs -/

/-- A run that ends with a call, behind errors and pauses so far, which are held in reverse. -/
def Operation.endingAt (op : Operation ε σ α) (pauses : List Nat) (errors : List ε)
    (slept : List Nat) (last : Nat) : Run ε σ α where
  result := match op.outcome pauses last with
    | .ok a => .ok a
    | .error _ => .error
        ⟨errors.reverse ++ errorsOf ((List.range (last + 1)).map (op.outcome pauses))⟩
  state := (op.call (op.before pauses last)).2
  slept := slept.reverse ++ pauses.take last

/-- Behind a call that failed and a pause, the rest of a run is a run of its own. -/
theorem Operation.endingAt_resumed {op : Operation ε σ α} {pause : Nat} {pauses : List Nat}
    {e : ε} (h : op.outcome (pause :: pauses) 0 = .error e) (errors : List ε) (slept : List Nat)
    (last : Nat) :
    (op.resumed pause).endingAt pauses (e :: errors) (pause :: slept) last =
      op.endingAt (pause :: pauses) errors slept (last + 1) := by
  have houtcomes : (op.resumed pause).outcome pauses =
      fun i => op.outcome (pause :: pauses) (i + 1) :=
    funext fun i => op.outcome_resumed pause pauses i
  have herrors : errorsOf ((List.range (last + 1 + 1)).map (op.outcome (pause :: pauses))) = e ::
      errorsOf ((List.range (last + 1)).map fun i => op.outcome (pause :: pauses) (i + 1)) := by
    rw [List.range_succ_eq_map, List.map_cons, List.map_map, h]
    rfl
  simp only [endingAt, houtcomes, before_resumed, herrors, List.reverse_cons, List.append_assoc,
    List.singleton_append, List.take_succ_cons]
  rfl

/-- **A run is told by its last call.** -/
theorem runFrom_eq (retriable : ε → Bool) (op : Operation ε σ α) (pauses : List Nat)
    (errors : List ε) (slept : List Nat) :
    Backoff.runFrom retriable op.call op.pause pauses errors slept op.start =
      op.endingAt pauses errors slept
        (firstEnd retriable (op.outcome pauses) pauses.length) := by
  induction pauses generalizing op errors slept with
  | nil =>
    rw [Backoff.runFrom]
    rcases hcall : op.call op.start with ⟨e | a, s⟩ <;>
      simp [firstEnd, Operation.endingAt, Operation.outcome, Operation.before, hcall]
  | cons pause pauses ih =>
    have hfirst : op.outcome (pause :: pauses) 0 = (op.call op.start).1 := rfl
    rw [Backoff.runFrom, List.length_cons]
    rcases hcall : op.call op.start with ⟨e | a, s⟩
    · rw [hcall] at hfirst
      cases hretriable : retriable e with
      | true =>
        have hnot : endsRun retriable (op.outcome (pause :: pauses) 0) = false := by
          rw [hfirst, endsRun, hretriable, Bool.not_true]
        have hrest := ih (op.resumed pause) (e :: errors) (pause :: slept)
        rw [op.endingAt_resumed hfirst,
          funext fun i => op.outcome_resumed pause pauses i] at hrest
        rw [firstEnd_succ_of_not_ends hnot, ← hrest]
        simp only [hretriable, if_true, Operation.resumed, hcall]
      | false =>
        have hends : endsRun retriable (op.outcome (pause :: pauses) 0) = true := by
          rw [hfirst, endsRun, hretriable, Bool.not_false]
        rw [firstEnd_succ_of_ends hends]
        simp [hretriable, Operation.endingAt, hfirst, Operation.before, hcall]
    · rw [hcall] at hfirst
      have hends : endsRun retriable (op.outcome (pause :: pauses) 0) = true := by
        rw [hfirst, endsRun]
      rw [firstEnd_succ_of_ends hends]
      simp [Operation.endingAt, hfirst, Operation.before, hcall]

/-! ### When an operation is called -/

namespace Operation

/-- A mark on the line of time that an operation draws. -/
inductive Mark (ε α : Type) where
  /-- A call, and what it came to. -/
  | called (outcome : Except ε α)
  /-- A pause of so many milliseconds. -/
  | paused (duration : Nat)

/-- Is it the mark of a call? -/
def Mark.isCall : Mark ε α → Bool
  | .called _ => true
  | .paused _ => false

/-- The operation as it draws a line of time beside its state. -/
def noted (op : Operation ε σ α) : Operation ε (σ × List (Mark ε α)) α where
  call := fun (s, line) => ((op.call s).1, (op.call s).2, line ++ [.called (op.call s).1])
  pause := fun duration (s, line) => (op.pause duration s, line ++ [.paused duration])
  start := (op.start, [])

/-- The line of time in front of a call: all calls before it, and behind each of them its pause. -/
def lineBefore (op : Operation ε σ α) (pauses : List Nat) (i : Nat) : List (Mark ε α) :=
  (List.range i).flatMap fun k => [.called (op.outcome pauses k), .paused (pauses.getD k 0)]

/-- **What has been drawn in front of a call.** -/
theorem before_noted (op : Operation ε σ α) (pauses : List Nat) (i : Nat) :
    op.noted.before pauses i = (op.before pauses i, op.lineBefore pauses i) := by
  induction i with
  | zero => rfl
  | succ i ih =>
    have hline : op.lineBefore pauses (i + 1) = op.lineBefore pauses i ++
        [.called (op.outcome pauses i), .paused (pauses.getD i 0)] := by
      rw [lineBefore, List.range_succ, List.flatMap_append, List.flatMap_singleton, lineBefore]
    rw [before, ih, hline, List.append_cons]
    rfl

theorem outcome_noted (op : Operation ε σ α) (pauses : List Nat) :
    op.noted.outcome pauses = op.outcome pauses := by
  funext i
  rw [outcome, before_noted]
  rfl

/-- There is one call for every number below. -/
theorem length_filter_lineBefore (op : Operation ε σ α) (pauses : List Nat) (i : Nat) :
    ((op.lineBefore pauses i).filter Mark.isCall).length = i := by
  induction i with
  | zero => rfl
  | succ i ih =>
    rw [lineBefore] at ih ⊢
    rw [List.range_succ, List.flatMap_append, List.filter_append, List.length_append, ih]
    rfl

end Operation

/-! ### What a run obeys -/

namespace Backoff

/-- An operation tried on a schedule. -/
def carryOut (b : Backoff) (retriable : ε → Bool) (op : Operation ε σ α) : Run ε σ α :=
  b.run retriable op.call op.pause op.start

/-- **The last call of a run**: the first one that comes to a value or to an error not worth
another attempt, or if there is none in front of it, the one behind the last pause. -/
def lastCall (b : Backoff) (retriable : ε → Bool) (op : Operation ε σ α) : Nat :=
  firstEnd retriable (op.outcome b.pauses) b.pauses.length

theorem carryOut_eq (b : Backoff) (retriable : ε → Bool) (op : Operation ε σ α) :
    b.carryOut retriable op = op.endingAt b.pauses [] [] (b.lastCall retriable op) :=
  runFrom_eq retriable op b.pauses [] []

/-- **What a run on a schedule obeys**, told by the number of its last call, from zero. -/
structure Obeys (b : Backoff) (retriable : ε → Bool) (op : Operation ε σ α) (last : Nat) :
    Prop where
  /-- It is no number behind the last pause. -/
  last_le : last ≤ b.pauses.length
  /-- All calls before it came to errors that were worth another attempt, -/
  retried : ∀ i < last, ∃ e, op.outcome b.pauses i = .error e ∧ retriable e = true
  /-- and it did not, unless it is the one behind the last pause. -/
  ended : last < b.pauses.length → endsRun retriable (op.outcome b.pauses last) = true
  /-- An operation that draws a line of time is run like the one that does not, and the line is
  drawn from the first call to the last, with the pause of the schedule between one call and the
  next and nothing behind the last. -/
  timeline : (b.carryOut retriable op.noted).state = ((b.carryOut retriable op).state,
    op.lineBefore b.pauses last ++ [.called (op.outcome b.pauses last)])
  /-- So there is one call more than the number says, and at most one more than there are pauses. -/
  calls : (((b.carryOut retriable op.noted).state.2.filter Operation.Mark.isCall).length =
    last + 1) ∧ last + 1 ≤ b.maxAttempts
  /-- The result is the value of the last call, -/
  ok_iff : ∀ a, (b.carryOut retriable op).result = .ok a ↔ op.outcome b.pauses last = .ok a
  /-- or the errors of all calls, in order, -/
  error_iff : ∀ e, (b.carryOut retriable op).result = .error e ↔
    e.errors.map Except.error = (List.range (last + 1)).map (op.outcome b.pauses)
  /-- as many as there are calls, of which the last one is that of the last call, -/
  told : ∀ e, (b.carryOut retriable op).result = .error e → e.attempts = last + 1 ∧
    ∃ x, op.outcome b.pauses last = .error x ∧ e.last = some x ∧ e.intoLast = some x
  /-- The pauses are those in front of the last call, and so is the time that went by in them. -/
  slept : (b.carryOut retriable op).slept = b.pauses.take last ∧
    (b.carryOut retriable op).waited = (b.pauses.take last).sum

section

variable (b : Backoff) (retriable : ε → Bool) (op : Operation ε σ α)

theorem lastCall_noted : b.lastCall retriable op.noted = b.lastCall retriable op := by
  rw [lastCall, lastCall, op.outcome_noted]

/-- The line of time of a run ends with its last call. -/
theorem state_carryOut_noted :
    (b.carryOut retriable op.noted).state = ((b.carryOut retriable op).state,
      op.lineBefore b.pauses (b.lastCall retriable op) ++
        [.called (op.outcome b.pauses (b.lastCall retriable op))]) := by
  rw [carryOut_eq, carryOut_eq, lastCall_noted]
  simp only [Operation.endingAt, Operation.before_noted]
  rfl

/-- All outcomes up to the last one are errors, if the last one is. -/
theorem map_error_errorsOf_outcomes {e : ε}
    (h : op.outcome b.pauses (b.lastCall retriable op) = .error e) :
    (errorsOf ((List.range (b.lastCall retriable op + 1)).map (op.outcome b.pauses))).map
        Except.error =
      (List.range (b.lastCall retriable op + 1)).map (op.outcome b.pauses) := by
  refine map_error_errorsOf fun r hr => ?_
  obtain ⟨i, hi, rfl⟩ := List.mem_map.1 hr
  rcases Nat.lt_or_eq_of_le (Nat.lt_succ_iff.1 (List.mem_range.1 hi)) with hlt | rfl
  · obtain ⟨x, hx, -⟩ := exists_error_of_lt_firstEnd hlt
    exact ⟨x, hx⟩
  · exact ⟨e, h⟩

/-- **A run fails** with the errors of all of its calls. -/
theorem result_eq_error_iff (e : RetryError ε) :
    (b.carryOut retriable op).result = .error e ↔
      e.errors.map Except.error =
        (List.range (b.lastCall retriable op + 1)).map (op.outcome b.pauses) := by
  rw [carryOut_eq, Operation.endingAt]
  constructor
  · intro h
    dsimp only at h
    split at h
    · cases h
    · rename_i x hx
      obtain rfl := Except.error.inj h
      exact b.map_error_errorsOf_outcomes retriable op hx
  · intro h
    obtain ⟨x, -, hx⟩ := e.exists_last h
    rw [← h, errorsOf_map_error, hx]
    rfl

/-- **A run on a schedule obeys it**, whatever is tried. -/
theorem obeys : b.Obeys retriable op (b.lastCall retriable op) where
  last_le := firstEnd_le
  retried i hi := exists_error_of_lt_firstEnd hi
  ended h := endsRun_firstEnd h
  timeline := b.state_carryOut_noted retriable op
  calls := by
    rw [state_carryOut_noted, List.filter_append, List.length_append,
      Operation.length_filter_lineBefore]
    exact ⟨rfl, Nat.succ_le_succ firstEnd_le⟩
  ok_iff a := by
    rw [carryOut_eq, Operation.endingAt]
    cases op.outcome b.pauses (b.lastCall retriable op) <;> simp
  error_iff e := b.result_eq_error_iff retriable op e
  told e h := by
    have herrors := (b.result_eq_error_iff retriable op e).1 h
    obtain ⟨x, hx, houtcome⟩ := e.exists_last herrors
    refine ⟨?_, x, houtcome, hx, e.intoLast_eq_last.trans hx⟩
    rw [RetryError.attempts, ← List.length_map (f := (Except.error : ε → Except ε α)), herrors,
      List.length_map, List.length_range]
  slept := by
    rw [carryOut_eq]
    exact ⟨rfl, rfl⟩

end

end Backoff

/-! ### Deliveries -/

namespace Delivery

/-- The network as it writes down what it is sent, and what it replies. -/
def recorded (network : Outgoing → σ → Reply × σ) (request : Outgoing) :
    σ × List (Outgoing × Reply) → Reply × σ × List (Outgoing × Reply) :=
  fun (world, log) =>
    match network request world with
    | (reply, world) => (reply, world, log ++ [(request, reply)])

/-- The attempts at an envelope. -/
def sending (d : Delivery) (network : Outgoing → σ → Reply × σ) (e : Envelope) (world : σ) :
    Operation SendFault σ Unit :=
  ⟨d.attempt network e, fun _ world => world, world⟩

/-- What an attempt exchanges with the network: the request around the envelope and the reply to
it, or nothing if no request can be sent. -/
def exchanged (d : Delivery) (network : Outgoing → σ → Reply × σ) (e : Envelope) (world : σ) :
    Option (Outgoing × Reply) :=
  match d.request e with
  | .error _ => none
  | .ok request => some (request, (network request world).1)

section

variable (d : Delivery) (network : Outgoing → σ → Reply × σ) (e : Envelope)

/-- The state in front of an attempt at an envelope, if there is such an attempt. -/
def worldAt (world : σ) (i : Nat) : σ := (d.sending network e world).before d.backoff.pauses i

/-- Between two attempts nothing happens. -/
theorem worldAt_succ (world : σ) (i : Nat) :
    d.worldAt network e world (i + 1) =
      (d.attempt network e (d.worldAt network e world i)).2 := by
  simp only [worldAt, Operation.before, sending]

theorem outcome_sending (world : σ) (i : Nat) :
    (d.sending network e world).outcome d.backoff.pauses i =
      (d.attempt network e (d.worldAt network e world i)).1 := rfl

/-- What is exchanged in the attempts in front of one, in order. -/
def exchanges (world : σ) (i : Nat) : List (Outgoing × Reply) :=
  (List.range i).filterMap fun k => d.exchanged network e (d.worldAt network e world k)

/-- The number of the last attempt. -/
def lastAttempt (world : σ) : Nat :=
  d.backoff.lastCall SendFault.retriable (d.sending network e world)

/-- A fault for which nothing is sent is worth another attempt, though the next one will meet it
again. -/
theorem retriable_of_request_eq_error {fault : SendFault} (h : d.request e = .error fault) :
    fault.retriable = true := by
  unfold request at h
  split at h
  · cases h
    rfl
  · split at h
    · cases h
      rfl
    · split at h <;> cases h
      rfl

/-- **An attempt is worth another one** exactly if it was not answered with a status. -/
theorem endsRun_attempt_iff (world : σ) :
    endsRun SendFault.retriable (d.attempt network e world).1 = false ↔
      ∀ x ∈ d.exchanged network e world, x.2 = .lost := by
  rw [attempt, exchanged]
  cases hrequest : d.request e with
  | error fault =>
    simp [endsRun, d.retriable_of_request_eq_error e hrequest]
  | ok request =>
    simp only
    rcases network request world with ⟨status | _, world'⟩
    · dsimp only
      split <;> simp [endsRun, SendFault.retriable]
    · simp [endsRun, SendFault.retriable]

/-- An attempt does the same whether the network writes or not. -/
theorem attempt_recorded (world : σ) (log : List (Outgoing × Reply)) :
    d.attempt (recorded network) e (world, log) =
      ((d.attempt network e world).1, (d.attempt network e world).2,
        log ++ (d.exchanged network e world).toList) := by
  rw [attempt, attempt, exchanged]
  cases d.request e with
  | error fault => simp
  | ok request =>
    simp only [recorded]
    rcases network request world with ⟨status | _, world'⟩ <;> rfl

theorem exchanges_succ (world : σ) (i : Nat) :
    d.exchanges network e world (i + 1) = d.exchanges network e world i ++
      (d.exchanged network e (d.worldAt network e world i)).toList := by
  rw [exchanges, List.range_succ, List.filterMap_append, exchanges]
  cases h : d.exchanged network e (d.worldAt network e world i) <;> simp [h]

/-- **What has been written in front of an attempt.** -/
theorem worldAt_recorded (world : σ) (i : Nat) :
    d.worldAt (recorded network) e (world, []) i =
      (d.worldAt network e world i, d.exchanges network e world i) := by
  induction i with
  | zero => rfl
  | succ i ih => rw [worldAt_succ, ih, attempt_recorded, exchanges_succ, worldAt_succ]

/-- So a network that writes ends a delivery with the same attempt as one that does not. -/
theorem lastAttempt_recorded (world : σ) :
    d.lastAttempt (recorded network) e (world, []) = d.lastAttempt network e world := by
  have houtcome : (d.sending (recorded network) e (world, [])).outcome d.backoff.pauses =
      (d.sending network e world).outcome d.backoff.pauses := by
    funext i
    rw [outcome_sending, outcome_sending, worldAt_recorded, attempt_recorded]
  rw [lastAttempt, lastAttempt, Backoff.lastCall, Backoff.lastCall, houtcome]

/-- A delivery is over with its last attempt. -/
theorem state_send (world : σ) :
    (d.send network e world).state =
      d.worldAt network e world (d.lastAttempt network e world + 1) := by
  have hsend : d.send network e world =
      d.backoff.carryOut SendFault.retriable (d.sending network e world) := by
    simp only [send, Backoff.carryOut, sending]
  rw [hsend, Backoff.carryOut_eq, worldAt_succ]
  simp only [Operation.endingAt, worldAt, lastAttempt, sending]

/-- **What a delivery exchanges with the network** is what its attempts do, up to the last one. -/
theorem state_send_recorded (world : σ) :
    (d.send (recorded network) e (world, [])).state = ((d.send network e world).state,
      d.exchanges network e world (d.lastAttempt network e world + 1)) := by
  rw [state_send, lastAttempt_recorded, worldAt_recorded, state_send]

/-- Every attempt sends the same request. -/
theorem map_fst_exchanges {request : Outgoing} (h : d.request e = .ok request) (world : σ)
    (i : Nat) : (d.exchanges network e world i).map Prod.fst = List.replicate i request := by
  induction i with
  | zero => rfl
  | succ i ih =>
    rw [exchanges_succ, List.map_append, ih, exchanged, h]
    exact List.replicate_succ'.symm

theorem length_exchanges_le (world : σ) (i : Nat) : (d.exchanges network e world i).length ≤ i :=
  (List.length_filterMap_le ..).trans_eq List.length_range

/-- **What a delivery tries again**: only what got lost, and that as long as there are pauses. -/
structure TriesLostAgain (world : σ) : Prop where
  /-- Its attempts are made on its schedule. -/
  obeys : d.backoff.Obeys SendFault.retriable (d.sending network e world)
    (d.lastAttempt network e world)
  /-- Each of them sends the request around the envelope, if there is one that can be sent, -/
  sent : ∀ request, d.request e = .ok request →
    (d.send (recorded network) e (world, [])).state.2.map Prod.fst =
      List.replicate (d.lastAttempt network e world + 1) request
  /-- and what comes back is the network's reply to it. -/
  heard : (d.send (recorded network) e (world, [])).state.2 =
    d.exchanges network e world (d.lastAttempt network e world + 1)
  /-- An attempt with a pause behind it has another one behind that, exactly if it was not
  answered with a status. -/
  again : ∀ i ≤ d.lastAttempt network e world, i < d.backoff.pauses.length →
    (i < d.lastAttempt network e world ↔
      ∀ x ∈ d.exchanged network e (d.worldAt network e world i), x.2 = .lost)
  /-- No attempt that has another one behind it came to a status, -/
  unanswered : ∀ i < d.lastAttempt network e world,
    ∃ fault, (d.sending network e world).outcome d.backoff.pauses i = .error fault ∧
      ∀ status, fault ≠ .refused status
  /-- so whatever the network replies before its last reply is that something got lost. -/
  lost : ∀ x ∈ (d.send (recorded network) e (world, [])).state.2.dropLast, x.2 = .lost
  /-- There are at most as many replies as there may be attempts. -/
  length_le : (d.send (recorded network) e (world, [])).state.2.length ≤ d.backoff.maxAttempts

section

variable {d network e} {world : σ}

/-- An attempt with another one behind it was not answered with a status. -/
theorem lost_of_lt_lastAttempt {i : Nat} (hi : i < d.lastAttempt network e world) :
    ∀ x ∈ d.exchanged network e (d.worldAt network e world i), x.2 = .lost := by
  obtain ⟨fault, hfault, hretriable⟩ := exists_error_of_lt_firstEnd hi
  rw [← endsRun_attempt_iff, ← outcome_sending, hfault, endsRun, hretriable, Bool.not_true]

/-- In front of the last attempt nothing but losses has been heard. -/
theorem lost_of_mem_exchanges {x : Outgoing × Reply}
    (hx : x ∈ d.exchanges network e world (d.lastAttempt network e world)) : x.2 = .lost := by
  obtain ⟨i, hi, hx⟩ := List.mem_filterMap.1 hx
  exact lost_of_lt_lastAttempt (List.mem_range.1 hi) x hx

end

theorem triesLostAgain (world : σ) : d.TriesLostAgain network e world := by
  have hobeys : d.backoff.Obeys SendFault.retriable (d.sending network e world)
      (d.lastAttempt network e world) := d.backoff.obeys SendFault.retriable _
  have hheard : (d.send (recorded network) e (world, [])).state.2 =
      d.exchanges network e world (d.lastAttempt network e world + 1) := by
    rw [state_send_recorded]
  refine ⟨hobeys, ?sent, hheard, ?again, ?unanswered, ?lost, ?length_le⟩
  case sent =>
    intro request hrequest
    rw [hheard, d.map_fst_exchanges network e hrequest]
  case again =>
    intro i hi hpause
    refine ⟨lost_of_lt_lastAttempt, fun hlost => Nat.lt_of_le_of_ne hi ?_⟩
    -- the last attempt in front of a pause ends the delivery
    rintro rfl
    have hends := hobeys.ended hpause
    rw [outcome_sending, (d.endsRun_attempt_iff network e _).2 hlost] at hends
    cases hends
  case unanswered =>
    intro i hi
    obtain ⟨fault, hfault, hretriable⟩ := hobeys.retried i hi
    refine ⟨fault, hfault, ?_⟩
    rintro status rfl
    cases hretriable
  case lost =>
    intro x hx
    rw [hheard, exchanges_succ] at hx
    have hbefore : x ∈ d.exchanges network e world (d.lastAttempt network e world) := by
      cases hlast : d.exchanged network e
          (d.worldAt network e world (d.lastAttempt network e world)) with
      | none =>
        rw [hlast, Option.toList_none, List.append_nil] at hx
        exact List.mem_of_mem_dropLast hx
      | some y => rwa [hlast, Option.toList_some, List.dropLast_concat] at hx
    exact lost_of_mem_exchanges hbefore
  case length_le =>
    rw [hheard]
    exact (d.length_exchanges_le network e world _).trans hobeys.calls.2

end

end Delivery

/-- **Attempts keep to their schedule**: those at any operation, with any sequence of outcomes and
whatever errors are worth another attempt, and among them those at delivering an envelope, on any
network, where what got lost is sent again as long as there are pauses, and nothing else is. -/
theorem keepsToSchedule :
    (∀ {ε σ α : Type} (b : Backoff) (retriable : ε → Bool) (op : Operation ε σ α),
      b.Obeys retriable op (b.lastCall retriable op)) ∧
    ∀ {σ : Type} (d : Delivery) (network : Outgoing → σ → Reply × σ) (e : Envelope) (world : σ),
      d.TriesLostAgain network e world :=
  ⟨fun b retriable op => b.obeys retriable op,
    fun d network e world => d.triesLostAgain network e world⟩

/-- Two losses use up two pauses, and a refusal ends the run with a third one left. -/
example :
    ((Backoff.standard.run SendFault.retriable
      (fun n => (.error (if n < 2 then .lost "" else .refused 500), n + 1))
      (fun _ n => n) 0 : Run SendFault Nat Unit).slept) = [1000, 3000] := by
  decide

end Telemetry
