import Mathlib
import Telemetry.Proofs.Exchange
import Telemetry.Proofs.Retry

/-!
# Every count is accounted for

What a collector has collected and what an agent still buffers are, between reports,
together exactly what the agent ever counted, and over again what the collector took
without the agent hearing of it. No network fault loses a count, and the only way to
count twice is a lost answer.

The law holds for sums of whole numbers, so it is a law of the books; that the maps hold
what the books say needs the sums to stay in the range of 64 bits. Both go into one
invariant, `Balanced`, which is claimed only for as long as the books are steady: an
entry never takes anything back, so books that are steady were so at every time before.
Within a delivery the same is said with what the batch still owes, `Owed`: a lost answer
adds to the collector and to what is unheard of alike, and the attempt that is heard of
pays the debt.

* `conserved_run`: the law, for every run and every name.
-/

namespace Telemetry

namespace Exchange

variable {name : String}

/-! ### The collector's side -/

/-- The collector holds what the books say, and the books balance once `due` is added:
what has been drained and is neither collected nor put back. -/
def Owed (name : String) (due : Int) (x : Exchange) : Prop :=
  Steady name x.books →
    (x.collector.total name).toInt = sumOver (Entry.collected name) x.books ∧
      sumOver (Entry.collected name) x.books + sumOver (Entry.buffered name) x.books + due =
        sumOver (Entry.added name) x.books + sumOver (Entry.unheard name) x.books

/-- An exchange in the middle of a delivery that began at `x₀`. -/
structure Delivering (name : String) (x₀ : Exchange) (due : Int) (x : Exchange) : Prop where
  /-- The agent takes no part in it. -/
  agent : x.agent = x₀.agent
  /-- The books have only grown. -/
  grown : x₀.books <+: x.books
  /-- Nothing is buffered meanwhile. -/
  buffered : sumOver (Entry.buffered name) x.books = sumOver (Entry.buffered name) x₀.books
  /-- What is still owed. -/
  owed : Owed name due x

/-- A batch received pays what it owes if the agent hears of it, and else is counted over
again. -/
theorem Delivering.received {x₀ x : Exchange} {batch : List Metric} (hb : Single name batch)
    (heard : Bool) (h : Delivering name x₀ (deltaIn name batch) x) :
    Delivering name x₀ (if heard then 0 else deltaIn name batch)
      { x with
        collector := x.collector.applyAll batch
        books := x.books ++ [.received batch heard] } where
  agent := h.agent
  grown := h.grown.trans (List.prefix_append ..)
  buffered := by
    rw [sumOver_snoc, h.buffered]
    simp [Entry.buffered]
  owed := by
    intro hsteady
    obtain ⟨hexact, hbalance⟩ := h.owed (hsteady.of_initial (List.prefix_append ..))
    have hrange := hsteady.inRange.2
    simp only [sumOver_snoc, Entry.collected, Entry.buffered, Entry.added] at hrange ⊢
    rw [← hexact] at hrange
    rw [Memory.total_applyAll, toInt_foldl_addClamped hb hrange, hexact]
    refine ⟨rfl, ?_⟩
    cases heard <;> simp only [Entry.unheard] <;> simp only [Bool.false_eq_true, if_true, if_false]
      <;> omega

/-- **One attempt** keeps the debt if it fails and pays it if it succeeds. -/
theorem attempt_keeps (d : Delivery) (e : Envelope) (fates : Nat → Fate) (x₀ : Exchange)
    {batch : List Metric} (hb : Single name batch) :
    AttemptKeeps (fun w : Exchange × Nat => Delivering name x₀ (deltaIn name batch) w.1)
      (fun _ w => Delivering name x₀ 0 w.1) (d.attempt (relay fates batch) e) := by
  rintro ⟨x, n⟩ hx
  unfold Delivery.attempt
  cases d.request e with
  | error fault => exact hx
  | ok request =>
    cases hf : fates n with
    | lost => simpa [relay, hf, Fate.reply] using hx
    | unanswered => simpa [relay, hf, Fate.reply] using hx.received hb false
    | taken status good => simpa [relay, hf, Fate.reply, good] using hx.received hb true
    | refused status bad => simpa [relay, hf, Fate.reply, bad] using hx

/-- What a batch still owes once its delivery has ended. -/
def dueAfter (name : String) (batch : List Metric) : Except Failure Unit → Int
  | .ok () => 0
  | .error _ => deltaIn name batch

/-- **A delivery** keeps the debt if it fails and pays it if it succeeds, whatever the
schedule and whatever fates its attempts meet. -/
theorem deliver_delivering (d : Delivery) (dispatch : Dispatch) {x : Exchange}
    {batch : List Metric} (hb : Single name batch) (h : Owed name (deltaIn name batch) x) :
    Delivering name x (dueAfter name batch (x.deliver d batch dispatch).1)
      (x.deliver d batch dispatch).2.1 := by
  have hstart : Delivering name x (deltaIn name batch) x := ⟨rfl, List.prefix_rfl, rfl, h⟩
  cases dispatch with
  | unsealed why => exact hstart
  | tried seed fates =>
    simp only [deliver, Delivery.report]
    cases he : d.sealer.encodeBatch seed batch with
    | none =>
      -- an empty batch owes nothing
      have hempty : batch = [] := by
        unfold Sealer.encodeBatch at he
        split at he
        · exact List.isEmpty_iff.1 ‹_›
        · cases he
      subst hempty
      exact hstart
    | some e =>
      have hsent : (d.send (relay fates batch) e (x, 0)).Ends
          (fun w : Exchange × Nat => Delivering name x (deltaIn name batch) w.1)
          (fun _ w => Delivering name x 0 w.1) :=
        d.backoff.ends_run SendFault.retriable (attempt_keeps d e fates x hb)
          (fun _ _ hw => hw) hstart
      simp only
      generalize d.send (relay fates batch) e (x, 0) = sent at hsent ⊢
      obtain ⟨result, world, slept⟩ := sent
      cases result with
      | ok u => exact hsent.ok u rfl
      | error fault => exact hsent.error fault rfl

/-! ### The invariant -/

/-- What a report on its way will still bring back to the samples. -/
def pending (name : String) (r : Reporting) : Int :=
  match r.undelivered with
  | some batch => deltaIn name batch
  | none => 0

/-- **The books are right**, as long as they are steady: the samples hold what they say
is buffered, the collector what they say is collected, and they balance. -/
structure Balanced (name : String) (x : Exchange) : Prop where
  /-- The samples hold what is buffered. -/
  gathered : Steady name x.books →
    (Memory.total x.agent.samples name).toInt = sumOver (Entry.buffered name) x.books
  /-- The collector holds what is collected, and the books balance. -/
  owed : Owed name (pending name x.agent.reporting) x
  /-- A batch that will be put back holds the name at most once. -/
  single : ∀ batch, x.agent.reporting.undelivered = some batch → Single name batch

theorem balanced_start (name : String) (pace : Pace) : Balanced name (start pace) := by
  have hidle : (Controller.start pace).reporting.undelivered = none :=
    Reporting.undelivered_waitFor _
  refine ⟨fun _ => rfl, fun _ => ⟨rfl, ?_⟩, fun batch h => ?_⟩
  · simp [pending, start, hidle]
  · rw [start, hidle] at h
    cases h

/-- **Counting at the agent** raises what is buffered and what was added alike. -/
theorem Balanced.counted {x x' : Exchange} {n : String} {d : Int64} (h : Balanced name x)
    (hbooks : x'.books = x.books ++ [.counted n d]) (hcollector : x'.collector = x.collector)
    (hreporting : x'.agent.reporting = x.agent.reporting)
    (htotal : Memory.total x'.agent.samples name =
      if name = n then addClamped (Memory.total x.agent.samples name) d
      else Memory.total x.agent.samples name) :
    Balanced name x' := by
  have hearlier (hs : Steady name x'.books) : Steady name x.books :=
    hs.of_initial (hbooks ▸ List.prefix_append ..)
  refine ⟨fun hs => ?_, fun hs => ?_, fun batch hb => h.single batch (hreporting ▸ hb)⟩
  · have hexact := h.gathered (hearlier hs)
    have hrange := hs.inRange.1
    rw [hbooks, sumOver_snoc, Entry.buffered] at hrange ⊢
    rw [htotal]
    split
    · rename_i hn
      rw [if_pos hn, ← hexact] at hrange
      rw [toInt_addClamped hrange, hexact]
    · rw [hexact, Int.add_zero]
  · obtain ⟨hexact, hbalance⟩ := h.owed (hearlier hs)
    rw [hbooks, hcollector, hreporting]
    simp only [sumOver_snoc, Entry.collected, Entry.buffered, Entry.added, Entry.unheard]
    exact ⟨by omega, by omega⟩

/-- What a report that begins leaves to be put back: nothing, unless it will fail. -/
theorem undelivered_report {c : Controller} {due : Nat} (hr : c.reporting = .waiting due)
    (env : Surroundings) (time : Nat) :
    (c.report env time).reporting.undelivered =
      if c.samples.snapshot.isEmpty || (env.outcome c.reports.length).failure.isNone then none
      else some c.samples.snapshot := by
  simp only [Controller.report, hr, Samples.takeSnapshot]
  by_cases hempty : c.samples.snapshot.isEmpty
  · simp [hempty]
  · cases hf : (env.outcome c.reports.length).failure <;> simp [hempty]

/-- **What a report that begins will bring back** is what its delivery leaves owed. -/
theorem pending_report {c : Controller} {due : Nat} (hr : c.reporting = .waiting due)
    (result : Except Failure Unit) (waited time : Nat) :
    pending name (c.report ⟨fun _ => [], fun _ => ⟨waited, failureOf result⟩⟩ time).reporting =
      dueAfter name c.samples.snapshot result := by
  rw [pending, undelivered_report hr]
  cases result with
  | ok u => simp [failureOf, dueAfter]
  | error e =>
    by_cases hempty : c.samples.snapshot.isEmpty
    · simp [List.isEmpty_iff.1 hempty, dueAfter, deltaIn]
    · simp [hempty, failureOf, dueAfter]

/-- A report that begins drains every counter. -/
theorem total_report {c : Controller} {due : Nat} (hr : c.reporting = .waiting due)
    (env : Surroundings) (time : Nat) (name : String) :
    Memory.total (c.report env time).samples name = 0 := by
  simp only [Controller.report, hr]
  split <;> rfl

/-- What is drained is owed from then on. -/
theorem Balanced.drained {x : Exchange} {batch : List Metric} (h : Balanced name x)
    (hidle : pending name x.agent.reporting = 0) :
    Owed name (deltaIn name batch) (x.note (.drained batch)) := by
  intro hs
  obtain ⟨hexact, hbalance⟩ := h.owed (hs.of_initial (List.prefix_append ..))
  rw [hidle] at hbalance
  simp only [note, sumOver_snoc, Entry.collected, Entry.buffered, Entry.added, Entry.unheard]
  exact ⟨by omega, by omega⟩

/-- **A report that begins** drains the samples, and what its delivery leaves owed is
what will be put back. -/
theorem Balanced.report {x : Exchange} (hname : name ≠ "") (d : Delivery) (dispatch : Dispatch)
    (time : Nat) (h : Balanced name x) : Balanced name (x.report d dispatch time) := by
  cases hr : x.agent.reporting with
  | sending due batch finish delivered =>
    rw [Exchange.report, hr]
    exact h
  | ended =>
    rw [Exchange.report, hr]
    exact h
  | waiting due =>
    set batch := x.agent.samples.snapshot with hbatch
    have hsingle : Single name batch := single_snapshot x.agent.samples hname
    have hidle : pending name x.agent.reporting = 0 := by rw [hr]; rfl
    have hsum : deltaIn name batch = (Memory.total x.agent.samples name).toInt :=
      Memory.deltaIn_snapshot x.agent.samples hname
    have hdelivering := deliver_delivering d dispatch hsingle (h.drained hidle)
    simp only [Exchange.report, hr, Samples.takeSnapshot, ← hbatch]
    generalize (x.note (.drained batch)).deliver d batch dispatch = delivered at hdelivering ⊢
    obtain ⟨result, x', waited⟩ := delivered
    have hagent : x'.agent = x.agent := hdelivering.agent
    simp only [hagent] at hdelivering ⊢
    -- the agent drains its samples whatever the outcome, which only decides what it puts back
    refine ⟨fun hs => ?_, ?_, fun b hb => ?_⟩
    · -- nothing is left to buffer
      have hbegun := hs.of_initial hdelivering.grown
      have hexact := h.gathered (hbegun.of_initial (List.prefix_append ..))
      rw [total_report hr, hdelivering.buffered, note, sumOver_snoc, Entry.buffered, ← hexact,
        hsum]
      exact (Int.add_right_neg _).symm
    · rw [pending_report hr]
      exact hdelivering.owed
    · rw [undelivered_report hr, ← hbatch] at hb
      split at hb
      · cases hb
      · cases hb
        exact hsingle

/-- **A report that ends** puts back what was not delivered. -/
theorem Balanced.settle {x : Exchange} (time : Nat) (h : Balanced name x) :
    Balanced name (x.settle time) := by
  obtain ⟨⟨pace, clock, samples, polls, pollDue, reporting, reports⟩, collector, books⟩ := x
  cases reporting with
  | waiting due => exact ⟨h.gathered, h.owed, h.single⟩
  | ended => exact ⟨h.gathered, h.owed, h.single⟩
  | sending due batch finish delivered =>
    cases delivered with
    | true =>
      refine ⟨h.gathered, fun hs => ?_, fun b hb => ?_⟩
      · simpa [pending, Exchange.settle, Controller.settle] using h.owed hs
      · simp [Exchange.settle, Controller.settle] at hb
    | false =>
      have hsingle := h.single batch rfl
      have hpending : pending name (.sending due batch finish false) = deltaIn name batch := rfl
      refine ⟨fun hs => ?_, fun hs => ?_, fun b hb => ?_⟩
      · have hexact := h.gathered (hs.of_initial (List.prefix_append ..))
        have hrange := hs.inRange.1
        simp only [Exchange.settle, Reporting.undelivered_sending_false, note, sumOver_snoc,
          Entry.buffered, Controller.settle, Bool.false_eq_true, if_false] at hrange hexact ⊢
        rw [← hexact] at hrange ⊢
        rw [Samples.total_restoreCounters, toInt_foldl_addClamped hsingle hrange]
      · obtain ⟨hexact, hbalance⟩ := h.owed (hs.of_initial (List.prefix_append ..))
        simp only [hpending] at hexact hbalance
        simp only [Exchange.settle, Reporting.undelivered_sending_false, note, sumOver_snoc,
          Entry.collected, Entry.buffered, Entry.added, Entry.unheard, Controller.settle, pending,
          Reporting.undelivered_waitFor]
        exact ⟨by omega, by omega⟩
      · simp [Exchange.settle, Controller.settle, note] at hb

/-- **One move** keeps the books right. -/
theorem Balanced.move {x : Exchange} (hname : name ≠ "") (d : Delivery) (m : Move)
    (h : Balanced name x) : Balanced name (x.move d m) := by
  cases m with
  | poll gauges time =>
    refine h.counted (n := pollCount) (d := 1) rfl rfl rfl ?_
    simp only [Exchange.move, note, Controller.poll, Samples.total_addCounter,
      Samples.total_setGauges]
  | set n value => exact ⟨h.gathered, h.owed, h.single⟩
  | count n delta => exact h.counted rfl rfl rfl (Samples.total_addCounter ..)
  | report dispatch time => exact h.report hname d dispatch time
  | settle time => exact h.settle time

/-- The books are right after every run. -/
theorem balanced_run (hname : name ≠ "") (d : Delivery) (pace : Pace) (moves : List Move) :
    Balanced name (run d pace moves) := by
  unfold run
  induction moves using List.reverseRecOn with
  | nil => exact balanced_start name pace
  | append_singleton moves m ih =>
    rw [List.foldl_append]
    exact ih.move hname d m

/-- **No count is lost, and only a lost answer counts twice.** After any run of moves in
any order, with attempts that met any fates, and for every name whose running sums stayed
in the range: unless a report is on its way, the total at the collector and what is
buffered at the agent are together what was ever counted at the agent, and again what the
collector applied in attempts whose answer got lost. -/
theorem conserved_run (d : Delivery) (pace : Pace) (moves : List Move) {name : String}
    (hname : name ≠ "") (hsteady : Steady name (run d pace moves).books)
    (hidle : (run d pace moves).agent.reporting.isIdle = true) :
    ((run d pace moves).collector.total name).toInt +
        (Memory.total (run d pace moves).agent.samples name).toInt =
      sumOver (Entry.added name) (run d pace moves).books +
        sumOver (Entry.unheard name) (run d pace moves).books := by
  have h := balanced_run hname d pace moves
  have hpending : pending name (run d pace moves).agent.reporting = 0 := by
    cases hr : (run d pace moves).agent.reporting with
    | sending => simp [hr, Reporting.isIdle] at hidle
    | waiting | ended => rfl
  obtain ⟨hcollected, hbalance⟩ := h.owed hsteady
  rw [hcollected, h.gathered hsteady, ← hbalance, hpending, Int.add_zero]

/-- A sending side without secret and key, with one pause between two attempts. -/
def plainDelivery : Delivery := ⟨"http://collector/updates/", ⟨none, none⟩, ⟨[1000]⟩, none⟩

/-- A count that the collector applies without the agent hearing of it, so that it is put
back on top of what was counted meanwhile and delivered over again. -/
def unheardThenTaken : List Move :=
  [.count "hits" 5, .report (.tried (fun _ => []) fun n => if n = 0 then .unanswered else .lost) 10,
    .count "hits" 2, .poll [] 12, .settle 1010,
    .report (.tried (fun _ => []) fun _ => .taken 200 rfl) 2000, .settle 2000]

/-- Seven hits were counted, and the collector counts the first five of them twice. -/
theorem conserved_unheardThenTaken :
    "hits" ≠ "" ∧ Steady "hits" (run plainDelivery ⟨2, 10⟩ unheardThenTaken).books ∧
      (run plainDelivery ⟨2, 10⟩ unheardThenTaken).agent.reporting.isIdle = true ∧
      sumOver (Entry.added "hits") (run plainDelivery ⟨2, 10⟩ unheardThenTaken).books = 7 ∧
      sumOver (Entry.unheard "hits") (run plainDelivery ⟨2, 10⟩ unheardThenTaken).books = 5 ∧
      ((run plainDelivery ⟨2, 10⟩ unheardThenTaken).collector.total "hits").toInt +
          (Memory.total (run plainDelivery ⟨2, 10⟩ unheardThenTaken).agent.samples
            "hits").toInt = 12 := by
  have hname : "hits" ≠ "" := by decide
  have hsteady : Steady "hits" (run plainDelivery ⟨2, 10⟩ unheardThenTaken).books := by
    decide +kernel
  have hidle : (run plainDelivery ⟨2, 10⟩ unheardThenTaken).agent.reporting.isIdle = true := by
    decide +kernel
  have hadded : sumOver (Entry.added "hits")
      (run plainDelivery ⟨2, 10⟩ unheardThenTaken).books = 7 := by decide +kernel
  have hunheard : sumOver (Entry.unheard "hits")
      (run plainDelivery ⟨2, 10⟩ unheardThenTaken).books = 5 := by decide +kernel
  refine ⟨hname, hsteady, hidle, hadded, hunheard, ?_⟩
  rw [conserved_run plainDelivery ⟨2, 10⟩ unheardThenTaken hname hsteady hidle, hadded, hunheard]
  rfl

end Exchange

end Telemetry
