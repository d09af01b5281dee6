import Mathlib
import Telemetry.Proofs.Chronicle

/-!
# Every batch is exact

A count is noted once. From then on it is in the samples, or in the batch on its way, or in a
batch that was delivered, and each step only moves it from one of these places to another
(`Chronicle.Exact`). That needs no more than the notes, except where the samples come in: they
hold what the notes say as long as the sums stay in the range of 64 bits.

So a batch holds what was counted since the last batch that was delivered had been *drained*, not
since it was delivered. What was counted between the two is what makes a report on its way hard,
and it has a field of its own in the invariant.

* `Chronicle.Exact.noted`, `began`, `ended`: one lemma for each way in which counts move;
* `Carries`: what a batch holds;
* `Chronicle.batches_exact`: what is where, and what every batch holds.
-/

namespace Telemetry

namespace Chronicle

/-! ### What is where -/

/-- **Where the counts of a name are**, for a state that the steps lead to. The parts that speak
of the samples hold as long as nothing has gone beyond the range. -/
structure Exact (name : String) (x : Chronicle) : Prop where
  /-- The samples hold what the notes say they hold. -/
  gathered : x.notes.Fits name →
    (Memory.total x.agent.samples name).toInt = x.notes.sum (Note.buffered name)
  /-- Every count is delivered, on its way or in the samples. -/
  balanced : x.notes.sum (Note.delivered name) + deltaIn name x.agent.reporting.inFlight +
    x.notes.sum (Note.buffered name) = x.notes.sum (Note.added name)
  /-- The batch on its way holds the name at most once. -/
  single : Single name x.agent.reporting.inFlight
  /-- What was counted since the last drain of a delivered batch is on its way or in the samples. -/
  span : x.notes.Fits name → deltaIn name x.agent.reporting.inFlight +
    x.notes.sum (Note.buffered name) = x.notes.sinceDelivered.sum (Note.added name)
  /-- While a batch is on its way, the samples hold what was counted meanwhile. -/
  fresh : ∀ {due batch finish delivered}, x.agent.reporting = .sending due batch finish delivered →
    x.notes.Fits name →
      x.notes.sum (Note.buffered name) = x.notes.sinceBegan.sum (Note.added name)

variable {name : String} {x x' : Chronicle}

theorem inFlight_waitFor (due : Option Nat) : (Reporting.waitFor due).inFlight = [] := by
  cases due <;> rfl

theorem exact_start (name : String) (pace : Pace) : Exact name (start pace) := by
  have hidle : (start pace).agent.reporting.inFlight = [] := inFlight_waitFor _
  refine ⟨fun _ => rfl, ?_, ?_, fun _ => ?_, fun hr => ?_⟩
  · rw [hidle]
    rfl
  · rw [hidle]
    exact Nat.zero_le 1
  · rw [hidle]
    rfl
  · rw [hr] at hidle
    exact fun _ => rfl

/-- **Something gathered** is in the samples, whatever the loops are doing. -/
theorem Exact.noted {n : Note} (h : Exact name x) (hn : n.isGathered = true)
    (hnotes : x'.notes = n :: x.notes) (hreporting : x'.agent.reporting = x.agent.reporting)
    (htotal : InRange ((Memory.total x.agent.samples name).toInt + n.added name) →
      (Memory.total x'.agent.samples name).toInt =
        (Memory.total x.agent.samples name).toInt + n.added name) :
    Exact name x' := by
  have hpast : x'.notes.Fits name → x.notes.Fits name :=
    fun hf => hf.of_suffix (hnotes ▸ List.suffix_cons n x.notes)
  have hbuffered := Note.buffered_of_isGathered name hn
  have hdelivered := Note.delivered_of_isGathered name hn
  have hbalanced := h.balanced
  constructor
  · intro hf
    have hexact := h.gathered (hpast hf)
    have hrange := hf.inRange
    rw [hnotes, Notes.sum_cons, hbuffered, add_comm, ← hexact] at hrange ⊢
    exact htotal hrange
  · rw [hnotes, hreporting]
    simp only [Notes.sum_cons, hbuffered, hdelivered]
    omega
  · rw [hreporting]
    exact h.single
  · intro hf
    have hspan := h.span (hpast hf)
    rw [hnotes, hreporting, Notes.sinceDelivered_cons hn]
    simp only [Notes.sum_cons, hbuffered]
    omega
  · intro due batch finish delivered hr hf
    have hfresh := h.fresh (hreporting ▸ hr) (hpast hf)
    rw [hnotes, Notes.sinceBegan_cons hn]
    simp only [Notes.sum_cons, hbuffered, hfresh]

/-- What is not noted moves no counts. -/
theorem Exact.unnoted (h : Exact name x) (hnotes : x'.notes = x.notes)
    (hinFlight : x'.agent.reporting.inFlight = x.agent.reporting.inFlight)
    (hsending : ∀ {due batch finish delivered},
      x'.agent.reporting = .sending due batch finish delivered →
        x'.agent.reporting = x.agent.reporting)
    (htotal : Memory.total x'.agent.samples name = Memory.total x.agent.samples name) :
    Exact name x' := by
  refine ⟨?_, ?_, ?_, ?_, fun hr => ?_⟩
  · rw [hnotes, htotal]
    exact h.gathered
  · rw [hnotes, hinFlight]
    exact h.balanced
  · rw [hinFlight]
    exact h.single
  · rw [hnotes, hinFlight]
    exact h.span
  · rw [hnotes]
    exact h.fresh ((hsending hr).symm.trans hr)

/-- **A batch that is drained** takes everything along that the samples hold of the name. -/
theorem Exact.began {due : Nat} (h : Exact name x) (next : Option Nat) (finish : Nat)
    (delivered : Bool) (hname : name ≠ "") (hr : x.agent.reporting = .waiting due)
    (hnotes : x'.notes = .began x.agent.samples.snapshot :: x.notes)
    (hreporting : x'.agent.reporting =
      .sending next x.agent.samples.snapshot finish delivered)
    (htotal : Memory.total x'.agent.samples name = 0) : Exact name x' := by
  set batch := x.agent.samples.snapshot with hbatch
  have hidle : deltaIn name x.agent.reporting.inFlight = 0 := by rw [hr]; rfl
  have hinFlight : x'.agent.reporting.inFlight = batch := by rw [hreporting]; rfl
  have hsum : deltaIn name batch = (Memory.total x.agent.samples name).toInt :=
    Memory.deltaIn_snapshot x.agent.samples hname
  -- nothing is left in the samples, as far as the notes can tell
  have hdrained : x'.notes.Fits name → Notes.sum (Note.buffered name) x'.notes = 0 := by
    intro hf
    have hexact := h.gathered (hf.of_suffix (hnotes ▸ List.suffix_cons ..))
    rw [hnotes, Notes.sum_cons, Note.buffered, ← hexact, hsum]
    exact Int.add_left_neg _
  have hbalanced := h.balanced
  constructor
  · intro hf
    rw [hdrained hf, htotal]
    rfl
  · rw [hnotes, hinFlight]
    simp only [Notes.sum_cons, Note.delivered, Note.buffered, Note.added, Note.count?]
    omega
  · rw [hinFlight]
    exact single_snapshot x.agent.samples hname
  · intro hf
    have hpast := hf.of_suffix (hnotes ▸ List.suffix_cons ..)
    have hspan := h.span hpast
    rw [hdrained hf, hinFlight, hnotes, hsum, h.gathered hpast]
    simp only [Notes.sinceDelivered, Notes.sum_cons, Note.added, Note.count?]
    omega
  · intro _ _ _ _ _ hf
    rw [hdrained hf, hnotes]
    rfl

/-- **A report that has ended** leaves nothing on its way: its batch is delivered or put back. -/
theorem Exact.ended {due : Option Nat} {batch : List Metric} {finish : Nat} {delivered : Bool}
    (h : Exact name x) (hr : x.agent.reporting = .sending due batch finish delivered)
    (hnotes : x'.notes = .ended batch delivered :: x.notes)
    (hidle : ∀ {due batch finish delivered},
      x'.agent.reporting ≠ .sending due batch finish delivered)
    (hsamples : x'.agent.samples =
      if delivered then x.agent.samples else x.agent.samples.restoreCounters batch) :
    Exact name x' := by
  have hbatch : x.agent.reporting.inFlight = batch := by rw [hr]; rfl
  have hnone : x'.agent.reporting.inFlight = [] := by
    cases hr' : x'.agent.reporting with
    | sending => exact absurd hr' hidle
    | waiting | ended => rfl
  have hpast : x'.notes.Fits name → x.notes.Fits name :=
    fun hf => hf.of_suffix (hnotes ▸ List.suffix_cons ..)
  have hsingle : Single name batch := hbatch ▸ h.single
  have hbalanced := h.balanced
  rw [hbatch] at hbalanced
  refine ⟨fun hf => ?_, ?_, ?_, fun hf => ?_, fun hr' => absurd hr' hidle⟩
  · have hexact := h.gathered (hpast hf)
    have hrange := hf.inRange
    rw [hsamples]
    cases delivered with
    | true =>
      rw [hnotes, Notes.sum_cons, ← hexact]
      exact (Int.zero_add _).symm
    | false =>
      rw [hnotes, Notes.sum_cons, Note.buffered, add_comm, ← hexact] at hrange ⊢
      rw [if_neg Bool.false_ne_true, Samples.total_restoreCounters,
        toInt_foldl_addClamped hsingle hrange]
  · rw [hnotes, hnone]
    cases delivered <;>
      simp only [Notes.sum_cons, Note.delivered, Note.buffered, Note.added, Note.count?, deltaIn,
        deltasOf_nil, List.map_nil, List.sum_nil] at hbalanced ⊢ <;> omega
  · rw [hnone]
    exact Nat.zero_le 1
  · have hspan := h.span (hpast hf)
    rw [hbatch] at hspan
    rw [hnotes, hnone]
    cases delivered with
    | true =>
      -- what was counted while the batch was on its way is all that is left of the span
      have hfresh := h.fresh hr (hpast hf)
      simpa [Note.buffered, Note.added, Note.count?, Notes.sinceDelivered, deltaIn] using hfresh
    | false =>
      simpa [Note.buffered, Note.added, Note.count?, Notes.sinceDelivered, deltaIn] using hspan

/-- The tick of a report keeps every count where it is, or drains them all. -/
theorem Exact.report (h : Exact name x) (hname : name ≠ "") (outcome : ReportOutcome)
    (time : Nat) : Exact name (x.act (.report outcome time)) := by
  cases hr : x.agent.reporting with
  | sending | ended =>
    have hagent : x.agent.report ⟨fun _ => [], fun _ => outcome⟩ time =
        { x.agent with clock := time } := by
      simp only [Controller.report, hr]
    have hnone : x.agent.beginning = [] := by simp only [Controller.beginning, hr]
    simp only [act, hagent, hnone, List.nil_append]
    exact h.unnoted rfl rfl (fun _ => rfl) rfl
  | waiting due =>
    by_cases hempty : x.agent.samples.snapshot.isEmpty
    · -- without a batch nothing is handed over, and there was nothing to drain
      have hlookup : x.agent.samples.counters.lookup name = none := by
        have hsnapshot := Memory.deltasOf_snapshot x.agent.samples hname
        rw [List.isEmpty_iff.1 hempty] at hsnapshot
        exact Option.toList_eq_nil_iff.1 hsnapshot.symm
      have htotal : Memory.total x.agent.samples name = 0 := by
        rw [Memory.total, hlookup]
        rfl
      refine h.unnoted ?_ ?_ ?_ ?_
      · simp only [act, Controller.beginning, hr, hempty, if_true, List.nil_append]
      · simp only [act, Controller.report, hr, Samples.takeSnapshot, hempty, if_true,
          inFlight_waitFor]
        rfl
      · intro next batch finish delivered hr'
        simp only [act, Controller.report, hr, Samples.takeSnapshot, hempty, if_true] at hr'
        cases hnext : nextDue x.agent.pace.report due time <;> rw [hnext] at hr' <;> cases hr'
      · rw [htotal]
        simp only [act, Controller.report, hr, Samples.takeSnapshot, hempty, if_true]
        rfl
    · rw [Bool.not_eq_true] at hempty
      refine h.began (nextDue x.agent.pace.report due time) (time + outcome.duration)
        outcome.failure.isNone hname hr ?_ ?_ ?_
      · simp [act, Controller.beginning, hr, hempty]
      · simp [act, Controller.report, hr, Samples.takeSnapshot, hempty]
      · simp only [act, Controller.report, hr, Samples.takeSnapshot, hempty]
        rfl

/-- **One step** loses no count and makes none up. -/
theorem Exact.act (h : Exact name x) (hname : name ≠ "") (a : Act) : Exact name (x.act a) := by
  have hadd (n : String) (d : Int64) :
      InRange ((Memory.total x.agent.samples name).toInt + if name = n then d.toInt else 0) →
        (Memory.total (x.agent.samples.addCounter n d) name).toInt =
          (Memory.total x.agent.samples name).toInt + if name = n then d.toInt else 0 := by
    intro hrange
    rw [Samples.total_addCounter]
    split
    · rename_i hn
      rw [if_pos hn] at hrange
      exact toInt_addClamped hrange
    · exact (Int.add_zero _).symm
  have hset (values : List (String × Binary64)) :
      (Memory.total (x.agent.samples.setGauges values) name).toInt =
        (Memory.total x.agent.samples name).toInt + 0 := by
    rw [Samples.total_setGauges, Int.add_zero]
  cases a with
  | sample gauges =>
    rw [Chronicle.act]
    split
    · exact h.noted (n := .levels gauges) rfl rfl rfl fun _ => hset gauges
    · exact h
  | tally time =>
    rw [Chronicle.act]
    split
    · exact h.noted (n := .polled) rfl rfl rfl (hadd pollCount 1)
    · exact h
  | set values => exact h.noted (n := .levels values) rfl rfl rfl fun _ => hset values
  | count n delta => exact h.noted (n := .counted n delta) rfl rfl rfl (hadd n delta)
  | report outcome time => exact h.report hname outcome time
  | settle time =>
    cases hr : x.agent.reporting with
    | sending due batch finish delivered =>
      refine h.ended hr ?_ ?_ ?_
      · simp only [Chronicle.act, hr, Reporting.ending, List.singleton_append]
      · simp only [Chronicle.act, Controller.settle, hr]
        intro next _ _ _ hsending
        cases due <;> cases hsending
      · simp only [Chronicle.act, Controller.settle, hr]
    | waiting | ended =>
      refine h.unnoted ?_ ?_ ?_ ?_ <;> simp [Chronicle.act, Controller.settle, hr, Reporting.ending]
  | stop =>
    rw [Chronicle.act]
    split
    · exact h
    · cases hr : x.agent.reporting with
      | sending due batch finish delivered =>
        refine h.ended hr ?_ ?_ ?_
        · simp only [Reporting.ending, List.singleton_append]
        · simp only [Controller.stop, hr]
          intro next _ _ _ hsending
          cases hsending
        · simp only [Controller.stop, Controller.settle, hr]
      | waiting | ended =>
        refine h.unnoted ?_ ?_ ?_ ?_ <;>
          simp [Controller.stop, hr, Reporting.ending, Reporting.inFlight]

/-! ### What a batch holds -/

/-- **The notes tell** the level of every gauge, and which batches were handed over. -/
structure Told (x : Chronicle) : Prop where
  /-- A gauge has the value that it was last set to. -/
  levels : ∀ name, x.agent.samples.gauges.lookup name = x.notes.latest name
  /-- The batches handed over, in their order. -/
  handed : x.agent.reports.map Prod.snd = (x.notes.filterMap Note.batch?).reverse

theorem told_start (pace : Pace) : Told (start pace) := ⟨fun _ => rfl, rfl⟩

/-- Notes that set no gauges and hand over no batch tell the same as before. -/
theorem Told.noted (h : Told x) (news : Notes) (hnotes : x'.notes = news ++ x.notes)
    (hnews : ∀ n ∈ news, n.batch? = none ∧ ∀ name, n.level? name = none)
    (hgauges : x'.agent.samples.gauges = x.agent.samples.gauges)
    (hreports : x'.agent.reports = x.agent.reports) : Told x' := by
  refine ⟨fun name => ?_, ?_⟩
  · have hnone : news.findSome? (Note.level? name) = none :=
      List.findSome?_eq_none_iff.2 fun n hn => (hnews n hn).2 name
    rw [hgauges, h.levels, hnotes, Notes.latest, Notes.latest, List.findSome?_append, hnone]
    rfl
  · have hnone : news.filterMap Note.batch? = [] :=
      List.filterMap_eq_nil_iff.2 fun n hn => (hnews n hn).1
    rw [hreports, h.handed, hnotes, List.filterMap_append, hnone, List.nil_append]

/-- Gauges that are set have their new values. -/
theorem Told.levelled {values : List (String × Binary64)} (h : Told x)
    (hnotes : x'.notes = .levels values :: x.notes)
    (hagent : x'.agent = x.agent.sampled values) : Told x' := by
  refine ⟨fun name => ?_, ?_⟩
  · rw [hagent, hnotes, Controller.sampled, Samples.lookup_setGauges, h.levels, Notes.latest,
      Notes.latest, List.findSome?_cons]
    simp only [Note.level?]
    cases lookupIn name values.reverse <;> rfl
  · rw [hagent, hnotes]
    exact h.handed

theorem mem_ending {r : Reporting} {n : Note} (hn : n ∈ r.ending) :
    n.batch? = none ∧ ∀ name, n.level? name = none := by
  cases r with
  | sending due batch finish delivered =>
    obtain rfl := List.mem_singleton.1 hn
    exact ⟨rfl, fun _ => rfl⟩
  | waiting | ended => cases hn

theorem Told.act (h : Told x) (a : Act) : Told (x.act a) := by
  cases a with
  | sample gauges =>
    rw [Chronicle.act]
    split
    · exact h.levelled rfl rfl
    · exact h
  | tally time =>
    rw [Chronicle.act]
    split
    · exact h.noted [.polled] rfl (by simp [Note.batch?, Note.level?]) rfl rfl
    · exact h
  | set values => exact h.levelled rfl rfl
  | count n delta =>
    exact h.noted [.counted n delta] rfl (by simp [Note.batch?, Note.level?]) rfl rfl
  | report outcome time =>
    cases hr : x.agent.reporting with
    | sending | ended =>
      exact h.noted [] (by simp [Chronicle.act, Controller.beginning, hr])
        (fun _ hn => absurd hn List.not_mem_nil) (by simp [Chronicle.act, Controller.report, hr])
        (by simp [Chronicle.act, Controller.report, hr])
    | waiting due =>
      by_cases hempty : x.agent.samples.snapshot.isEmpty
      · refine h.noted [] ?_ (fun _ hn => absurd hn List.not_mem_nil) ?_ ?_ <;>
          simp [Chronicle.act, Controller.beginning, Controller.report, Samples.takeSnapshot, hr,
            hempty]
      · constructor
        · intro name
          have hlevels := h.levels name
          simpa [Chronicle.act, Controller.beginning, Controller.report, Samples.takeSnapshot, hr,
            hempty, Notes.latest, List.findSome?_cons, Note.level?] using hlevels
        · have hhanded := h.handed
          simp [Chronicle.act, Controller.beginning, Controller.report, Samples.takeSnapshot, hr,
            hempty, Note.batch?, hhanded]
  | settle time =>
    exact h.noted x.agent.reporting.ending rfl (fun n hn => mem_ending hn)
      (Controller.gauges_settle ..) (Controller.reports_settle ..)
  | stop =>
    rw [Chronicle.act]
    split
    · exact h
    · refine h.noted x.agent.reporting.ending rfl (fun n hn => mem_ending hn) ?_ ?_
      · unfold Controller.stop
        split
        · exact Controller.gauges_settle ..
        · rfl
      · unfold Controller.stop
        split
        · exact Controller.reports_settle ..
        · rfl

end Chronicle

/-- **What a batch holds**, read off the notes that were there when it was drained. -/
structure Carries (batch : List Metric) (past : Notes) : Prop where
  /-- Of every name it holds one count at most, which is what was counted since the last batch
  that was delivered had been drained. -/
  counts : ∀ name ≠ "", past.Fits name →
    Single name batch ∧ deltaIn name batch = past.sinceDelivered.sum (Note.added name)
  /-- So the number of polls since then is in it, and what others counted under that name. -/
  polls : past.Fits pollCount → deltaIn pollCount batch =
    past.sinceDelivered.countP Note.isPolled +
      past.sinceDelivered.sum (Note.addedElsewhere pollCount)
  /-- And it holds every gauge that was ever set, once, with the value that it was last set to. -/
  levels : ∀ name ≠ "", levelsOf name batch = (past.latest name).toList

/-- Under the name of the polls, the polls are counted and what others count. -/
theorem Notes.sum_added_pollCount (notes : Notes) :
    notes.sum (Note.added pollCount) =
      notes.countP Note.isPolled + notes.sum (Note.addedElsewhere pollCount) := by
  induction notes with
  | nil => rfl
  | cons n notes ih =>
    rw [sum_cons, sum_cons, ih, List.countP_cons]
    cases n <;> simp [Note.added, Note.count?, Note.addedElsewhere, Note.isPolled] <;> omega

namespace Chronicle

variable {x : Chronicle}

/-- **A batch that is drained holds what it is to hold.** -/
theorem carries_snapshot {due : Nat} (hexact : ∀ name ≠ "", Exact name x) (htold : Told x)
    (hr : x.agent.reporting = .waiting due) : Carries x.agent.samples.snapshot x.notes := by
  have hcounts : ∀ name ≠ "", x.notes.Fits name → Single name x.agent.samples.snapshot ∧
      deltaIn name x.agent.samples.snapshot = x.notes.sinceDelivered.sum (Note.added name) := by
    intro name hname hf
    refine ⟨single_snapshot x.agent.samples hname, ?_⟩
    have hspan := (hexact name hname).span hf
    rw [Memory.deltaIn_snapshot x.agent.samples hname, (hexact name hname).gathered hf, ← hspan, hr]
    exact (Int.zero_add _).symm
  refine ⟨hcounts, fun hf => ?_, fun name hname => ?_⟩
  · rw [(hcounts pollCount (by decide) hf).2, Notes.sum_added_pollCount]
  · rw [Memory.levelsOf_snapshot x.agent.samples hname, htold.levels]

/-- A step makes one note at most, and hands over no batch but the one that its tick drains. -/
theorem notes_act (x : Chronicle) (a : Act) :
    (x.act a).notes = x.notes ∨ ∃ n, (x.act a).notes = n :: x.notes ∧
      ∀ batch, n = .began batch →
        (∃ due, x.agent.reporting = .waiting due) ∧ batch = x.agent.samples.snapshot := by
  -- whatever else is noted hands over no batch
  have hother {n : Note} {p : List Metric → Prop} (hn : n.isBegan = false) :
      ∀ batch, n = .began batch → p batch := by
    rintro batch rfl
    cases hn
  have hending : x.agent.reporting.ending ++ x.notes = x.notes ∨
      ∃ n, x.agent.reporting.ending ++ x.notes = n :: x.notes ∧
        ∀ batch, n = .began batch → (∃ due, x.agent.reporting = .waiting due) ∧
          batch = x.agent.samples.snapshot := by
    cases x.agent.reporting with
    | sending due batch finish delivered => exact .inr ⟨.ended batch delivered, rfl, hother rfl⟩
    | waiting | ended => exact .inl rfl
  cases a with
  | sample gauges =>
    rw [Chronicle.act]
    split
    · exact .inr ⟨_, rfl, hother rfl⟩
    · exact .inl rfl
  | tally time =>
    rw [Chronicle.act]
    split
    · exact .inr ⟨_, rfl, hother rfl⟩
    · exact .inl rfl
  | set values => exact .inr ⟨_, rfl, hother rfl⟩
  | count n delta => exact .inr ⟨_, rfl, hother rfl⟩
  | report outcome time =>
    simp only [Chronicle.act, Controller.beginning]
    split
    · rename_i due hr
      split
      · exact .inl rfl
      · exact .inr ⟨_, rfl, fun batch hb => ⟨⟨due, hr⟩, (Note.began.inj hb).symm⟩⟩
    · exact .inl rfl
  | settle time => exact hending
  | stop =>
    rw [Chronicle.act]
    split
    · exact .inl rfl
    · exact hending

/-- Everything is as the notes say, after every run. -/
theorem exact_run (pace : Pace) (acts : List Act) :
    (∀ name ≠ "", Exact name (run pace acts)) ∧ Told (run pace acts) ∧
      ∀ batch past, .began batch :: past <:+ (run pace acts).notes → Carries batch past := by
  unfold run
  induction acts using List.reverseRecOn with
  | nil =>
    refine ⟨fun name _ => exact_start name pace, told_start pace, fun batch past h => ?_⟩
    exact absurd (List.suffix_nil.1 h) (List.cons_ne_nil _ _)
  | append_singleton acts a ih =>
    obtain ⟨hexact, htold, hbegan⟩ := ih
    rw [List.foldl_append]
    refine ⟨fun name hname => (hexact name hname).act hname a, htold.act a, fun batch past h => ?_⟩
    rcases notes_act (acts.foldl act (start pace)) a with hnotes | ⟨n, hnotes, hn⟩
    · exact hbegan batch past (hnotes ▸ h)
    · rcases List.suffix_cons_iff.1 (hnotes ▸ h) with heq | h
      · obtain ⟨rfl, rfl⟩ := List.cons.inj heq
        obtain ⟨⟨due, hr⟩, rfl⟩ := hn batch rfl
        exact carries_snapshot hexact htold hr
      · exact hbegan batch past h

/-- **Every batch is exact.** After any run of steps in any order, and for every name under which
the samples did not go beyond the range: what was delivered, what is on its way and what the
samples hold are together what was ever counted. And every batch that was handed over held what
was counted since the last batch that was delivered had been drained, and the latest value of
every gauge. -/
theorem batches_exact (pace : Pace) (acts : List Act) :
    (∀ name ≠ "", (run pace acts).notes.Fits name →
      (run pace acts).notes.sum (Note.delivered name) +
          deltaIn name (run pace acts).agent.reporting.inFlight +
          (Memory.total (run pace acts).agent.samples name).toInt =
        (run pace acts).notes.sum (Note.added name)) ∧
      (run pace acts).agent.reports.map Prod.snd =
        ((run pace acts).notes.filterMap Note.batch?).reverse ∧
      ∀ batch past, .began batch :: past <:+ (run pace acts).notes → Carries batch past := by
  obtain ⟨hexact, htold, hbegan⟩ := exact_run pace acts
  refine ⟨fun name hname hf => ?_, htold.handed, hbegan⟩
  rw [(hexact name hname).gathered hf]
  exact (hexact name hname).balanced

/-- A count that fails to be delivered, with a poll whose gauges are set before the batch is drained
and which is counted behind that. -/
def failedThenDelivered : List Act :=
  [.count "hits" 5, .sample [("heat", .ofFraction false 3 2)],
    .report ⟨20, some (.transport "lost")⟩ 10, .tally 11, .count "hits" 2, .settle 30,
    .sample [("heat", .ofFraction false 5 2)], .tally 31, .report ⟨1, none⟩ 40, .count "hits" 4,
    .settle 41]

/-- What happened until the second batch was drained. -/
def beforeDelivered : Notes := ((run ⟨10, 10⟩ failedThenDelivered).notes).drop 3

/-- Seven hits were delivered with two polls, and four are buffered. -/
theorem batches_exact_failedThenDelivered :
    let x := run ⟨10, 10⟩ failedThenDelivered
    "hits" ≠ "" ∧ x.notes.Fits "hits" ∧ beforeDelivered.Fits pollCount ∧
      x.notes.sum (Note.delivered "hits") + deltaIn "hits" x.agent.reporting.inFlight +
        (Memory.total x.agent.samples "hits").toInt = 11 ∧
      ∃ batch, .began batch :: beforeDelivered <:+ x.notes ∧ deltaIn "hits" batch = 7 ∧
        deltaIn pollCount batch = 2 ∧ levelsOf "heat" batch = [.ofFraction false 5 2] := by
  intro x
  have hname : "hits" ≠ "" := by decide
  have hfits : x.notes.Fits "hits" := by decide +kernel
  have hpast : beforeDelivered.Fits "hits" := by decide +kernel
  have hpolls : beforeDelivered.Fits pollCount := by decide +kernel
  obtain ⟨hsum, -, hbatches⟩ := batches_exact ⟨10, 10⟩ failedThenDelivered
  have hbegan : x.notes.drop 2 =
      .began ((x.notes[2]?.bind Note.batch?).getD []) :: beforeDelivered := by rfl
  have hcarries := hbatches _ _ (hbegan ▸ List.drop_suffix 2 x.notes)
  refine ⟨hname, hfits, hpolls, ?_, _, hbegan ▸ List.drop_suffix 2 x.notes, ?_, ?_, ?_⟩
  · rw [hsum "hits" hname hfits]
    decide +kernel
  · rw [(hcarries.counts "hits" hname hpast).2]
    decide +kernel
  · rw [hcarries.polls hpolls]
    decide +kernel
  · rw [hcarries.levels "heat" (by decide)]
    decide +kernel

end Chronicle

end Telemetry
