import Mathlib
import Telemetry.Proofs.Histories

/-!
# Putting back undoes the drain

A snapshot takes the counters out of the samples, and one that was not delivered is put back on top
of what has been counted meanwhile. Several snapshots may be out at a time, and they come back in
any order. Once all of them are back, the samples are what they would be if none had been taken.

Behind it stands one picture: under every name the counts made so far lie in **piles**, one with
the samples and one in each snapshot that is out, and wherever a pile lies, only its sum is there,
cut at the ends of the range. To take a snapshot moves a pile, and to put one back merges two. Sums
that were cut merge to the sum that would have been cut at once if the counts are `Mergeable`: if no
two of them pull in different directions, so that what was cut off stays beyond the end, or if no
part of them leaves the range, so that nothing is ever cut off.

* `pileTotal_append`: where two piles may be merged;
* `Depot`, `Depot.Move`, `Depot.run`: samples, snapshots of them that are out, and what is done;
* `Depot.accounts_act`, `Depot.accounts_run`: no count is lost, and none is there twice;
* `Depot.undone_run`: when everything is back.
-/

namespace Telemetry

/-! ### Piles of counts -/

/-- No sum of some of the counts leaves the range. -/
def StaysInside (ds : List Int64) : Prop :=
  ∀ part : List Int64, part.Sublist ds → InRange (part.map Int64.toInt).sum

instance (ds : List Int64) : Decidable (StaysInside ds) :=
  decidable_of_iff (∀ part ∈ ds.sublists, InRange (part.map Int64.toInt).sum) <|
    forall_congr' fun _ => imp_congr_left List.mem_sublists

/-- **Counts that may be added up in any order and in any groups.** -/
def Mergeable (ds : List Int64) : Prop := OneSign ds ∨ StaysInside ds

instance (ds : List Int64) : Decidable (Mergeable ds) := inferInstanceAs (Decidable (_ ∨ _))

/-- The sum of a pile of counts, cut at the ends of the range. -/
def pileTotal (ds : List Int64) : Int64 := Int64.ofIntClamp (ds.map Int64.toInt).sum

/-- What is there of a pile: its total, and nothing at all if nothing was counted. -/
def tally (ds : List Int64) : Option Int64 := if ds = [] then none else some (pileTotal ds)

section Piles

variable {ds es : List Int64}

/-- What may be merged may be merged in part, and in another order. -/
theorem Mergeable.of_subperm (h : Mergeable ds) (hes : es.Subperm ds) : Mergeable es := by
  refine h.imp (fun h => ?_) fun h part hpart => ?_
  · exact h.imp (fun h d hd => h d (hes.subset hd)) fun h d hd => h d (hes.subset hd)
  · obtain ⟨sub, hperm, hsub⟩ := hpart.subperm.trans hes
    rw [← (hperm.map Int64.toInt).sum_eq]
    exact h sub hsub

theorem StaysInside.inRange (h : StaysInside ds) : InRange (ds.map Int64.toInt).sum :=
  h ds (.refl ds)

/-- A sum inside the range is not cut. -/
theorem toInt_pileTotal (h : InRange (ds.map Int64.toInt).sum) :
    (pileTotal ds).toInt = (ds.map Int64.toInt).sum := by
  obtain ⟨hlo, hhi⟩ := h
  rw [pileTotal, toInt_ofIntClamp_eq]
  omega

theorem pileTotal_singleton (d : Int64) : pileTotal [d] = d := by
  simp [pileTotal]

theorem pileTotal_perm (h : ds.Perm es) : pileTotal ds = pileTotal es := by
  rw [pileTotal, pileTotal, (h.map Int64.toInt).sum_eq]

/-- **The totals of two piles add up to the total of both**, if the counts may be merged. -/
theorem pileTotal_append (h : Mergeable (ds ++ es)) :
    addClamped (pileTotal ds) (pileTotal es) = pileTotal (ds ++ es) := by
  have hlo : Int64.minValue.toInt ≤ 0 := by decide
  have hhi : 0 ≤ Int64.maxValue.toInt := by decide
  rw [← Int64.toInt_inj, addClamped, pileTotal, pileTotal, pileTotal, toInt_ofIntClamp_eq,
    toInt_ofIntClamp_eq, toInt_ofIntClamp_eq, toInt_ofIntClamp_eq, List.map_append,
    List.sum_append]
  obtain (hsign | hsign) | hinside := h
  · -- a sum cut at the upper end stays there, whatever comes on top of it
    have hds := sum_toInt_nonneg fun d hd => hsign d (List.mem_append_left es hd)
    have hes := sum_toInt_nonneg fun d hd => hsign d (List.mem_append_right ds hd)
    omega
  · have hds := sum_toInt_nonpos fun d hd => hsign d (List.mem_append_left es hd)
    have hes := sum_toInt_nonpos fun d hd => hsign d (List.mem_append_right ds hd)
    omega
  · obtain ⟨hdslo, hdshi⟩ := hinside ds (List.sublist_append_left ds es)
    obtain ⟨heslo, heshi⟩ := hinside es (List.sublist_append_right ds es)
    omega

theorem tally_of_ne_nil (h : ds ≠ []) : tally ds = some (pileTotal ds) := if_neg h

theorem tally_eq_none_iff : tally ds = none ↔ ds = [] := by
  simp [tally]

/-- A counter that is not there counts as zero. -/
theorem tally_getD (ds : List Int64) : (tally ds).getD 0 = pileTotal ds := by
  by_cases h : ds = []
  · rw [h]
    rfl
  · rw [tally_of_ne_nil h, Option.getD_some]

theorem tally_perm (h : ds.Perm es) : tally ds = tally es := by
  have hnil : ds = [] ↔ es = [] := by
    rw [← List.length_eq_zero_iff, h.length_eq, List.length_eq_zero_iff]
  simp only [tally, hnil, pileTotal_perm h]

end Piles

/-! ### Samples behind a batch that is put back -/

namespace Samples

/-- **What is put back is applied**, without its gauges. -/
theorem restoreCounters_eq_applyAll (s : Samples) (batch : List Metric) :
    s.restoreCounters batch = Memory.applyAll s (batch.filter (·.kind = .counter)) := by
  unfold restoreCounters
  induction batch generalizing s with
  | nil => rfl
  | cons m ms ih =>
    obtain ⟨n, v, hn⟩ := m
    cases v <;> exact ih _

/-- Setting gauges counts nothing. -/
theorem counters_setGauges (s : Samples) (values : List (String × Binary64)) :
    (s.setGauges values).counters = s.counters := by
  unfold setGauges
  induction values generalizing s with
  | nil => rfl
  | cons p values ih => exact ih _

/-- A snapshot leaves no counter behind. -/
theorem counter_takeSnapshot (s : Samples) (name : String) :
    counter s.takeSnapshot.2 name = none := NameMap.lookup_empty name

end Samples

/-- The gauges of a batch hold no counts. -/
theorem deltasOf_filter_counter (name : String) (ms : List Metric) :
    deltasOf name (ms.filter (·.kind = .counter)) = deltasOf name ms := by
  rw [deltasOf, List.filterMap_filter, deltasOf]
  refine List.filterMap_congr fun m _ => ?_
  obtain ⟨n, v, hn⟩ := m
  cases v <;> rfl

/-- No metric is without a name. -/
theorem deltasOf_noName (ms : List Metric) : deltasOf "" ms = [] := by
  refine List.filterMap_eq_nil_iff.2 fun m _ => ?_
  obtain ⟨n, v, hn⟩ := m
  cases v <;> simp [deltaOf?, hn]

/-- **A pile put back is merged** with the one that is there. -/
theorem Samples.counter_restoreCounters {s : Samples} {batch : List Metric} {name : String}
    {held pile : List Int64} (hs : s.counter name = tally held)
    (hbatch : deltasOf name batch = (tally pile).toList) (h : Mergeable (held ++ pile)) :
    (s.restoreCounters batch).counter name = tally (held ++ pile) := by
  rw [counter] at hs ⊢
  rw [restoreCounters_eq_applyAll, Memory.lookup_counters_applyAll, deltasOf_filter_counter, hbatch,
    Memory.total, hs]
  by_cases hpile : pile = []
  · simp [hpile, tally]
  · have hboth : held ++ pile ≠ [] := fun hnil => hpile (List.append_eq_nil_iff.1 hnil).2
    rw [tally_getD, tally_of_ne_nil hpile, tally_of_ne_nil hboth, ← pileTotal_append h]
    rfl

/-! ### Samples, and snapshots that are out -/

/-- Samples, and the snapshots of them that are out, in the order in which they were taken. -/
structure Depot where
  /-- The samples. -/
  samples : Samples
  /-- The snapshots that are out. -/
  out : List (List Metric)

namespace Depot

/-- What is done to samples. -/
inductive Move where
  /-- Gauges are set. -/
  | set (values : List (String × Binary64))
  /-- A counter is counted on. -/
  | count (name : String) (delta : Int64) (named : name ≠ "")
  /-- A snapshot is taken. -/
  | take
  /-- A snapshot that is out is put back; it is not out any more. -/
  | putBack (index : Nat)

namespace Move

/-- Does it set gauges? -/
def isSet : Move → Bool
  | .set _ => true
  | _ => false

/-- Does it count? -/
def isCount : Move → Bool
  | .count .. => true
  | _ => false

/-- What is counted under a name. -/
def countOf? (name : String) : Move → Option Int64
  | .count n d _ => if n = name then some d else none
  | _ => none

end Move

/-- The counts made under a name, in their order. -/
def countsOf (name : String) (moves : List Move) : List Int64 :=
  moves.filterMap (Move.countOf? name)

/-- One move. Where no snapshot is out, none is put back. -/
def act (x : Depot) : Move → Depot
  | .set values => { x with samples := x.samples.setGauges values }
  | .count name d _ => { x with samples := x.samples.addCounter name d }
  | .take => ⟨x.samples.takeSnapshot.2, x.out ++ [x.samples.takeSnapshot.1]⟩
  | .putBack i =>
    match x.out[i]? with
    | some batch => ⟨x.samples.restoreCounters batch, x.out.eraseIdx i⟩
    | none => x

/-- Moves in order, from samples that are empty. -/
def run (moves : List Move) : Depot := moves.foldl act ⟨.empty, []⟩

variable {x : Depot} {name : String} {counts : List Int64} {moves : List Move}

@[simp] theorem run_append_singleton (moves : List Move) (m : Move) :
    run (moves ++ [m]) = (run moves).act m := by
  simp [run]

theorem countsOf_append_singleton (name : String) (moves : List Move) (m : Move) :
    countsOf name (moves ++ [m]) = countsOf name moves ++ (m.countOf? name).toList := by
  cases h : m.countOf? name <;> simp [countsOf, h]

/-- Every count has a name. -/
theorem countsOf_noName (moves : List Move) : countsOf "" moves = [] := by
  refine List.filterMap_eq_nil_iff.2 fun m _ => ?_
  cases m with
  | count n d named => exact if_neg named
  | _ => rfl

/-- Only counting leaves counts. -/
theorem countsOf_filter_isCount (name : String) (moves : List Move) :
    countsOf name (moves.filter Move.isCount) = countsOf name moves := by
  rw [countsOf, List.filterMap_filter, countsOf]
  refine List.filterMap_congr fun m _ => ?_
  cases m <;> rfl

/-! ### No count is lost -/

/-- **Every count made under a name lies in one pile**, with the samples or in one of the snapshots
that are out, and wherever a pile lies, its total is there. -/
def Accounts (x : Depot) (name : String) (counts : List Int64) : Prop :=
  ∃ (held : List Int64) (away : List (List Int64)),
    x.samples.counter name = tally held ∧
    x.out.map (deltasOf name) = away.map (fun pile => (tally pile).toList) ∧
    (held ++ away.flatten).Perm counts

/-- A counter is drained into the snapshot. -/
theorem Accounts.take (h : x.Accounts name counts) (hname : name = "" → counts = []) :
    (x.act .take).Accounts name counts := by
  obtain ⟨held, away, hheld, haway, hperm⟩ := h
  have hdrained : deltasOf name x.samples.takeSnapshot.1 = (tally held).toList := by
    by_cases hn : name = ""
    · -- nothing was ever counted there
      rw [hname hn, List.perm_nil, List.append_eq_nil_iff] at hperm
      rw [hn, deltasOf_noName, hperm.1]
      rfl
    · rw [← hheld]
      exact Memory.deltasOf_snapshot _ hn
  refine ⟨[], away ++ [held], x.samples.counter_takeSnapshot name, ?_, ?_⟩
  · simp only [act, List.map_append, haway, List.map_cons, List.map_nil, hdrained]
  · rw [List.nil_append, List.flatten_append, List.flatten_singleton]
    exact List.perm_append_comm.trans hperm

/-- A pile that comes back is merged with the one that stayed. -/
theorem Accounts.putBack (h : x.Accounts name counts) (hmerge : Mergeable counts) (i : Nat) :
    (x.act (.putBack i)).Accounts name counts := by
  obtain ⟨held, away, hheld, haway, hperm⟩ := h
  rw [act]
  cases hout : x.out[i]? with
  | none => exact ⟨held, away, hheld, haway, hperm⟩
  | some batch =>
    have hpiled := congrArg (·[i]?) haway
    simp only [List.getElem?_map, hout, Option.map_some] at hpiled
    obtain ⟨pile, hpile, hbatch⟩ := Option.map_eq_some_iff.1 hpiled.symm
    obtain ⟨hi, rfl⟩ := List.getElem?_eq_some_iff.1 hpile
    have hperm' : ((held ++ away[i]) ++ (away.eraseIdx i).flatten).Perm counts := by
      rw [List.append_assoc, ← List.flatten_cons]
      exact ((List.getElem_cons_eraseIdx_perm hi).flatten.append_left held).trans hperm
    refine ⟨held ++ away[i], away.eraseIdx i, ?_, ?_, hperm'⟩
    · exact Samples.counter_restoreCounters hheld hbatch.symm
        (hmerge.of_subperm ((List.sublist_append_left _ _).subperm.trans hperm'.subperm))
    · rw [← List.eraseIdx_map, ← List.eraseIdx_map, haway]

/-- A count is laid on the pile that is with the samples. -/
theorem Accounts.count (h : x.Accounts name counts) {n : String} {d : Int64} (named : n ≠ "")
    (hmerge : Mergeable (counts ++ (Move.countOf? name (.count n d named)).toList)) :
    (x.act (.count n d named)).Accounts name
      (counts ++ (Move.countOf? name (.count n d named)).toList) := by
  obtain ⟨held, away, hheld, haway, hperm⟩ := h
  generalize hone : (Move.countOf? name (.count n d named)).toList = one at hmerge ⊢
  have hperm' : ((held ++ one) ++ away.flatten).Perm (counts ++ one) := by
    rw [List.append_assoc]
    exact (List.perm_append_comm.append_left held).trans
      (by rw [← List.append_assoc]; exact hperm.append_right one)
  -- one count is put back as a batch of one metric would be
  have hbatch : deltasOf name [⟨n, .counter d, named⟩] = (tally one).toList := by
    rw [← hone]
    by_cases hn : n = name
    · simp [deltasOf, deltaOf?, Move.countOf?, hn, tally, pileTotal_singleton]
    · simp [deltasOf, deltaOf?, Move.countOf?, hn, tally]
  have hmerged := hmerge.of_subperm ((List.sublist_append_left _ _).subperm.trans hperm'.subperm)
  exact ⟨held ++ one, away, Samples.counter_restoreCounters hheld hbatch hmerged, haway, hperm'⟩

/-- **A move loses no count**, and makes none that was not made. -/
theorem accounts_act (h : x.Accounts name counts) (hname : name = "" → counts = []) (m : Move)
    (hmerge : Mergeable (counts ++ (m.countOf? name).toList)) :
    (x.act m).Accounts name (counts ++ (m.countOf? name).toList) := by
  cases m with
  | set values =>
    obtain ⟨held, away, hheld, haway, hperm⟩ := h
    refine ⟨held, away, ?_, haway, by simpa [Move.countOf?] using hperm⟩
    rw [← hheld, act, Samples.counter, Samples.counters_setGauges]
    rfl
  | count n d named => exact h.count named hmerge
  | take => simpa [Move.countOf?] using h.take hname
  | putBack i =>
    simpa [Move.countOf?] using h.putBack (by simpa [Move.countOf?] using hmerge) i

/-- **However snapshots are taken and put back, no count is lost.** -/
theorem accounts_run (h : Mergeable (countsOf name moves)) :
    (run moves).Accounts name (countsOf name moves) := by
  induction moves using List.reverseRecOn with
  | nil => exact ⟨[], [], NameMap.lookup_empty name, rfl, .nil⟩
  | append_singleton moves m ih =>
    rw [countsOf_append_singleton] at h ⊢
    rw [run_append_singleton]
    have hearlier := ih (h.of_subperm (List.sublist_append_left _ _).subperm)
    exact accounts_act hearlier (fun hname => hname ▸ countsOf_noName moves) m h

/-- **When everything is back, every pile is with the samples.** -/
theorem counter_run (h : Mergeable (countsOf name moves)) (hback : (run moves).out = []) :
    (run moves).samples.counter name = tally (countsOf name moves) := by
  obtain ⟨held, away, hheld, haway, hperm⟩ := accounts_run h
  rw [hback, List.map_nil, eq_comm, List.map_eq_nil_iff] at haway
  rw [haway, List.flatten_nil, List.append_nil] at hperm
  rw [hheld, tally_perm hperm]

/-- Where nothing was taken, nothing is out. -/
theorem out_run_filter_isCount (moves : List Move) :
    (run (moves.filter Move.isCount)).out = [] := by
  induction moves using List.reverseRecOn with
  | nil => rfl
  | append_singleton moves m ih =>
    rw [List.filter_append, List.filter_singleton]
    cases m with
    | count n d named => exact (congrArg out (run_append_singleton _ _)).trans ih
    | _ => simpa [Move.isCount] using ih

/-- Taking, putting back and counting leave the gauges as they are. -/
theorem gauges_act (x : Depot) {m : Move} (hm : m.isSet = false) :
    (x.act m).samples.gauges = x.samples.gauges := by
  cases m with
  | set values => cases hm
  | count n d named => rfl
  | take => rfl
  | putBack i =>
    rw [act]
    cases x.out[i]? with
    | none => rfl
    | some batch => exact Samples.gauges_restoreCounters _ batch

/-- **The gauges are those that were set.** -/
theorem gauges_run (moves : List Move) :
    (run moves).samples.gauges = (run (moves.filter Move.isSet)).samples.gauges := by
  induction moves using List.reverseRecOn with
  | nil => rfl
  | append_singleton moves m ih =>
    rw [run_append_singleton, List.filter_append, List.filter_singleton]
    cases hm : m.isSet with
    | false => rw [gauges_act _ hm, ih, cond_false, List.append_nil]
    | true =>
      rw [cond_true, run_append_singleton]
      cases m with
      | set values =>
        refine NameMap.ext_lookup fun name => ?_
        rw [act, act, Samples.lookup_setGauges, Samples.lookup_setGauges, ih]
      | _ => cases hm

/-! ### When everything is back -/

/-- **To put all snapshots back is to undo that they were taken.** -/
structure Undone (moves : List Move) : Prop where
  /-- The counters are those that counting alone would have led to. -/
  counters :
    (run moves).samples.counters = (run (moves.filter Move.isCount)).samples.counters
  /-- A counter is there exactly if its name was counted on, also if that makes zero. -/
  names (name : String) :
    ((run moves).samples.counter name).isSome = true ↔ countsOf name moves ≠ []
  /-- Where nobody counted down, the total is the sum, capped at the end of the range. -/
  capped (name : String) (total : Int64) (h : (run moves).samples.counter name = some total)
    (hnonneg : ∀ d ∈ countsOf name moves, 0 ≤ d.toInt) :
    total.toInt = min Int64.maxValue.toInt ((countsOf name moves).map Int64.toInt).sum
  /-- Where no sum of some of the counts leaves the range, the total is the sum itself. -/
  uncut (name : String) (total : Int64) (h : (run moves).samples.counter name = some total)
    (hinside : StaysInside (countsOf name moves)) :
    total.toInt = ((countsOf name moves).map Int64.toInt).sum
  /-- At no time do the gauges tell that snapshots have been taken or put back, or anything been
  counted. -/
  gauges (earlier : List Move) (h : earlier <+: moves) :
    (run earlier).samples.gauges = (run (earlier.filter Move.isSet)).samples.gauges

/-- **Once all snapshots are back**, each of them once and in any order, the samples are what they
would be if none had been taken. -/
theorem undone_run (hmerge : ∀ name, Mergeable (countsOf name moves))
    (hback : (run moves).out = []) : Undone moves := by
  have htally (name : String) := counter_run (hmerge name) hback
  have htotal {name : String} {total : Int64} (h : (run moves).samples.counter name = some total) :
      total = pileTotal (countsOf name moves) := by
    rw [htally, tally] at h
    split at h
    · cases h
    · exact (Option.some.inj h).symm
  constructor
  case counters =>
    refine NameMap.ext_lookup fun name => ?_
    have hcounted := countsOf_filter_isCount name moves
    have halone := counter_run (hcounted ▸ hmerge name) (out_run_filter_isCount moves)
    rw [hcounted] at halone
    exact (htally name).trans halone.symm
  case names =>
    intro name
    rw [htally, Option.isSome_iff_ne_none, ne_eq, tally_eq_none_iff]
  case capped =>
    intro name total h hnonneg
    have hlo : Int64.minValue.toInt ≤ 0 := by decide
    have hhi : 0 ≤ Int64.maxValue.toInt := by decide
    have hsum := sum_toInt_nonneg hnonneg
    rw [htotal h, pileTotal, toInt_ofIntClamp_eq]
    omega
  case uncut =>
    intro name total h hinside
    rw [htotal h, toInt_pileTotal hinside.inRange]
  case gauges => exact fun earlier _ => gauges_run earlier

/-- Two snapshots are out. The later one is put back first, and its counts are drained once more
before the earlier one comes back. One counter is carried past the end of the range, one comes back
to where it began, and one is counted on by zero. -/
def shuffledMoves : List Move :=
  [.set [("load", .ofFraction false 3 2)], .count "served" 9223372036854775806 (by decide),
    .count "waiting" (-3) (by decide), .take, .count "served" 5 (by decide),
    .count "waiting" 7 (by decide), .take, .set [("load", .negZero)],
    .count "dropped" 0 (by decide), .putBack 1, .count "waiting" (-4) (by decide), .take,
    .count "served" 2 (by decide), .putBack 0, .putBack 0]

/-- All three are there in the end, two of them with the total zero. -/
theorem undone_shuffledMoves :
    (∀ name, Mergeable (countsOf name shuffledMoves)) ∧ (run shuffledMoves).out = [] ∧
      Undone shuffledMoves ∧
      (run shuffledMoves).samples.counter "served" = some Int64.maxValue ∧
      (run shuffledMoves).samples.counter "waiting" = some 0 ∧
      (run shuffledMoves).samples.counter "dropped" = some 0 ∧
      (run shuffledMoves).samples.gauge "load" = some .negZero := by
  have hmerge (name : String) : Mergeable (countsOf name shuffledMoves) := by
    by_cases hserved : "served" = name
    · subst hserved
      decide +kernel
    by_cases hwaiting : "waiting" = name
    · subst hwaiting
      decide +kernel
    by_cases hdropped : "dropped" = name
    · subst hdropped
      decide +kernel
    have hnone : countsOf name shuffledMoves = [] := by
      simp [countsOf, shuffledMoves, Move.countOf?, hserved, hwaiting, hdropped]
    rw [hnone]
    decide
  have hback : (run shuffledMoves).out = [] := by decide +kernel
  refine ⟨hmerge, hback, undone_run hmerge hback, ?_, ?_, ?_, ?_⟩ <;> decide +kernel

/-- Counts that may not be merged: what is cut off at the end of the range is missing when it is
counted down again, unless the total was out in a snapshot meanwhile. -/
example :
    (run [.count "a" 9223372036854775807 (by decide), .take, .count "a" 1 (by decide),
        .count "a" (-1) (by decide), .putBack 0]).samples.counter "a" =
      some 9223372036854775807 ∧
    (run [.count "a" 9223372036854775807 (by decide), .count "a" 1 (by decide),
        .count "a" (-1) (by decide)]).samples.counter "a" = some 9223372036854775806 := by
  decide +kernel

end Depot

end Telemetry
