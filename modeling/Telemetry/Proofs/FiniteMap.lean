import Mathlib
import Telemetry.Proofs.Listing
import Telemetry.Proofs.Chronicle

/-!
# A store in memory is a finite map

What is found in memory under a kind and a name is told by two things: what the maps held there
when they were last replaced as a whole, and the values of that kind and name that were applied
since. Of levels the last one counts, and counts add up one after the other, stopping at the ends
of the range (`Memory.valueBehind`). Nothing else reaches a kind and a name, not even the values of
the other kind under the same name.

All other ways to look at a store are told by what is found in it: it lists what is found under some
kind and name, each of them once and the gauges first, and its size is the length of that list.

* `Memory.value?_applyAll`: what is found behind a batch;
* `Memory.mem_snapshot_iff`, `Memory.nodup_snapshot`: what is listed;
* `Memory.Deed`, `Memory.performAll_eq`: a store to which anything was done, as a batch on top of
  the maps that were put in last;
* `Memory.isFiniteMap_performAll`: all of this together.
-/

namespace Telemetry

/-! ### What a batch writes -/

@[simp] theorem levelsOf_nil (name : String) : levelsOf name [] = [] := rfl

theorem levelsOf_cons (name : String) (m : Metric) (ms : List Metric) :
    levelsOf name (m :: ms) = (levelOf? name m).toList ++ levelsOf name ms := by
  cases h : levelOf? name m <;> simp [levelsOf, h]

/-- A batch holds a value of a kind and a name. -/
def Writes (ms : List Metric) (kind : Kind) (name : String) : Prop :=
  ∃ m ∈ ms, m.kind = kind ∧ m.name = name

instance (ms : List Metric) (kind : Kind) (name : String) : Decidable (Writes ms kind name) :=
  inferInstanceAs (Decidable (∃ m ∈ ms, m.kind = kind ∧ m.name = name))

/-- It holds no levels of a name exactly if it writes no gauge of it, -/
theorem levelsOf_eq_nil_iff {name : String} {ms : List Metric} :
    levelsOf name ms = [] ↔ ¬Writes ms .gauge name := by
  rw [levelsOf, List.filterMap_eq_nil_iff, Writes, not_exists]
  refine forall_congr' fun m => ?_
  obtain ⟨n, v, hn⟩ := m
  cases v <;> simp [levelOf?, Metric.kind, Value.kind]

/-- and no counts exactly if it writes no counter. -/
theorem deltasOf_eq_nil_iff {name : String} {ms : List Metric} :
    deltasOf name ms = [] ↔ ¬Writes ms .counter name := by
  rw [deltasOf, List.filterMap_eq_nil_iff, Writes, not_exists]
  refine forall_congr' fun m => ?_
  obtain ⟨n, v, hn⟩ := m
  cases v <;> simp [deltaOf?, Metric.kind, Value.kind]

namespace Memory

variable {s : Memory} {ms : List Metric} {kind : Kind} {name : String}

/-! ### What is found behind a batch -/

/-- A metric applied is the level of its own name, if it is a gauge. -/
theorem lookup_gauges_apply (s : Memory) (m : Metric) (name : String) :
    (s.apply m).gauges.lookup name = (levelOf? name m).or (s.gauges.lookup name) := by
  obtain ⟨n, v, hn⟩ := m
  cases v with
  | counter d => rfl
  | gauge x =>
    by_cases h : name = n
    · subst h
      simp [apply, write, levelOf?]
    · simp [apply, write, levelOf?, NameMap.lookup_insert, h, Ne.symm h]

/-- If it is a counter, its count is on top of the total of its own name. -/
theorem lookup_counters_apply (s : Memory) (m : Metric) (name : String) :
    (s.apply m).counters.lookup name =
      ((deltaOf? name m).map (addClamped (s.total name))).or (s.counters.lookup name) := by
  obtain ⟨n, v, hn⟩ := m
  cases v with
  | gauge x => rfl
  | counter d =>
    by_cases h : name = n
    · subst h
      simp [apply, write, deltaOf?, total, NameMap.lookup_modify]
    · simp [apply, write, deltaOf?, NameMap.lookup_modify, h, Ne.symm h]

/-- **Of the levels applied the last one counts.** -/
theorem lookup_gauges_applyAll (s : Memory) (ms : List Metric) (name : String) :
    (s.applyAll ms).gauges.lookup name =
      (levelsOf name ms).getLast?.or (s.gauges.lookup name) := by
  induction ms generalizing s with
  | nil => rfl
  | cons m ms ih =>
    rw [applyAll_cons, ih, lookup_gauges_apply, levelsOf_cons, List.getLast?_append,
      Option.or_assoc]
    cases levelOf? name m <;> rfl

/-- **Counts applied add up**, on top of the total that there was. -/
theorem lookup_counters_applyAll (s : Memory) (ms : List Metric) (name : String) :
    (s.applyAll ms).counters.lookup name =
      if deltasOf name ms = [] then s.counters.lookup name
      else some ((deltasOf name ms).foldl addClamped (s.total name)) := by
  induction ms generalizing s with
  | nil => rfl
  | cons m ms ih =>
    rw [applyAll_cons, ih, lookup_counters_apply, total_apply, deltasOf_cons]
    cases deltaOf? name m with
    | none => rfl
    | some d =>
      -- the count is there from now on, whatever comes behind it
      by_cases h : deltasOf name ms = []
      · simp [h]
      · simp [h]

/-- **What is found behind a batch**: the last of its levels, or its counts on top of the total, and
what was found before where it writes nothing. -/
def valueBehind (s : Memory) (ms : List Metric) : Kind → String → Option Value
  | .gauge, name => ((levelsOf name ms).getLast?.or (s.gauges.lookup name)).map .gauge
  | .counter, name =>
    if deltasOf name ms = [] then (s.counters.lookup name).map .counter
    else some (.counter ((deltasOf name ms).foldl addClamped (s.total name)))

theorem value?_applyAll (s : Memory) (ms : List Metric) (kind : Kind) (name : String) :
    (s.applyAll ms).value? kind name = s.valueBehind ms kind name := by
  cases kind with
  | gauge => rw [value?, lookup_gauges_applyAll, valueBehind]
  | counter =>
    rw [value?, lookup_counters_applyAll, valueBehind]
    split <;> rfl

/-- A batch that writes nothing there leaves it as it was. -/
theorem valueBehind_of_not_writes (h : ¬Writes ms kind name) :
    s.valueBehind ms kind name = s.value? kind name := by
  cases kind with
  | gauge =>
    rw [valueBehind, levelsOf_eq_nil_iff.2 h]
    rfl
  | counter =>
    rw [valueBehind, if_pos (deltasOf_eq_nil_iff.2 h)]
    rfl

/-- Where it writes something, something is found. -/
theorem valueBehind_eq_none_iff :
    s.valueBehind ms kind name = none ↔ s.value? kind name = none ∧ ¬Writes ms kind name := by
  refine ⟨fun h => ?_, fun ⟨hnone, hwrites⟩ => (valueBehind_of_not_writes hwrites).trans hnone⟩
  have hwrites : ¬Writes ms kind name := by
    intro hwrites
    cases kind with
    | gauge =>
      rw [valueBehind, Option.map_eq_none_iff, Option.or_eq_none_iff,
        List.getLast?_eq_none_iff] at h
      exact levelsOf_eq_nil_iff.1 h.1 hwrites
    | counter =>
      rw [valueBehind, if_neg fun hnil => deltasOf_eq_nil_iff.1 hnil hwrites] at h
      cases h
  exact ⟨(valueBehind_of_not_writes hwrites).symm.trans h, hwrites⟩

/-! ### Looking up -/

/-- A metric is found exactly if it has the name, and its value is the one that is there. -/
theorem lookup_eq_ok_iff {m : Metric} :
    s.lookup kind name = .ok m ↔ m.name = name ∧ s.value? kind name = some m.value := by
  rw [lookup_eq]
  cases s.value? kind name with
  | none => simp
  | some v =>
    rw [Option.some.injEq, @eq_comm _ v]
    exact Metric.ofValue_eq_ok_iff

/-- A metric is unknown exactly if there is no value. -/
theorem lookup_eq_unknown_iff :
    s.lookup kind name = .error (.unknownMetric kind.tag name) ↔ s.value? kind name = none := by
  rw [lookup_eq]
  cases s.value? kind name with
  | none => simp
  | some v =>
    refine iff_of_false (fun h => ?_) (Option.some_ne_none v)
    change Metric.ofValue name v = _ at h
    rw [Metric.ofValue] at h
    split at h <;> cases h

theorem lookup_congr {t : Memory} (h : t.value? kind name = s.value? kind name) :
    t.lookup kind name = s.lookup kind name := by
  rw [lookup, lookup, h]

/-! ### Listing -/

/-- The metrics of entries are those whose name and value stand in one of them. -/
theorem mem_metricsOf_iff {α : Type} {value : α → Value} {entries : List (String × α)}
    {m : Metric} :
    m ∈ metricsOf value entries ↔ ∃ p ∈ entries, m.name = p.1 ∧ m.value = value p.2 := by
  refine ⟨mem_metricsOf, fun ⟨p, hp, hm⟩ => ?_⟩
  rw [metricsOf_eq]
  refine List.mem_filterMap.2 ⟨p, hp, ?_⟩
  rw [Metric.ofValue_eq_ok_iff.2 hm]
  rfl

/-- **What is listed is what is found** under some kind and name. -/
theorem mem_snapshot_iff {m : Metric} : m ∈ s.snapshot ↔ s.value? m.kind m.name = some m.value := by
  have hgauge (x : Binary64) : (m.name, x) ∈ s.gauges.entries ↔ s.gauges.lookup m.name = some x :=
    mem_iff_lookupIn (distinct_of_sorted s.gauges.sorted) (m.name, x)
  have hcounter (n : Int64) :
      (m.name, n) ∈ s.counters.entries ↔ s.counters.lookup m.name = some n :=
    mem_iff_lookupIn (distinct_of_sorted s.counters.sorted) (m.name, n)
  obtain ⟨name, v, hname⟩ := m
  rw [snapshot, List.mem_append, mem_metricsOf_iff, mem_metricsOf_iff]
  cases v with
  | gauge x =>
    simp only [Metric.kind, Value.kind, value?, Option.map_eq_some_iff, Value.gauge.injEq,
      reduceCtorEq, and_false, exists_false, or_false, exists_eq_right, ← hgauge]
    constructor
    · rintro ⟨p, hp, hn, hx⟩
      rwa [hn, hx]
    · exact fun h => ⟨(name, x), h, rfl, rfl⟩
  | counter n =>
    simp only [Metric.kind, Value.kind, value?, Option.map_eq_some_iff, Value.counter.injEq,
      reduceCtorEq, and_false, exists_false, false_or, exists_eq_right, ← hcounter]
    constructor
    · rintro ⟨p, hp, hn, hx⟩
      rwa [hn, hx]
    · exact fun h => ⟨(name, n), h, rfl, rfl⟩

/-- No name is listed twice under one kind. -/
theorem nodup_metricsOf {α : Type} (value : α → Value) {entries : List (String × α)}
    (hs : Sorted entries) :
    ((metricsOf value entries).map fun m => (m.kind, m.name)).Nodup := by
  refine List.pairwise_map.2 ((List.pairwise_filterMap.2 ?_ :
    (metricsOf value entries).Pairwise fun m n => m.name < n.name).imp fun hlt he => ?_)
  · refine hs.imp fun {p q} hlt m hm n hn => ?_
    rw [(Metric.ofValue_eq_ok_iff.1 (eq_ok_of_toOption hm)).1,
      (Metric.ofValue_eq_ok_iff.1 (eq_ok_of_toOption hn)).1]
    exact hlt
  · rw [(Prod.mk.inj he).2] at hlt
    exact String.lt_irrefl _ hlt

/-- **Each kind and name is listed once.** -/
theorem nodup_snapshot (s : Memory) : (s.snapshot.map fun m => (m.kind, m.name)).Nodup := by
  rw [snapshot, List.map_append]
  refine (nodup_metricsOf .gauge s.gauges.sorted).append
    (nodup_metricsOf .counter s.counters.sorted) ?_
  intro key hgauge hcounter
  obtain ⟨m, hm, rfl⟩ := List.mem_map.1 hgauge
  obtain ⟨n, hn, he⟩ := List.mem_map.1 hcounter
  have hkinds := (Prod.mk.inj he).1
  rw [kind_of_mem_metricsOf .gauge .gauge (fun _ => rfl) _ m hm,
    kind_of_mem_metricsOf .counter .counter (fun _ => rfl) _ n hn] at hkinds
  cases hkinds

theorem gaugesFirst_snapshot (s : Memory) : GaugesFirst s.snapshot :=
  gaugesFirst_append (kind_of_mem_metricsOf .gauge .gauge (fun _ => rfl) _)
    (kind_of_mem_metricsOf .counter .counter (fun _ => rfl) _)

/-- **A list of metrics in memory is the whole of them** exactly if all of them have names. -/
theorem length_snapshot_eq_size_iff (m : Memory) :
    m.snapshot.length = m.size ↔
      (∀ p ∈ m.gauges.entries, p.1 ≠ "") ∧ ∀ p ∈ m.counters.entries, p.1 ≠ "" := by
  have named {α : Type} (entries : List (String × α)) :
      entries.countP (fun p => p.1 ≠ "") = entries.length ↔ ∀ p ∈ entries, p.1 ≠ "" := by
    simp only [List.countP_eq_length, decide_eq_true_eq]
  have hgauges := m.gauges.entries.countP_le_length (p := fun p => p.1 ≠ "")
  have hcounters := m.counters.entries.countP_le_length (p := fun p => p.1 ≠ "")
  rw [snapshot, List.length_append, length_metricsOf, length_metricsOf, size, NameMap.size,
    NameMap.size, ← named, ← named]
  omega

/-! ### Anything done to a store -/

/-- What may be done to a store in memory. -/
inductive Deed where
  /-- A metric is applied. -/
  | apply (m : Metric)
  /-- A client calls. -/
  | call (c : Call)
  /-- Both maps are replaced as a whole. -/
  | replace (gauges : NameMap Binary64) (counters : NameMap Int64)

/-- Whatever is put in the place of the maps has names. -/
def Deed.Named : Deed → Prop
  | .replace gauges counters =>
    (∀ p ∈ gauges.entries, p.1 ≠ "") ∧ ∀ p ∈ counters.entries, p.1 ≠ ""
  | _ => True

instance (deed : Deed) : Decidable deed.Named :=
  match deed with
  | .apply _ | .call _ => .isTrue trivial
  | .replace .. => inferInstanceAs (Decidable (_ ∧ _))

/-- The store behind a deed. -/
def perform (s : Memory) : Deed → Memory
  | .apply m => s.apply m
  | .call c => s.behind c
  | .replace gauges counters => ⟨gauges, counters⟩

/-- The store behind deeds in order, which is empty at first. -/
def performAll (deeds : List Deed) : Memory := deeds.foldl perform empty

/-- What has been put in last, and what has been written since, with one more deed. -/
def noteDeed : Memory × List Metric → Deed → Memory × List Metric
  | (base, ms), .apply m => (base, ms ++ [m])
  | (base, ms), .call c => (base, ms ++ c.written)
  | _, .replace gauges counters => (⟨gauges, counters⟩, [])

/-- **The maps that were put in last**, the empty ones if none were, and all that has been written
since. -/
def since (deeds : List Deed) : Memory × List Metric := deeds.foldl noteDeed (empty, [])

/-- What there is is what was put in last, with all that has been written since applied to it. -/
theorem performAll_eq (deeds : List Deed) :
    performAll deeds = (since deeds).1.applyAll (since deeds).2 := by
  induction deeds using List.reverseRecOn with
  | nil => rfl
  | append_singleton deeds deed ih =>
    rw [performAll, List.foldl_append, since, List.foldl_append]
    change (performAll deeds).perform deed =
      (noteDeed (since deeds) deed).1.applyAll (noteDeed (since deeds) deed).2
    rw [ih]
    cases deed with
    | apply m => exact (applyAll_append _ _ [m]).symm
    | call c => exact (applyAll_append _ _ c.written).symm
    | replace gauges counters => rfl

/-- Where only names are put in, every entry has one. -/
theorem kept_performAll {deeds : List Deed} (h : ∀ deed ∈ deeds, deed.Named) :
    (performAll deeds).Kept fun _ => True := by
  have happlied {s : Memory} (hs : s.Kept fun _ => True) (ms : List Metric) :
      (s.applyAll ms).Kept fun _ => True := hs.applyAll fun m _ => by cases m.value <;> trivial
  induction deeds using List.reverseRecOn with
  | nil => exact kept_empty
  | append_singleton deeds deed ih =>
    rw [performAll, List.foldl_append]
    have hs : (performAll deeds).Kept fun _ => True :=
      ih fun other hother => h other (List.mem_append_left _ hother)
    cases deed with
    | apply m => exact happlied hs [m]
    | call c => exact happlied hs c.written
    | replace gauges counters =>
      obtain ⟨hgauges, hcounters⟩ := h _ (List.mem_append_right _ (List.mem_singleton.2 rfl))
      exact ⟨hgauges, hcounters, fun _ _ => trivial⟩

/-- **A store is a finite map** from kinds and names to values: what was put in last, and what was
written since. -/
structure IsFiniteMap (base : Memory) (ms : List Metric) (s : Memory) : Prop where
  /-- A metric is unknown exactly if it was not put in and nothing was written to it since. -/
  unknown (kind : Kind) (name : String) :
    s.lookup kind name = .error (.unknownMetric kind.tag name) ↔
      base.value? kind name = none ∧ ¬Writes ms kind name
  /-- A gauge is found with the level written last, or else with the one that was put in. -/
  gauge (name : String) (m : Metric) :
    s.lookup .gauge name = .ok m ↔ m.name = name ∧ ∃ x, m.value = .gauge x ∧
      (levelsOf name ms).getLast?.or (base.gauges.lookup name) = some x
  /-- A counter is found with all counts on top of the total that was put in. -/
  counter (name : String) (m : Metric) :
    s.lookup .counter name = .ok m ↔ m.name = name ∧
      ((base.counters.lookup name).isSome = true ∨ Writes ms .counter name) ∧
      m.value = .counter ((deltasOf name ms).foldl addClamped (base.total name))
  /-- What is found has the name that was asked for, which is not empty, and is of the kind. -/
  sound (kind : Kind) (name : String) (m : Metric) :
    s.lookup kind name = .ok m → name ≠ "" ∧ m.name = name ∧ m.kind = kind
  /-- What is listed is what is found, -/
  listed (m : Metric) : m ∈ s.snapshot ↔ s.lookup m.kind m.name = .ok m
  /-- each kind and name once, -/
  once : (s.snapshot.map fun m => (m.kind, m.name)).Nodup
  /-- and all gauges before all counters. -/
  ordered : GaugesFirst s.snapshot
  /-- There are as many entries as metrics in the list. -/
  size : s.size = s.snapshot.length
  /-- Whatever is written elsewhere, under another name or under the same name and the other kind,
  leaves what is found as it is. -/
  frame (ns : List Metric) (kind : Kind) (name : String) :
    ¬Writes ns kind name → (s.applyAll ns).lookup kind name = s.lookup kind name
  /-- And this is what a client is told. -/
  served (c : Call) : (Site.inMemory s).serve c = (s.answer c, Site.inMemory (s.perform (.call c)))

/-- **Whatever is done to a store in memory**, it is a finite map. -/
theorem isFiniteMap_performAll {deeds : List Deed} (h : ∀ deed ∈ deeds, deed.Named) :
    IsFiniteMap (since deeds).1 (since deeds).2 (performAll deeds) := by
  have hvalue (kind : Kind) (name : String) : (performAll deeds).value? kind name =
      (since deeds).1.valueBehind (since deeds).2 kind name := by
    rw [performAll_eq, value?_applyAll]
  have hkept := kept_performAll h
  constructor
  case unknown =>
    intro kind name
    rw [lookup_eq_unknown_iff, hvalue, valueBehind_eq_none_iff]
  case gauge =>
    intro name m
    rw [lookup_eq_ok_iff, hvalue, valueBehind, Option.map_eq_some_iff]
    refine and_congr_right fun _ => exists_congr fun x => ?_
    rw [and_comm, @eq_comm _ (Value.gauge x)]
  case counter =>
    intro name m
    rw [lookup_eq_ok_iff, hvalue, valueBehind]
    refine and_congr_right fun _ => ?_
    by_cases hwrites : Writes (since deeds).2 .counter name
    · rw [if_neg fun hnil => deltasOf_eq_nil_iff.1 hnil hwrites, Option.some.injEq, eq_comm]
      exact (and_iff_right (.inr hwrites)).symm
    · -- nothing was counted since, so the total is the one that was put in
      rw [if_pos (deltasOf_eq_nil_iff.2 hwrites), deltasOf_eq_nil_iff.2 hwrites, total]
      cases (since deeds).1.counters.lookup name with
      | none => simp [hwrites]
      | some n => simp [eq_comm]
  case sound =>
    intro kind name m hm
    obtain ⟨hname, hfound⟩ := lookup_eq_ok_iff.1 hm
    exact ⟨hname ▸ m.named, hname, kind_of_value? hfound⟩
  case listed =>
    intro m
    rw [mem_snapshot_iff, lookup_eq_ok_iff]
    exact (and_iff_right rfl).symm
  case once => exact nodup_snapshot _
  case ordered => exact gaugesFirst_snapshot _
  case size =>
    exact ((length_snapshot_eq_size_iff _).2 ⟨hkept.gauges_named, hkept.counters_named⟩).symm
  case frame =>
    intro ns kind name hwrites
    exact lookup_congr ((value?_applyAll _ ns kind name).trans (valueBehind_of_not_writes hwrites))
  case served => exact Site.serve_inMemory _

/-- A level and a count of one name, both put in as a whole, and the count carried past the end of
the range. -/
def restoredThenWritten : List Deed :=
  [.call (.update ⟨"x", .counter 7, by decide⟩),
    .replace (.ofEntries [("x", .ofFraction false 3 2)]) (.ofEntries [("x", 9223372036854775806)]),
    .call (.batch [⟨"x", .counter 5, by decide⟩, ⟨"y", .gauge .negZero, by decide⟩,
      ⟨"x", .counter (-1), by decide⟩]),
    .call .list, .apply ⟨"y", .gauge (.infinity true), by decide⟩]

/-- The counter stopped at the end of the range before it was counted down, the gauge of its name is
the one that was put in, and a counter of the other name is unknown. -/
theorem isFiniteMap_restoredThenWritten :
    (∀ deed ∈ restoredThenWritten, deed.Named) ∧
      (performAll restoredThenWritten).lookup .counter "x" =
        .ok ⟨"x", .counter 9223372036854775806, by decide⟩ ∧
      (performAll restoredThenWritten).lookup .gauge "x" =
        .ok ⟨"x", .gauge (.ofFraction false 3 2), by decide⟩ ∧
      (performAll restoredThenWritten).lookup .counter "y" =
        .error (.unknownMetric "counter" "y") ∧
      (performAll restoredThenWritten).snapshot.length = 3 := by
  have hnamed : ∀ deed ∈ restoredThenWritten, deed.Named := by decide
  have hmap := isFiniteMap_performAll hnamed
  refine ⟨hnamed, (hmap.counter "x" _).2 ?_, (hmap.gauge "x" _).2 ?_,
    (hmap.unknown .counter "y").2 ?_, hmap.size.symm.trans ?_⟩
  · exact ⟨rfl, .inr (by decide +kernel), by decide +kernel⟩
  · exact ⟨rfl, _, rfl, by decide +kernel⟩
  · decide +kernel
  · decide +kernel

end Memory

end Telemetry
