import Mathlib
import Telemetry.Agent.Samples
import Telemetry.Proofs.Entries

/-!
# What counters add up to

A counter has a total wherever it is kept, zero where it is not there at all, and
whatever is done to a pair of maps changes the totals by adding: a metric applied adds
its count, a batch adds its counts one after the other. So of a batch only the list of
its counts under a name matters to the total of that name, `deltasOf`, and a snapshot
has one count for every name that is there.

Adding stops at the ends of 64 bits. As long as a sum stays inside, the total is that
sum, and a ledger of whole numbers can be kept beside the maps.

* `total_applyAll`, `total_restoreCounters`: a batch adds its counts;
* `deltasOf_snapshot`: what a snapshot holds of a name;
* `toInt_addClamped`: where adding is exact.
-/

namespace Telemetry

/-! ### Adding inside the range -/

/-- A whole number that 64 bits hold. -/
def InRange (n : Int) : Prop := Int64.minValue.toInt ≤ n ∧ n ≤ Int64.maxValue.toInt

instance (n : Int) : Decidable (InRange n) := inferInstanceAs (Decidable (_ ∧ _))

/-- **Adding is exact inside the range.** -/
theorem toInt_addClamped {a b : Int64} (h : InRange (a.toInt + b.toInt)) :
    (addClamped a b).toInt = a.toInt + b.toInt := by
  obtain ⟨hlo, hhi⟩ := h
  rw [addClamped, Int64.ofIntClamp, dif_pos hlo, dif_pos hhi, Int64.toInt_ofIntLE]

/-! ### The counts in a batch -/

/-- The count of a metric under a name, if it is a counter of that name. -/
def deltaOf? (name : String) (m : Metric) : Option Int64 :=
  match m.value with
  | .counter d => if m.name = name then some d else none
  | .gauge _ => none

/-- The counts that a batch holds under a name, in its order. -/
def deltasOf (name : String) (ms : List Metric) : List Int64 := ms.filterMap (deltaOf? name)

/-- The sum of the counts that a batch holds under a name. -/
def deltaIn (name : String) (ms : List Metric) : Int :=
  ((deltasOf name ms).map Int64.toInt).sum

@[simp] theorem deltasOf_nil (name : String) : deltasOf name [] = [] := rfl

theorem deltasOf_cons (name : String) (m : Metric) (ms : List Metric) :
    deltasOf name (m :: ms) = (deltaOf? name m).toList ++ deltasOf name ms := by
  cases h : deltaOf? name m <;> simp [deltasOf, h]

theorem deltasOf_append (name : String) (ms ns : List Metric) :
    deltasOf name (ms ++ ns) = deltasOf name ms ++ deltasOf name ns :=
  List.filterMap_append

namespace Memory

/-- The total of a counter, zero if there is none of the name. -/
def total (s : Memory) (name : String) : Int64 := (s.counters.lookup name).getD 0

@[simp] theorem total_empty (name : String) : empty.total name = 0 := rfl

/-- A metric applied adds its count to the total of its name and to no other. -/
theorem total_apply (s : Memory) (m : Metric) (name : String) :
    (s.apply m).total name = ((deltaOf? name m).toList).foldl addClamped (s.total name) := by
  obtain ⟨n, v, hn⟩ := m
  cases v with
  | gauge x => rfl
  | counter d =>
    by_cases h : name = n
    · subst h
      simp [total, apply, write, deltaOf?, NameMap.lookup_modify]
    · simp [total, apply, write, deltaOf?, NameMap.lookup_modify, h, Ne.symm h]

/-- **A batch adds its counts**, one after the other. -/
theorem total_applyAll (s : Memory) (ms : List Metric) (name : String) :
    (s.applyAll ms).total name = (deltasOf name ms).foldl addClamped (s.total name) := by
  induction ms generalizing s with
  | nil => rfl
  | cons m ms ih => rw [applyAll_cons, ih, total_apply, deltasOf_cons, List.foldl_append]

/-! ### The counts in a snapshot -/

/-- The counts of a name among the metrics of entries of counters. -/
theorem deltasOf_metricsOf {name : String} (hname : name ≠ "") {entries : List (String × Int64)}
    (hs : Sorted entries) :
    deltasOf name (metricsOf .counter entries) = (lookupIn name entries).toList :=
  filterMap_metricsOf (fun _ _ _ => rfl) hname hs

/-- Metrics of gauges hold no counts. -/
theorem deltasOf_metricsOf_gauge (name : String) (entries : List (String × Binary64)) :
    deltasOf name (metricsOf .gauge entries) = [] :=
  filterMap_metricsOf_eq_nil (fun _ _ _ => rfl) entries

/-- **A snapshot holds the total of every counter**, once. -/
theorem deltasOf_snapshot (s : Memory) {name : String} (hname : name ≠ "") :
    deltasOf name s.snapshot = (s.counters.lookup name).toList := by
  rw [snapshot, deltasOf_append, deltasOf_metricsOf_gauge, List.nil_append,
    deltasOf_metricsOf hname s.counters.sorted]
  rfl

/-- The counts of a snapshot sum up to the total. -/
theorem deltaIn_snapshot (s : Memory) {name : String} (hname : name ≠ "") :
    deltaIn name s.snapshot = (s.total name).toInt := by
  rw [deltaIn, deltasOf_snapshot s hname, total]
  cases s.counters.lookup name <;> simp

end Memory

/-! ### Batches that hold a name at most once -/

/-- A batch that holds at most one count of every name, as snapshots do. -/
def Single (name : String) (ms : List Metric) : Prop := (deltasOf name ms).length ≤ 1

theorem single_snapshot (s : Memory) {name : String} (hname : name ≠ "") :
    Single name s.snapshot := by
  rw [Single, Memory.deltasOf_snapshot s hname]
  cases s.counters.lookup name <;> simp

/-- **A batch of one count is added exactly** if the sum stays inside the range. -/
theorem toInt_foldl_addClamped {name : String} {ms : List Metric} (hms : Single name ms)
    {t : Int64} (h : InRange (t.toInt + deltaIn name ms)) :
    ((deltasOf name ms).foldl addClamped t).toInt = t.toInt + deltaIn name ms := by
  unfold Single at hms
  unfold deltaIn at h ⊢
  match hd : deltasOf name ms with
  | [] => simp
  | [d] =>
    rw [hd] at h
    simpa using toInt_addClamped (a := t) (b := d) (by simpa using h)
  | _ :: _ :: _ =>
    rw [hd] at hms
    simp at hms

namespace Samples

/-! ### Totals of what an agent has gathered -/

/-- What is put back adds its counts, as what is applied does. -/
theorem total_restoreCounters (s : Samples) (ms : List Metric) (name : String) :
    Memory.total (s.restoreCounters ms) name =
      (deltasOf name ms).foldl addClamped (Memory.total s name) := by
  induction ms generalizing s with
  | nil => rfl
  | cons m ms ih =>
    have hstep : Memory.total (restoreCounters s [m]) name =
        ((deltaOf? name m).toList).foldl addClamped (Memory.total s name) := by
      rw [← Memory.total_apply]
      obtain ⟨n, v, hn⟩ := m
      cases v <;> rfl
    rw [deltasOf_cons, List.foldl_append, ← hstep, ← ih]
    rfl

/-- Gauges do not count. -/
theorem total_setGauges (s : Samples) (values : List (String × Binary64)) (name : String) :
    Memory.total (s.setGauges values) name = Memory.total s name := by
  unfold setGauges
  induction values generalizing s with
  | nil => rfl
  | cons p values ih => exact ih _

/-- A count adds to its own name and to no other. -/
theorem total_addCounter (s : Samples) (n name : String) (d : Int64) :
    Memory.total (s.addCounter n d) name =
      if name = n then addClamped (Memory.total s name) d else Memory.total s name := by
  by_cases h : name = n
  · subst h
    simp [Memory.total, addCounter, Memory.write, NameMap.lookup_modify]
  · simp [Memory.total, addCounter, Memory.write, NameMap.lookup_modify, h]

end Samples

end Telemetry
