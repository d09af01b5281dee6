import Mathlib
import Telemetry.Store.FileStore
import Telemetry.Proofs.RecordText

/-!
# A snapshot restores the store it was made of

A store that is written to a file and read back goes through four forms: two maps, a list of
metrics, the words for that list, and the list again that the maps are rebuilt from. Nothing
is lost on the way if every entry has a name and every gauge holds a double that comes back
from its own text (`Memory.Restorable`).

* `Memory.ofMetrics_snapshot`: a store is rebuilt from its metrics;
* `FileStore.restored_words`: and from the words for them.
-/

namespace Telemetry

namespace Memory

/-- A store of which every entry comes back from its words. -/
abbrev Restorable (s : Memory) : Prop := s.Kept Binary64.ReadsBack

/-- The store with the value of a metric in the place of the one of its kind and name. -/
def put (s : Memory) (m : Metric) : Memory :=
  match m.value with
  | .gauge x => { s with gauges := s.gauges.insert m.name x }
  | .counter n => { s with counters := s.counters.insert m.name n }

theorem ofMetrics_eq_foldl (ms : List Metric) : ofMetrics ms = ms.foldl put empty := rfl

/-- Gauges are put in their places, one after the other. -/
theorem foldl_put_gauges {entries : List (String × Binary64)} (h : ∀ p ∈ entries, p.1 ≠ "")
    (s : Memory) :
    (metricsOf .gauge entries).foldl put s =
      { s with gauges := entries.foldl (fun m p => m.insert p.1 p.2) s.gauges } := by
  induction entries generalizing s with
  | nil => rfl
  | cons p rest ih =>
    rw [metricsOf_cons .gauge p.2 rest (h p List.mem_cons_self), List.foldl_cons,
      ih fun q hq => h q (List.mem_cons_of_mem p hq)]
    rfl

/-- And so are counters. -/
theorem foldl_put_counters {entries : List (String × Int64)} (h : ∀ p ∈ entries, p.1 ≠ "")
    (s : Memory) :
    (metricsOf .counter entries).foldl put s =
      { s with counters := entries.foldl (fun m p => m.insert p.1 p.2) s.counters } := by
  induction entries generalizing s with
  | nil => rfl
  | cons p rest ih =>
    rw [metricsOf_cons .counter p.2 rest (h p List.mem_cons_self), List.foldl_cons,
      ih fun q hq => h q (List.mem_cons_of_mem p hq)]
    rfl

/-- **A store is rebuilt from its metrics** if all of its entries have names. A count in a
snapshot is a total, and it is put in the place of the total, not added to it. -/
theorem ofMetrics_snapshot {P : Binary64 → Prop} {s : Memory} (h : s.Kept P) :
    ofMetrics s.snapshot = s := by
  rw [ofMetrics_eq_foldl, snapshot, List.foldl_append, foldl_put_gauges h.gauges_named,
    foldl_put_counters h.counters_named]
  show (⟨NameMap.ofEntries s.gauges.entries, NameMap.ofEntries s.counters.entries⟩ : Memory) = s
  rw [NameMap.ofEntries_entries, NameMap.ofEntries_entries]

/-- All metrics of a store that comes back are read back. -/
theorem readsBack_of_mem {s : Memory} (h : s.Restorable) {m : Metric}
    (hm : m ∈ s.snapshot) : m.value.ReadsBack := by
  rcases List.mem_append.1 hm with hm | hm
  · obtain ⟨p, hp, -, hv⟩ := mem_metricsOf hm
    rw [hv]
    exact h.level p hp
  · obtain ⟨p, -, -, hv⟩ := mem_metricsOf hm
    rw [hv]
    trivial

end Memory

/-- **The words for a store restore that store.** -/
theorem FileStore.restored_words {s : Memory} (h : s.Restorable) : restored (words s) = s := by
  have hread : decodeRecords (words s) = .ok s.snapshot :=
    decodeRecords_encodeRecords fun m hm => Memory.readsBack_of_mem h hm
  rw [restored, hread]
  exact Memory.ofMetrics_snapshot h

end Telemetry
