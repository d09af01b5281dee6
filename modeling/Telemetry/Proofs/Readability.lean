import Mathlib
import Telemetry.Proofs.Snapshot

/-!
# What cannot be read back

Whatever metrics are written, the words for them are a list of records, and each record is read.
What is read need not be a metric: a level that is infinite or not a number has been written as
`null`, and then the gauge has no value. The first such gauge is the answer for the whole list, so
one of them costs all the metrics beside it, and a snapshot with one of them restores nothing.
There is no other reason for a list of metrics not to be read.

* `Metric.exists_reread`, `Metric.reread_of_not_readable`: one metric;
* `exists_decodeRecords_iff`: a list of metrics;
* `FileStore.restored_words_eq_empty`: a snapshot.
-/

namespace Telemetry

/-- A value that can be read: every total, and a finite level. -/
abbrev Value.Readable (v : Value) : Prop := v.LevelIs fun x => x.isFinite = true

/-- A metric of the same name and kind. -/
def Metric.SameLabel (m n : Metric) : Prop := n.name = m.name ∧ n.kind = m.kind

/-- **A metric with a finite level** becomes one of its name and kind. -/
theorem Metric.exists_reread {m : Metric} (hm : m.value.Readable) :
    ∃ n, m.reread = .ok n ∧ m.SameLabel n := by
  obtain ⟨name, value, named⟩ := m
  cases value with
  | gauge x =>
    obtain ⟨y, hy⟩ := Option.isSome_iff_exists.1 (x.isSome_reread.trans hm)
    exact ⟨⟨name, .gauge y, named⟩, by simp only [reread, hy], rfl, rfl⟩
  | counter n => exact ⟨_, rfl, rfl, rfl⟩

/-- **Any other metric is refused.** -/
theorem Metric.reread_of_not_readable {m : Metric} (hm : ¬m.value.Readable) :
    m.reread = .error (.badValue ("gauge " ++ m.name ++ " has no value")) := by
  obtain ⟨name, value, named⟩ := m
  cases value with
  | gauge x =>
    have hnone : x.reread = none := if_neg hm
    simp only [reread, hnone]
  | counter n => exact absurd trivial hm

/-- Only metrics with finite levels are read. -/
theorem readable_of_mapM {ms ns : List Metric} (h : ms.mapM Metric.reread = .ok ns) :
    ∀ m ∈ ms, m.value.Readable := by
  intro m hm
  by_contra hreadable
  obtain ⟨n, hn⟩ := exists_of_mapM_eq_ok h hm
  rw [Metric.reread_of_not_readable hreadable] at hn
  cases hn

/-- **Metrics are read exactly if every level among them is finite**, and then as many, with the
same names and kinds in the same order. Otherwise the first gauge with another level is the answer,
whatever stands beside it. -/
theorem exists_decodeRecords_iff (ms : List Metric) :
    ((∃ ns, decodeRecords (encodeRecords ms) = .ok ns ∧ List.Forall₂ Metric.SameLabel ms ns) ↔
        ∀ m ∈ ms, m.value.Readable) ∧
      ∀ before m behind, ms = before ++ m :: behind → (∀ n ∈ before, n.value.Readable) →
        ¬m.value.Readable → decodeRecords (encodeRecords ms) =
          .error (.badValue ("gauge " ++ m.name ++ " has no value")) := by
  rw [decodeRecords_eq]
  refine ⟨⟨?_, fun hms => exists_mapM_forall₂ fun m hm => Metric.exists_reread (hms m hm)⟩, ?_⟩
  · rintro ⟨ns, hns, -⟩
    exact readable_of_mapM hns
  · rintro before m behind rfl hbefore hm
    refine mapM_eq_error (fun n hn => ?_) (Metric.reread_of_not_readable hm)
    obtain ⟨k, hk, -⟩ := Metric.exists_reread (hbefore n hn)
    exact ⟨k, hk⟩

/-- A total beside a level that is not a number. -/
def visitsAndPressure : List Metric :=
  [⟨"visits", .counter 5, by decide⟩, ⟨"pressure", .gauge .nan, by decide⟩]

/-- The total is lost with the level. -/
theorem not_exists_decodeRecords_visitsAndPressure :
    ¬∃ ns, decodeRecords (encodeRecords visitsAndPressure) = .ok ns := by
  rintro ⟨ns, hns⟩
  rw [decodeRecords_eq] at hns
  exact absurd (readable_of_mapM hns) (by decide)

/-- **A snapshot with a level that is not finite restores nothing.** -/
theorem FileStore.restored_words_eq_empty {s : Memory} {m : Metric} (hm : m ∈ s.snapshot)
    (h : ¬m.value.Readable) : restored (words s) = .empty := by
  rw [restored, words, decodeRecords_eq]
  split
  · rename_i ns hns
    exact absurd (readable_of_mapM hns m hm) h
  · rfl

end Telemetry
