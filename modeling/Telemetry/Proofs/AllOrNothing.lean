import Mathlib
import Telemetry.Proofs.Retry
import Telemetry.Proofs.Rows

/-!
# A batch in a database is all or nothing

A batch may be cut off when its transaction begins, in front of any statement and when it is to
be made final, in every attempt in another way, and it is tried again on whatever schedule the
store has. A failed attempt leaves the store and the disk as they are, so every attempt starts
from the same tables; and the first attempt that succeeds is the last one. So whoever is told of
success finds the whole batch in the tables, once, and whoever is told of failure finds nothing
of it.

* `Relational.attemptBatch_keeps`, `Relational.nextAttempt_keeps`: one attempt;
* `Relational.batchUpdateUnder_allOrNothing`: all attempts.
-/

namespace Telemetry

namespace Relational

/-- **What has been saved is what is reached then.** -/
theorem database_save {s : Relational} {d : Disk} {db : Database} (h : s.database d = .ok db)
    (next : Database) : (s.save next d).1.database (s.save next d).2 = .ok next := by
  obtain ⟨tables, readOnly, backoff, isClosed⟩ := s
  cases isClosed with
  | true => cases h
  | false =>
    cases tables with
    | own old => rfl
    | file p =>
      have hp : p ≠ [] := by
        rintro rfl
        cases h
      simp only [save, database, Bool.false_eq_true, if_false, Disk.at?_set_self hp]

/-- The batch is in the tables of a store, once: what is reached is what was reached in the
beginning with the whole of the batch applied. -/
def HoldsOnce (s : Relational) (ms : List Metric) (d : Disk) (at' : Relational × Disk) : Prop :=
  ∃ db next, s.database d = .ok db ∧ db.applied? ms = some next ∧
    at'.1.database at'.2 = .ok next

/-- **What a call establishes**: attempts that fail keep an invariant, and so does a call that
fails; a call that succeeds ends with an attempt that did. -/
theorem call_ends {σ α : Type} {I : σ → Prop} {Q : α → σ → Prop}
    {attempt : σ → Except TableFault α × σ} (s : Relational) (what : String)
    (hattempt : AttemptKeeps I Q attempt) {x : σ} (hx : I x) :
    (∀ a, (s.call what attempt x).1 = .ok a → Q a (s.call what attempt x).2.1) ∧
      ∀ e, (s.call what attempt x).1 = .error e → I (s.call what attempt x).2.1 := by
  have hrun := s.backoff.ends_run TableFault.retriable hattempt (fun _ _ h => h) hx
  rw [call]
  generalize s.backoff.run TableFault.retriable attempt (fun _ x => x) x = run at hrun ⊢
  obtain ⟨result, y, slept⟩ := run
  cases result with
  | ok a =>
    refine ⟨?_, nofun⟩
    rintro b ⟨rfl⟩
    exact hrun.ok a rfl
  | error e => exact ⟨nofun, fun _ _ => hrun.error e rfl⟩

/-- A store that may only be read refuses every change. -/
theorem change_readOnly {s : Relational} (h : s.readOnly = true) (kinds : List Kind)
    (f : Database → Except TableFault Unit × Database) (d : Disk) :
    ∃ e, s.change kinds f d = (.error e, s, d) := by
  unfold change
  split
  · exact ⟨_, rfl⟩
  · split
    · exact ⟨_, rfl⟩
    · rw [if_pos h]
      exact ⟨_, rfl⟩

/-- **One attempt**, cut off or not: it fails and leaves the store and the disk as they are, or
it puts the whole batch into the tables. -/
theorem attemptBatch_keeps (ms : List Metric) (breakdown : Option Breakdown) (s : Relational)
    (d : Disk) :
    match s.attemptBatch ms breakdown d with
    | (.ok (), at') => s.HoldsOnce ms d at'
    | (.error _, at') => at' = (s, d) := by
  unfold attemptBatch
  cases hdb : s.database d with
  | error e => rfl
  | ok db =>
    simp only
    by_cases hread : s.readOnly = true
    · rw [if_pos hread]
      obtain ⟨e, hchange⟩ := change_readOnly hread ((grouped ms).head?.toList.map Metric.kind)
        (fun db => (.ok (), db)) d
      rw [hchange]
      cases stopAt breakdown .opening <;> cases stopAt breakdown (.statement 0) <;> rfl
    · rw [if_neg hread]
      cases htransact : db.transact breakdown (grouped ms) with
      | mk result next =>
        cases result with
        | error e => rfl
        | ok u =>
          refine ⟨db, next, hdb, ?_, database_save hdb next⟩
          rw [← Database.applied?_grouped]
          exact Database.applied?_of_transact htransact

/-- Every attempt starts from the store and the disk of the beginning. -/
theorem nextAttempt_keeps (breakdown : Nat → Option Breakdown) (ms : List Metric)
    (s : Relational) (d : Disk) :
    AttemptKeeps (fun x : (Relational × Disk) × Nat => x.1 = (s, d))
      (fun _ x => s.HoldsOnce ms d x.1) (nextAttempt breakdown ms) := by
  rintro ⟨⟨s', d'⟩, n⟩ hstart
  obtain ⟨rfl, rfl⟩ := Prod.mk.inj hstart
  have hkeeps := attemptBatch_keeps ms (breakdown n) s' d'
  unfold nextAttempt
  cases hone : s'.attemptBatch ms (breakdown n) d' with
  | mk result at' =>
    rw [hone] at hkeeps
    cases result with
    | error e => exact hkeeps
    | ok u => exact hkeeps

/-- **A batch is all or nothing**, and applied once however often it was tried: for every content
of the tables, every schedule and every way in which the attempts are cut off. What is not a
number is nothing to put into a row, so a batch that holds such a gauge fails. -/
theorem batchUpdateUnder_allOrNothing (breakdown : Nat → Option Breakdown) (s : Relational)
    {ms : List Metric} (hms : ms ≠ []) (d : Disk) :
    ((s.batchUpdateUnder breakdown ms d).1 = .ok () →
      s.HoldsOnce ms d (s.batchUpdateUnder breakdown ms d).2.1 ∧
        ∀ m ∈ ms, m.value ≠ .gauge .nan) ∧
    ∀ e, (s.batchUpdateUnder breakdown ms d).1 = .error e →
      (s.batchUpdateUnder breakdown ms d).2.1 = (s, d) := by
  have hempty : ¬ms.isEmpty = true := by simpa using hms
  rw [batchUpdateUnder, if_neg hempty]
  obtain ⟨hdone, hfailed⟩ := s.call_ends "batch update" (nextAttempt_keeps breakdown ms s d)
    (x := ((s, d), 0)) rfl
  refine ⟨fun hresult => ?_, fun e hresult => hfailed e hresult⟩
  have hholds : s.HoldsOnce ms d _ := hdone () hresult
  obtain ⟨db, next, -, happlied, -⟩ := id hholds
  exact ⟨hholds, Database.ne_nan_of_applied? happlied⟩

/-- A store with both kinds in its tables, and a schedule of two pauses. -/
def storeOfFive : Relational :=
  ⟨.own ⟨some [("load", .real .zero)], some [("hits", .integer 5)]⟩, false, ⟨[1, 1]⟩, false⟩

/-- A batch that counts the same counter twice, with a gauge in between. -/
def countTwice : List Metric :=
  [⟨"hits", .counter 2, by decide⟩, ⟨"load", .gauge (.ofNat 1), by decide⟩,
    ⟨"hits", .counter 3, by decide⟩]

/-- The first attempt is cut off behind the first count, the second one when it is to be made
final. -/
def twoBreakdowns : Nat → Option Breakdown
  | 0 => some ⟨.statement 1, .broken true "disk I/O error"⟩
  | 1 => some ⟨.closing, .broken true "database is locked"⟩
  | _ => none

/-- The store behind it. -/
def storeOfTen : Relational :=
  ⟨.own ⟨some [("load", .real (.ofNat 1))], some [("hits", .integer 10)]⟩, false, ⟨[1, 1]⟩, false⟩

theorem holdsOnce_countTwice :
    countTwice ≠ [] ∧
      storeOfFive.batchUpdateUnder twoBreakdowns countTwice (.blank []) =
        (.ok (), (storeOfTen, .blank []), 2) ∧
      storeOfFive.HoldsOnce countTwice (.blank []) (storeOfTen, .blank []) := by
  have hms : countTwice ≠ [] := by decide
  have hrun : storeOfFive.batchUpdateUnder twoBreakdowns countTwice (.blank []) =
      (.ok (), (storeOfTen, .blank []), 2) := by decide +kernel
  have h := batchUpdateUnder_allOrNothing twoBreakdowns storeOfFive hms (.blank [])
  rw [hrun] at h
  exact ⟨hms, hrun, (h.1 rfl).1⟩

end Relational

end Telemetry
