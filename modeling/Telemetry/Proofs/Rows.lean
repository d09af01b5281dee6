import Mathlib
import Telemetry.Store.Relational
import Telemetry.Proofs.Cells
import Telemetry.Proofs.Entries
import Telemetry.Proofs.Results

/-!
# Batches on tables

What a batch makes of two tables is said by `Database.applied?`: every metric put or added into
its row, one after the other in the order of the batch. A store does not go in that order, it
takes each kind together. That makes no difference, for a metric of one kind does not touch the
table of the other (`Database.upsert?_comm`).

Rows are told apart by their names, of which each stands in one row, and it stays so.

* `Database.applied?_grouped`: a batch and its groups;
* `Database.applied?_of_transact`: what a transaction makes of the tables;
* `distinct_upsertIn`: each name stands in one row;
* `lookupIn_upsertRows_gauge`, `lookupIn_upsertRows_counter`: what the row holds then.
-/

namespace Telemetry

namespace Database

/-! ### Metrics in any order of kinds -/

/-- The database with a metric put or added into its row, if that can be done. -/
def upsert? (db : Database) (m : Metric) : Option Database := (db.upsert m).toOption

/-- **The database with a batch applied**, one metric after the other in the order of the batch,
if each of them can be. -/
def applied? (db : Database) (ms : List Metric) : Option Database := ms.foldlM upsert? db

@[simp] theorem applied?_nil (db : Database) : db.applied? [] = some db := rfl

theorem applied?_cons (db : Database) (m : Metric) (ms : List Metric) :
    db.applied? (m :: ms) = (db.upsert? m).bind fun db => db.applied? ms := rfl

theorem applied?_append (db : Database) (ms ns : List Metric) :
    db.applied? (ms ++ ns) = (db.applied? ms).bind fun db => db.applied? ns :=
  List.foldlM_append

/-- The tables behind a metric: its own one, if it is there and the metric has a value to put
into it, and the other one as it was. -/
theorem upsert?_eq (db : Database) (m : Metric) :
    db.upsert? m = (db.table? m.kind).bind fun rows =>
      (bound m.value).map fun c =>
        db.setTable m.kind (some (upsertRows m.kind m.name c rows)) := by
  unfold upsert? upsert rowsOf
  cases db.table? m.kind with
  | none => rfl
  | some rows =>
    cases bound m.value <;> simp [bind, Except.bind, Except.toOption]

theorem table?_setTable_ne (db : Database) {j k : Kind} (h : j ≠ k) (rows : Option Rows) :
    (db.setTable j rows).table? k = db.table? k := by
  cases j <;> cases k <;> first | rfl | exact absurd rfl h

theorem setTable_comm (db : Database) {j k : Kind} (h : j ≠ k) (xs ys : Option Rows) :
    (db.setTable j xs).setTable k ys = (db.setTable k ys).setTable j xs := by
  cases j <;> cases k <;> first | rfl | exact absurd rfl h

/-- **Metrics of different kinds do not touch each other.** -/
theorem upsert?_comm (db : Database) {m n : Metric} (h : m.kind ≠ n.kind) :
    ((db.upsert? m).bind fun db => db.upsert? n) =
      (db.upsert? n).bind fun db => db.upsert? m := by
  simp only [upsert?_eq]
  cases hm : db.table? m.kind <;> cases hn : db.table? n.kind <;> cases hx : bound m.value <;>
    cases hy : bound n.value <;>
      simp [hm, hn, table?_setTable_ne, h, h.symm, setTable_comm db h]

/-- A metric may go in front of a batch of the other kind. -/
theorem applied?_comm (db : Database) {m : Metric} {ms : List Metric}
    (h : ∀ n ∈ ms, n.kind ≠ m.kind) :
    ((db.applied? ms).bind fun db => db.upsert? m) =
      (db.upsert? m).bind fun db => db.applied? ms := by
  induction ms generalizing db with
  | nil =>
    simp only [applied?_nil, Option.bind_some]
    cases db.upsert? m <;> rfl
  | cons n ns ih =>
    have hrest : ∀ db : Database, ((db.applied? ns).bind fun db => db.upsert? m) =
        (db.upsert? m).bind fun db => db.applied? ns :=
      fun db => ih db fun x hx => h x (List.mem_cons_of_mem n hx)
    calc ((db.applied? (n :: ns)).bind fun db => db.upsert? m)
        = (db.upsert? n).bind fun db => (db.applied? ns).bind fun db => db.upsert? m := by
          rw [applied?_cons, Option.bind_assoc]
      _ = (db.upsert? n).bind fun db => (db.upsert? m).bind fun db => db.applied? ns := by
          simp only [hrest]
      _ = ((db.upsert? n).bind fun db => db.upsert? m).bind fun db => db.applied? ns := by
          rw [Option.bind_assoc]
      _ = ((db.upsert? m).bind fun db => db.upsert? n).bind fun db => db.applied? ns := by
          rw [upsert?_comm db (h n List.mem_cons_self)]
      _ = (db.upsert? m).bind fun db => db.applied? (n :: ns) := by
          rw [Option.bind_assoc]
          rfl

/-- Each kind may be taken together. -/
theorem applied?_partition (db : Database) (k : Kind) (ms : List Metric) :
    db.applied? (ms.filter (·.kind == k) ++ ms.filter (·.kind != k)) = db.applied? ms := by
  induction ms generalizing db with
  | nil => rfl
  | cons m ms ih =>
    by_cases hm : m.kind = k
    · have hk : (m.kind == k) = true := beq_iff_eq.2 hm
      have hne : ¬(m.kind != k) = true := by simp [hm]
      rw [List.filter_cons, List.filter_cons, if_pos hk, if_neg hne, List.cons_append,
        applied?_cons, applied?_cons]
      congr 1
      funext db
      exact ih db
    · have hk : ¬(m.kind == k) = true := by simp [hm]
      have hne : (m.kind != k) = true := by simp [hm]
      -- a metric of the other kind goes past all those that are taken in front of it
      have hothers : ∀ n ∈ ms.filter (·.kind == k), n.kind ≠ m.kind := by
        intro n hn hc
        have := (List.mem_filter.1 hn).2
        exact hm (hc ▸ beq_iff_eq.1 this)
      rw [List.filter_cons, List.filter_cons, if_neg hk, if_pos hne, applied?_append]
      calc ((db.applied? (ms.filter (·.kind == k))).bind fun db =>
            db.applied? (m :: ms.filter (·.kind != k)))
          = ((db.applied? (ms.filter (·.kind == k))).bind fun db => db.upsert? m).bind fun db =>
              db.applied? (ms.filter (·.kind != k)) := by
            rw [Option.bind_assoc]
            rfl
        _ = ((db.upsert? m).bind fun db => db.applied? (ms.filter (·.kind == k))).bind fun db =>
              db.applied? (ms.filter (·.kind != k)) := by
            rw [applied?_comm db hothers]
        _ = (db.upsert? m).bind fun db => db.applied? ms := by
            rw [Option.bind_assoc]
            congr 1
            funext db
            rw [← applied?_append, ih db]
        _ = db.applied? (m :: ms) := (applied?_cons db m ms).symm

/-- **A batch and its groups** make the same of the tables. -/
theorem applied?_grouped (db : Database) (ms : List Metric) :
    db.applied? (Relational.grouped ms) = db.applied? ms := by
  cases ms with
  | nil => rfl
  | cons m ms => exact applied?_partition db m.kind (m :: ms)

/-- Every metric of a batch that was applied had a value to put into its row. -/
theorem ne_nan_of_applied? {ms : List Metric} {db next : Database}
    (h : db.applied? ms = some next) : ∀ m ∈ ms, m.value ≠ .gauge .nan := by
  induction ms generalizing db with
  | nil => exact fun m hm => absurd hm List.not_mem_nil
  | cons m ms ih =>
    rw [applied?_cons] at h
    obtain ⟨middle, hm, hrest⟩ := Option.bind_eq_some_iff.1 h
    intro n hn
    rcases List.mem_cons.1 hn with rfl | hn
    · intro hvalue
      rw [upsert?_eq, hvalue] at hm
      cases hrows : db.table? n.kind <;> simp [hrows, bound] at hm
    · exact ih hrest n hn

/-! ### Transactions -/

/-- Statements that are not cut off apply their metrics. -/
theorem applied?_of_statements {breakdown : Option Breakdown} {n : Nat} {ms : List Metric}
    {db next : Database} (h : statements breakdown n ms db = .ok next) :
    db.applied? ms = some next := by
  induction ms generalizing n db with
  | nil =>
    cases h
    rfl
  | cons m ms ih =>
    obtain ⟨-, -, h⟩ := bind_eq_ok h
    obtain ⟨middle, hm, h⟩ := bind_eq_ok h
    have hupsert : db.upsert? m = some middle := by
      rw [upsert?, hm]
      rfl
    rw [applied?_cons, hupsert]
    exact ih h

/-- **A transaction that succeeds** has applied all of its metrics. -/
theorem applied?_of_transact {breakdown : Option Breakdown} {ms : List Metric}
    {db next : Database} (h : db.transact breakdown ms = (.ok (), next)) :
    db.applied? ms = some next := by
  unfold transact at h
  dsimp only at h
  split at h
  · rename_i last hfinal
    obtain rfl : last = next := congrArg Prod.snd h
    obtain ⟨-, -, hfinal⟩ := bind_eq_ok hfinal
    obtain ⟨reached, hrun, hfinal⟩ := bind_eq_ok hfinal
    obtain ⟨-, -, hfinal⟩ := bind_eq_ok hfinal
    obtain rfl : reached = last := Except.ok.inj hfinal
    exact applied?_of_statements hrun
  · exact absurd (congrArg Prod.fst h) nofun

/-- Where all metrics can be applied and nothing breaks down, the transaction succeeds. -/
theorem transact_of_applied? {ms : List Metric} {db next : Database}
    (h : db.applied? ms = some next) : db.transact none ms = (.ok (), next) := by
  -- the place of a statement in the transaction only tells where it might break down
  have hrun : ∀ (n : Nat) (db : Database), db.applied? ms = some next →
      statements none n ms db = .ok next := by
    clear h db
    induction ms with
    | nil =>
      intro n db h
      cases h
      rfl
    | cons m ms ih =>
      intro n db h
      rw [applied?_cons] at h
      obtain ⟨middle, hm, hrest⟩ := Option.bind_eq_some_iff.1 h
      show (db.upsert m >>= fun db => statements none (n + 1) ms db) = .ok next
      rw [eq_ok_of_toOption hm]
      exact ih (n + 1) middle hrest
  have hfinal : (do
      stopAt none .opening
      let reached ← statements none 0 ms db
      stopAt none .closing
      return reached : Except TableFault Database) = .ok next := by
    rw [hrun 0 db h]
    rfl
  unfold transact
  dsimp only
  rw [hfinal]

end Database

/-! ### Rows told apart by their names -/

/-- The names behind an insertion or change: those in front of it, and a new one at the end. -/
theorem map_fst_upsertIn (id : String) (fresh : Cell) (change : Cell → Cell) (rows : Rows) :
    (upsertIn id fresh change rows).map Prod.fst =
      if id ∈ rows.map Prod.fst then rows.map Prod.fst else rows.map Prod.fst ++ [id] := by
  induction rows with
  | nil => rfl
  | cons row rest ih =>
    obtain ⟨i, c⟩ := row
    rw [upsertIn]
    by_cases hi : i = id
    · subst hi
      simp
    · rw [if_neg hi, List.map_cons, ih, List.map_cons]
      simp only [List.mem_cons, Ne.symm hi, false_or]
      split <;> rfl

/-- An insertion or change leaves every name in one row. -/
theorem distinct_upsertIn {rows : Rows} (h : Distinct rows) (id : String) (fresh : Cell)
    (change : Cell → Cell) : Distinct (upsertIn id fresh change rows) := by
  rw [Distinct, map_fst_upsertIn]
  split
  · exact h
  · rename_i hid
    exact List.nodup_append.2 ⟨h, List.nodup_singleton id, by
      rintro a ha b hb rfl
      exact hid (List.mem_singleton.1 hb ▸ ha)⟩

/-- **A row of a gauge** holds what was put into it last. -/
theorem lookupIn_upsertRows_gauge (name other : String) (x : Binary64) (rows : Rows) :
    lookupIn other (upsertRows .gauge name (.real x) rows) =
      if other = name then some (.real x.settled) else lookupIn other rows := by
  show lookupIn other (upsertIn name _ _ rows) = _
  rw [lookupIn_upsertIn, leaningOf, Leaning.store_double_real]
  cases lookupIn name rows <;> rfl

/-- **A row of a counter** holds the total with the count added, where a row that is not there
yet counts as zero. -/
theorem lookupIn_upsertRows_counter {name : String} {rows : Rows} {total : Option Int64}
    (h : lookupIn name rows = total.map .integer) (other : String) (d : Int64) :
    lookupIn other (upsertRows .counter name (.integer d) rows) =
      if other = name then some (.integer (addClamped (total.getD 0) d))
      else lookupIn other rows := by
  show lookupIn other (upsertIn name _ _ rows) = _
  rw [lookupIn_upsertIn, h]
  cases total with
  | none =>
    have hzero : addClamped 0 d = d := by
      rw [addClamped, show (0 : Int64).toInt + d.toInt = d.toInt from Int.zero_add _,
        Int64.ofIntClamp_toInt]
    show (if other = name then some (Cell.integer d) else _) = _
    rw [Option.getD_none, hzero]
  | some total =>
    show (if other = name then
      some (Leaning.whole.store (raised (.integer total) (.integer d))) else _) = _
    rw [raised_integer]
    rfl

end Telemetry
