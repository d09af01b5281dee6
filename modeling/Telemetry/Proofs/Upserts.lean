import Mathlib
import Telemetry.Proofs.Histories
import Telemetry.Proofs.Rows

/-!
# Counters in a table add up

A counter is added to what its row holds by an expression with four comparisons, of which two are
made on a difference. For a count of the other sign that difference is past the ends of the range,
and is a double then; but the comparison that goes with it has told the sign already, so nothing
hangs on it. Hence the database may go through the comparisons in any order, leave out those that
it does not need, and take the doubles for whatever it likes: if they tell a result at all, it is
the sum, cut at the ends of the range (`Comparison.raisedOn_eq`).

A row that was written in this way and in no other holds a whole number at all times, namely the
counts added up one after the other; so it can be read back as a metric, and so can a gauge.

* `Comparison`, `raisedOn`: the expression, as far as its comparisons have been evaluated;
* `Database.attemptAll`: statements one after the other, of which some may be refused;
* `Database.counters_attemptAll`: the row of a counter behind them;
* `Database.RowDecodes.attemptAll`: the row of any metric;
* `countersAddUp`: all of this together.
-/

namespace Telemetry

/-! ### Comparisons in any order -/

/-- The comparisons of the expression that adds to a counter, in the order in which they stand. -/
inductive Comparison where
  /-- The count is positive. -/
  | positive
  /-- The total is above what the count leaves room for. -/
  | above
  /-- The count is negative. -/
  | negative
  /-- The total is below what the count leaves room for. -/
  | below
deriving DecidableEq

namespace Comparison

/-- What a comparison gives. -/
def holds (current delta : Cell) : Comparison → Bool
  | positive => (Cell.integer 0).lt delta
  | above => ((Cell.integer Int64.maxValue).sub delta).lt current
  | negative => delta.lt (.integer 0)
  | below => current.lt ((Cell.integer Int64.minValue).sub delta)

/-- A comparison of whole numbers, and not of one with a double. -/
def IsExact (delta : Cell) : Comparison → Prop
  | above => ∃ n, (Cell.integer Int64.maxValue).sub delta = .integer n
  | below => ∃ n, (Cell.integer Int64.minValue).sub delta = .integer n
  | _ => True

/-- **Comparisons that have been evaluated**, some or all of them. One with a double may have given
anything. -/
def Evaluated (current delta : Cell) (seen : Comparison → Option Bool) : Prop :=
  ∀ c b, seen c = some b → c.IsExact delta → b = c.holds current delta

/-- Both of two comparisons, as far as they have been evaluated. -/
def both : Option Bool → Option Bool → Option Bool
  | some false, _ | _, some false => some false
  | some true, some true => some true
  | _, _ => none

/-- The expression that adds to a counter, as far as its comparisons have been evaluated. -/
def raisedOn (seen : Comparison → Option Bool) (current delta : Cell) : Option Cell :=
  match both (seen positive) (seen above) with
  | none => none
  | some true => some (.integer Int64.maxValue)
  | some false =>
    match both (seen negative) (seen below) with
    | none => none
    | some true => some (.integer Int64.minValue)
    | some false => some (current.add delta)

theorem both_eq_true {p q : Option Bool} :
    both p q = some true ↔ p = some true ∧ q = some true := by
  rcases p with _ | _ | _ <;> rcases q with _ | _ | _ <;> decide

theorem both_eq_false {p q : Option Bool} :
    both p q = some false ↔ p = some false ∨ q = some false := by
  rcases p with _ | _ | _ <;> rcases q with _ | _ | _ <;> decide

/-- All of the comparisons together tell what the expression gives. -/
theorem raisedOn_holds (current delta : Cell) :
    raisedOn (fun c => some (c.holds current delta)) current delta =
      some (raised current delta) := by
  unfold raisedOn raised
  simp only [holds]
  cases (Cell.integer 0).lt delta <;>
    cases ((Cell.integer Int64.maxValue).sub delta).lt current <;>
      cases delta.lt (.integer 0) <;>
        cases current.lt ((Cell.integer Int64.minValue).sub delta) <;> rfl

/-- A test on the sign, and one that is to be relied on where the sign is the one tested for. -/
theorem eq_true_iff_of_both {p q : Option Bool} {b : Bool} {sign room past : Prop}
    (hpast : past ↔ sign ∧ room) (hsign : ∀ b, p = some b → (b = true ↔ sign))
    (hroom : sign → ∀ b, q = some b → (b = true ↔ room)) (hb : both p q = some b) :
    b = true ↔ past := by
  rw [hpast]
  cases b with
  | true =>
    obtain ⟨hp, hq⟩ := both_eq_true.1 hb
    have hs := (hsign _ hp).1 rfl
    exact iff_of_true rfl ⟨hs, (hroom hs _ hq).1 rfl⟩
  | false =>
    refine iff_of_false Bool.false_ne_true fun ⟨hs, hr⟩ => ?_
    rcases both_eq_false.1 hb with hp | hq
    · exact Bool.false_ne_true ((hsign _ hp).2 hs)
    · exact Bool.false_ne_true ((hroom hs _ hq).2 hr)

section

variable {current delta : Int64} {seen : Comparison → Option Bool}
  (h : Evaluated (.integer current) (.integer delta) seen)

include h

/-- **The first two comparisons tell whether the sum is past the upper end.** -/
theorem upper_of_both {b : Bool} (hb : both (seen positive) (seen above) = some b) :
    b = true ↔ Int64.maxValue.toInt < current.toInt + delta.toInt := by
  have hcurrent := current.toInt_le
  have hdelta := delta.toInt_le
  have hpast : Int64.maxValue.toInt < current.toInt + delta.toInt ↔
      0 < delta.toInt ∧ Int64.maxValue.toInt - delta.toInt < current.toInt := by omega
  refine eq_true_iff_of_both hpast ?_ ?_ hb
  · intro b hb
    rw [h _ _ hb trivial]
    exact Cell.lt_integer 0 delta
  · intro hpositive b hb
    -- what is taken from the greatest number is positive, so the difference is whole
    have hfit : Int64.minValue.toInt ≤ Int64.maxValue.toInt - delta.toInt ∧
        Int64.maxValue.toInt - delta.toInt ≤ Int64.maxValue.toInt := by
      have hmin : Int64.minValue.toInt ≤ 0 := by decide
      omega
    rw [h _ _ hb ⟨_, Cell.sub_integer hfit⟩, holds, Cell.sub_integer hfit, Cell.lt_integer,
      toInt_ofInt_of_fits hfit.1 hfit.2]

/-- **The last two tell whether it is past the lower end.** -/
theorem lower_of_both {b : Bool} (hb : both (seen negative) (seen below) = some b) :
    b = true ↔ current.toInt + delta.toInt < Int64.minValue.toInt := by
  have hcurrent := current.minValue_le_toInt
  have hdelta := delta.minValue_le_toInt
  have hpast : current.toInt + delta.toInt < Int64.minValue.toInt ↔
      delta.toInt < 0 ∧ current.toInt < Int64.minValue.toInt - delta.toInt := by omega
  refine eq_true_iff_of_both hpast ?_ ?_ hb
  · intro b hb
    rw [h _ _ hb trivial]
    exact Cell.lt_integer delta 0
  · intro hnegative b hb
    have hfit : Int64.minValue.toInt ≤ Int64.minValue.toInt - delta.toInt ∧
        Int64.minValue.toInt - delta.toInt ≤ Int64.maxValue.toInt := by
      have hmax : 0 ≤ Int64.maxValue.toInt := by decide
      omega
    rw [h _ _ hb ⟨_, Cell.sub_integer hfit⟩, holds, Cell.sub_integer hfit, Cell.lt_integer,
      toInt_ofInt_of_fits hfit.1 hfit.2]

/-- **Whichever comparisons are evaluated**, what they tell is the sum, cut at the ends of the
range, as a whole number. -/
theorem raisedOn_eq {c : Cell} (hc : raisedOn seen (.integer current) (.integer delta) = some c) :
    c = .integer (addClamped current delta) := by
  unfold raisedOn at hc
  split at hc
  · cases hc
  · rename_i hupper
    rw [addClamped_of_lt ((upper_of_both h hupper).1 rfl)]
    exact (Option.some.inj hc).symm
  · rename_i hupper
    have hhi := not_lt.1 (mt (upper_of_both h hupper).2 Bool.false_ne_true)
    split at hc
    · cases hc
    · rename_i hlower
      rw [addClamped_of_gt ((lower_of_both h hlower).1 rfl)]
      exact (Option.some.inj hc).symm
    · rename_i hlower
      have hlo := not_lt.1 (mt (lower_of_both h hlower).2 Bool.false_ne_true)
      rw [← Option.some.inj hc, Cell.add_integer ⟨hlo, hhi⟩, addClamped_of_fits hlo hhi]

end

end Comparison

/-- At the lower end the difference is a double: the least count takes the greatest total to minus
one. -/
example : raised (.integer Int64.maxValue) (.integer Int64.minValue) = .integer (-1) := by
  decide +kernel

namespace Database

/-! ### Statements one after the other -/

/-- The database behind a statement, which may be refused. -/
def attempt (db : Database) (m : Metric) : Database := (db.upsert? m).getD db

/-- The database behind statements. -/
def attemptAll (db : Database) (ms : List Metric) : Database := ms.foldl attempt db

/-- A statement on one table leaves the other one alone. -/
theorem table?_attempt_ne (db : Database) {m : Metric} {kind : Kind} (h : m.kind ≠ kind) :
    (db.attempt m).table? kind = db.table? kind := by
  rw [attempt, upsert?_eq]
  cases hrows : db.table? m.kind with
  | none => rfl
  | some rows =>
    cases bound m.value with
    | none => rfl
    | some c => exact table?_setTable_ne db h _

/-- A statement on a table that is there puts or adds what is bound into the row, if anything is. -/
theorem table?_attempt {db : Database} {m : Metric} {rows : Rows}
    (h : db.table? m.kind = some rows) :
    (db.attempt m).table? m.kind =
      some ((bound m.value).elim rows fun c => upsertRows m.kind m.name c rows) := by
  rw [attempt, upsert?_eq, h]
  cases bound m.value with
  | none => exact h
  | some c =>
    show (db.setTable m.kind _).table? m.kind = _
    cases m.kind <;> rfl

/-! ### The row of a counter -/

/-- A total with counts added to it one after the other, if there is any. -/
def raisedBy (total : Option Int64) (deltas : List Int64) : Option Int64 :=
  if deltas = [] then total else some (deltas.foldl addClamped (total.getD 0))

theorem raisedBy_cons (total : Option Int64) (delta : Int64) (deltas : List Int64) :
    raisedBy total (delta :: deltas) =
      raisedBy (some (addClamped (total.getD 0) delta)) deltas := by
  cases deltas <;> rfl

/-- **The row of a counter** holds a whole number behind any statements if it held one before or was
not there: its counts added up, from the total that there was. -/
theorem counters_attemptAll {db : Database} {rows : Rows} (hrows : db.table? .counter = some rows)
    {name : String} {total : Option Int64} (hrow : lookupIn name rows = total.map .integer)
    (ms : List Metric) :
    ∃ rows', (db.attemptAll ms).table? .counter = some rows' ∧
      lookupIn name rows' = (raisedBy total (deltasOf name ms)).map .integer := by
  induction ms generalizing db rows total with
  | nil => exact ⟨rows, hrows, hrow⟩
  | cons m ms ih =>
    obtain ⟨n, v, hn⟩ := m
    cases v with
    | gauge x =>
      exact ih ((table?_attempt_ne db (by rintro ⟨⟩)).trans hrows) hrow
    | counter d =>
      have hnext : (db.attempt ⟨n, .counter d, hn⟩).table? .counter =
          some (upsertRows .counter n (.integer d) rows) := table?_attempt hrows
      by_cases he : name = n
      · subst he
        have hdeltas : deltasOf name (⟨name, .counter d, hn⟩ :: ms) = d :: deltasOf name ms := by
          simp [deltasOf_cons, deltaOf?]
        rw [hdeltas, raisedBy_cons]
        refine ih hnext ?_
        rw [lookupIn_upsertRows_counter hrow, if_pos rfl]
        rfl
      · have hdeltas : deltasOf name (⟨n, .counter d, hn⟩ :: ms) = deltasOf name ms := by
          simp [deltasOf_cons, deltaOf?, Ne.symm he]
        rw [hdeltas]
        refine ih hnext ?_
        show lookupIn name (upsertIn n _ _ rows) = _
        rw [lookupIn_upsertIn, if_neg he, hrow]

/-! ### Rows that are read back -/

/-- **The row of a kind and a name is read back** as a metric of that kind and name, if it is
there. -/
def RowDecodes (db : Database) (kind : Kind) (name : String) : Prop :=
  ∀ rows cell, db.table? kind = some rows → lookupIn name rows = some cell →
    ∃ m, Relational.decodeRow kind (name, cell) = .ok m ∧ m.kind = kind ∧ m.name = name

/-- What is put or added into a row can be read back if what was there before can. -/
theorem exists_decodeRow_upsertRows {kind : Kind} {name : String} {rows : Rows}
    (h : ∀ cell, lookupIn name rows = some cell →
      ∃ m, Relational.decodeRow kind (name, cell) = .ok m ∧ m.kind = kind ∧ m.name = name)
    {m : Metric} (hkind : m.kind = kind) {c : Cell} (hc : bound m.value = some c) {cell : Cell}
    (hcell : lookupIn name (upsertRows kind m.name c rows) = some cell) :
    ∃ m, Relational.decodeRow kind (name, cell) = .ok m ∧ m.kind = kind ∧ m.name = name := by
  obtain ⟨n, v, hn⟩ := m
  subst hkind
  by_cases he : name = n
  · subst he
    cases v with
    | gauge x =>
      have hx : Cell.real x = c := by
        cases x with
        | nan => cases hc
        | signed s r => exact Option.some.inj hc
      subst hx
      rw [Metric.kind, Value.kind, lookupIn_upsertRows_gauge, if_pos rfl] at hcell
      obtain rfl := Option.some.inj hcell
      exact ⟨⟨name, .gauge x.settled, hn⟩, Metric.ofValue_eq_ok_iff.2 ⟨rfl, rfl⟩, rfl, rfl⟩
    | counter d =>
      obtain rfl : Cell.integer d = c := Option.some.inj hc
      -- what was there before could be read back, so it was a whole number
      obtain ⟨total, htotal⟩ : ∃ total : Option Int64,
          lookupIn name rows = total.map .integer := by
        cases hrow : lookupIn name rows with
        | none => exact ⟨none, rfl⟩
        | some old =>
          obtain ⟨m, hm, -⟩ := h old hrow
          obtain ⟨v, hv, -⟩ := bind_eq_ok hm
          cases old with
          | integer t => exact ⟨some t, rfl⟩
          | real x => cases hv
          | text s => cases hv
      rw [Metric.kind, Value.kind, lookupIn_upsertRows_counter htotal, if_pos rfl] at hcell
      obtain rfl := Option.some.inj hcell
      exact ⟨⟨name, .counter _, hn⟩, Metric.ofValue_eq_ok_iff.2 ⟨rfl, rfl⟩, rfl, rfl⟩
  · refine h cell ?_
    rw [← hcell]
    cases v <;>
    · show lookupIn name rows = lookupIn name (upsertIn n _ _ rows)
      rw [lookupIn_upsertIn, if_neg he]

/-- A statement leaves a row that is read back. -/
theorem RowDecodes.attempt {db : Database} {kind : Kind} {name : String}
    (h : db.RowDecodes kind name) (m : Metric) : (db.attempt m).RowDecodes kind name := by
  intro rows' cell hrows' hcell
  by_cases hkind : m.kind = kind
  · subst hkind
    cases hrows : db.table? m.kind with
    | none =>
      rw [Database.attempt, upsert?_eq, hrows] at hrows'
      exact h rows' cell hrows' hcell
    | some rows =>
      rw [table?_attempt hrows] at hrows'
      obtain rfl := Option.some.inj hrows'
      cases hbound : bound m.value with
      | none =>
        rw [hbound] at hcell
        exact h rows cell hrows hcell
      | some c =>
        rw [hbound] at hcell
        exact exists_decodeRow_upsertRows (fun old hold => h rows old hrows hold) rfl hbound hcell
  · rw [table?_attempt_ne db hkind] at hrows'
    exact h rows' cell hrows' hcell

/-- So do any statements. -/
theorem RowDecodes.attemptAll {db : Database} {kind : Kind} {name : String}
    (h : db.RowDecodes kind name) (ms : List Metric) : (db.attemptAll ms).RowDecodes kind name := by
  induction ms generalizing db with
  | nil => exact h
  | cons m ms ih => exact ih (h.attempt m)

end Database

/-- **Counters in a table add up.** -/
structure CountersAddUp : Prop where
  /-- The expression gives a whole number, the sum cut at the ends of the range, -/
  sum : ∀ current delta : Int64, ∃ total : Int64,
    raised (.integer current) (.integer delta) = .integer total ∧
      total.toInt = max (-2 ^ 63) (min (2 ^ 63 - 1) (current.toInt + delta.toInt))
  /-- and all of its comparisons together tell it; -/
  whole : ∀ current delta : Cell,
    Comparison.raisedOn (fun c => some (c.holds current delta)) current delta =
      some (raised current delta)
  /-- but whichever of them are evaluated, they tell nothing else. -/
  anyOrder : ∀ (current delta : Int64) (seen : Comparison → Option Bool),
    Comparison.Evaluated (.integer current) (.integer delta) seen →
      ∀ c, Comparison.raisedOn seen (.integer current) (.integer delta) = some c →
        c = raised (.integer current) (.integer delta)
  /-- Behind any statements, on this row and on others, the row of a counter holds a whole number
  if it did before or was not there, and it is the counts added up. -/
  row : ∀ (db : Database) (rows : Rows), db.table? .counter = some rows →
    ∀ (name : String) (total : Option Int64), lookupIn name rows = total.map .integer →
      ∀ ms : List Metric, ∃ rows', (db.attemptAll ms).table? .counter = some rows' ∧
        lookupIn name rows' = (Database.raisedBy total (deltasOf name ms)).map .integer
  /-- A row that was not there before, and was written by statements only, is read back. -/
  decoded : ∀ (db : Database) (kind : Kind) (name : String),
    (∀ rows, db.table? kind = some rows → lookupIn name rows = none) →
      ∀ ms : List Metric, (db.attemptAll ms).RowDecodes kind name

theorem countersAddUp : CountersAddUp where
  sum current delta := by
    refine ⟨addClamped current delta, raised_integer current delta, ?_⟩
    rw [addClamped, toInt_ofIntClamp_eq]
    rfl
  whole := Comparison.raisedOn_holds
  anyOrder current delta seen h c hc := by
    rw [raised_integer]
    exact Comparison.raisedOn_eq h hc
  row _ _ hrows _ _ hrow ms := Database.counters_attemptAll hrows hrow ms
  decoded db kind name h ms := by
    refine Database.RowDecodes.attemptAll (fun rows cell hrows hcell => ?_) ms
    rw [h rows hrows] at hcell
    cases hcell

end Telemetry
