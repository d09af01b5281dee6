import Mathlib
import Telemetry.Proofs.Agreement

/-!
# What a list shows while others write

A list is made of two copies, the gauges and then the counters, and whatever others write between
them is in the second one and not in the first. So a list can show what the store held at no
instant: a counter that was counted behind a gauge, without that gauge. In memory and in a file an
entry is written in one step, in a database a statement or a transaction is, and the two copies are
two statements without a transaction around them; so it is the same with all three backends.

What can be relied on is each of the copies. If only one kind is written between them, the other
kind is the same at both instants, and the list is what the store held at one of them.

* `Relational.ReadsAs`: changes of one kind leave the rows of the other one as they are;
* `Listing`: a call of `list` with what others write before, between and behind its copies;
* `Listing.isExact_of_one_kind`, `Listing.not_isExact_torn`: when a list is exact, and that it need
  not be.
-/

namespace Telemetry

/-! ### What does not touch a table -/

namespace Database

theorem table?_of_upsert {db next : Database} {m : Metric} {k : Kind} (hk : m.kind ≠ k)
    (h : db.upsert? m = some next) : next.table? k = db.table? k := by
  rw [upsert?_eq] at h
  obtain ⟨rows, -, h⟩ := Option.bind_eq_some_iff.1 h
  obtain ⟨c, -, rfl⟩ := Option.map_eq_some_iff.1 h
  exact table?_setTable_ne db hk _

/-- Metrics of one kind leave the table of the other one as it is. -/
theorem table?_of_applied? {db next : Database} {ms : List Metric} {k : Kind}
    (hk : ∀ m ∈ ms, m.kind ≠ k) (h : db.applied? ms = some next) :
    next.table? k = db.table? k := by
  induction ms generalizing db with
  | nil =>
    obtain rfl : db = next := Option.some.inj h
    rfl
  | cons m ms ih =>
    rw [applied?_cons] at h
    obtain ⟨middle, hm, h⟩ := Option.bind_eq_some_iff.1 h
    rw [ih (fun n hn => hk n (List.mem_cons_of_mem m hn)) h,
      table?_of_upsert (hk m List.mem_cons_self) hm]

end Database

namespace Relational

/-- The rows of a table as they are reached. -/
def rows? (s : Relational) (d : Disk) (k : Kind) : Except TableFault Rows :=
  (s.database d).bind (·.rowsOf k)

/-- One table reads the same, on the same schedule. -/
def ReadsAs (k : Kind) (before behind : Relational × Disk) : Prop :=
  behind.1.backoff = before.1.backoff ∧ behind.1.rows? behind.2 k = before.1.rows? before.2 k

variable {s : Relational} {d : Disk} {k : Kind}

theorem ReadsAs.refl (k : Kind) (x : Relational × Disk) : ReadsAs k x x := ⟨rfl, rfl⟩

theorem ReadsAs.trans {x y z : Relational × Disk} (h : ReadsAs k x y) (h' : ReadsAs k y z) :
    ReadsAs k x z := ⟨h'.1.trans h.1, h'.2.trans h.2⟩

/-- What is saved reads the same where the table is the same. -/
theorem readsAs_save {db next : Database} (hdb : s.database d = .ok db)
    (h : next.table? k = db.table? k) : ReadsAs k (s, d) (s.save next d) := by
  refine ⟨?_, ?_⟩
  · unfold save
    split <;> rfl
  · rw [rows?, rows?, database_save hdb, hdb]
    show next.rowsOf k = db.rowsOf k
    rw [Database.rowsOf, Database.rowsOf, h]

theorem readsAs_change {kinds : List Kind} {f : Database → Except TableFault Unit × Database}
    (h : ∀ db, (f db).2.table? k = db.table? k) (s : Relational) (d : Disk) :
    ReadsAs k (s, d) (s.change kinds f d).2 := by
  unfold change
  split
  · exact .refl k _
  · rename_i db hdb
    split
    · exact .refl k _
    · split
      · exact .refl k _
      · exact readsAs_save hdb (h db)

/-- What every attempt keeps is kept by a call. -/
theorem call_keeps {σ α : Type} {I : σ → Prop} {attempt : σ → Except TableFault α × σ}
    (s : Relational) (what : String) (h : ∀ x, I x → I (attempt x).2) {x : σ} (hx : I x) :
    I (s.call what attempt x).2.1 := by
  have hattempt : AttemptKeeps I (fun _ => I) attempt := by
    intro y hy
    have hkept := h y hy
    split <;> simp_all
  obtain ⟨hok, herror⟩ := s.call_ends what hattempt hx
  cases hresult : (s.call what attempt x).1 with
  | ok a => exact hok a hresult
  | error e => exact herror e hresult

/-- **A statement for one kind** leaves what the other one reads alone. -/
theorem readsAs_update {m : Metric} (hk : m.kind ≠ k) :
    ReadsAs k (s, d) (s.update m d).2.1 := by
  refine s.call_keeps (I := ReadsAs k (s, d)) "update" (fun x hx => hx.trans ?_) (.refl k _)
  refine readsAs_change (fun db => ?_) x.1 x.2
  cases hupsert : db.upsert m with
  | error e => rfl
  | ok next => exact Database.table?_of_upsert hk (by rw [Database.upsert?, hupsert]; rfl)

/-- **And so does a transaction** for one kind. -/
theorem readsAs_attemptBatch {ms : List Metric} (hk : ∀ m ∈ ms, m.kind ≠ k)
    (breakdown : Option Breakdown) (s : Relational) (d : Disk) :
    ReadsAs k (s, d) (s.attemptBatch ms breakdown d).2 := by
  unfold attemptBatch
  split
  · exact .refl k _
  · rename_i db hdb
    split
    · split
      · exact .refl k _
      · exact .refl k _
      · exact readsAs_change (fun _ => rfl) s d
    · split
      · exact .refl k _
      · rename_i next htransact
        refine readsAs_save hdb (Database.table?_of_applied? hk ?_)
        rw [← Database.applied?_grouped]
        exact Database.applied?_of_transact htransact

theorem readsAs_batchUpdate {ms : List Metric} (hk : ∀ m ∈ ms, m.kind ≠ k) :
    ReadsAs k (s, d) (s.batchUpdate ms d).2.1 := by
  unfold batchUpdate batchUpdateUnder
  split
  · exact .refl k _
  · exact s.call_keeps (I := fun x : (Relational × Disk) × Nat => ReadsAs k (s, d) x.1)
      "batch update" (fun x hx => hx.trans (readsAs_attemptBatch hk _ x.1.1 x.1.2)) (.refl k _)

/-- Attempts that have one outcome end in the same way, whatever they are made on. -/
theorem result_runFrom_congr {σ τ : Type} {α : Type} {o : Except TableFault α}
    {f : σ → Except TableFault α × σ} {g : τ → Except TableFault α × τ} {x : σ} {y : τ}
    (hf : f x = (o, x)) (hg : g y = (o, y)) (pauses : List Nat) (errors : List TableFault)
    (slept : List Nat) :
    (Backoff.runFrom TableFault.retriable f (fun _ x => x) pauses errors slept x).result =
      (Backoff.runFrom TableFault.retriable g (fun _ x => x) pauses errors slept y).result := by
  induction pauses generalizing errors slept with
  | nil =>
    rw [Backoff.runFrom, Backoff.runFrom, hf, hg]
    cases o <;> rfl
  | cons pause pauses ih =>
    rw [Backoff.runFrom, Backoff.runFrom, hf, hg]
    cases o with
    | ok a => rfl
    | error e =>
      simp only
      split
      · exact ih _ _
      · rfl

/-- **A table that reads the same is listed the same.** -/
theorem listKind_of_readsAs {x y : Relational × Disk} (h : ReadsAs k x y) :
    y.1.listKind y.2 k = x.1.listKind x.2 k := by
  obtain ⟨hbackoff, hrows⟩ := h
  -- a query changes nothing, so however often it is tried, both tries come out alike
  have hcall : (y.1.call "list" (fun e => (y.1.rows? e k, e)) y.2).1 =
      (x.1.call "list" (fun e => (x.1.rows? e k, e)) x.2).1 := by
    have hrun := result_runFrom_congr (f := fun e => (y.1.rows? e k, e))
      (g := fun e => (x.1.rows? e k, e)) (x := y.2) (y := x.2) (o := x.1.rows? x.2 k)
      (by rw [hrows]) rfl x.1.backoff.pauses [] []
    simp only [call, Backoff.run, hbackoff, hrun]
  show (y.1.call "list" (fun e => (y.1.rows? e k, e)) y.2).1 >>= _ =
    (x.1.call "list" (fun e => (x.1.rows? e k, e)) x.2).1 >>= _
  rw [hcall]

end Relational

/-! ### Lists in two parts -/

/-- The metrics of one kind in memory. -/
def Memory.ofKind (m : Memory) : Kind → List Metric
  | .gauge => metricsOf .gauge m.gauges.entries
  | .counter => metricsOf .counter m.counters.entries

/-- **What others do in one step**: write one entry of a map, or carry out a statement or a
transaction in a database. -/
inductive Stroke where
  /-- A metric is applied. -/
  | entry (m : Metric)
  /-- A batch is applied in one transaction. -/
  | transaction (ms : List Metric)

/-- The metrics that are applied. -/
def Stroke.written : Stroke → List Metric
  | .entry m => [m]
  | .transaction ms => ms

namespace Site

/-- The part of a list that one kind makes. -/
def part (s : Site) (k : Kind) : Except Failure (List Metric) :=
  match s.backend with
  | .memory m => .ok (m.ofKind k)
  | .file f => .ok (f.memory.ofKind k)
  | .relational r => r.listKind s.disk k

/-- The list of the gauges that there are at one instant and the counters that there are at
another. -/
def listed (s t : Site) : Except Failure (List Metric) := do
  let gauges ← s.part .gauge
  let counters ← t.part .counter
  return gauges ++ counters

/-- **A list is its two parts**, with nothing between them. -/
theorem listed_self (s : Site) : s.listed s = s.list := by
  obtain ⟨backend, d, waited⟩ := s
  cases backend <;> rfl

/-- The site behind a step of others. In memory there are no transactions. -/
def strike (s : Site) : Stroke → Site
  | .entry m =>
    match s.backend with
    | .memory store => { s with backend := .memory (store.apply m) }
    | .file f => { s with backend := .file { f with memory := f.memory.apply m } }
    | .relational _ => (s.update m).2
  | .transaction ms =>
    match s.backend with
    | .relational _ => (s.batchUpdate ms).2
    | _ => s

/-- The site behind steps in order. -/
def strikeAll (s : Site) (strokes : List Stroke) : Site := strokes.foldl strike s

/-- The steps that a batch is carried out in. -/
def strokesOf (s : Site) (ms : List Metric) : List Stroke :=
  match s.backend with
  | .relational _ => [.transaction ms]
  | _ => ms.map .entry

theorem strikeAll_memory (m : Memory) (d : Disk) (waited : Nat) (ms : List Metric) :
    strikeAll ⟨.memory m, d, waited⟩ (ms.map .entry) = ⟨.memory (m.applyAll ms), d, waited⟩ := by
  induction ms generalizing m with
  | nil => rfl
  | cons n ms ih => exact ih (m.apply n)

theorem strikeAll_file (f : FileStore) (d : Disk) (waited : Nat) (ms : List Metric) :
    strikeAll ⟨.file f, d, waited⟩ (ms.map .entry) =
      ⟨.file { f with memory := f.memory.applyAll ms }, d, waited⟩ := by
  induction ms generalizing f with
  | nil => rfl
  | cons n ms ih => exact ih { f with memory := f.memory.apply n }

/-- **A batch is its steps**, as far as a list can tell. -/
theorem part_batchUpdate (s : Site) (ms : List Metric) (k : Kind) :
    (s.batchUpdate ms).2.part k = (s.strikeAll (s.strokesOf ms)).part k := by
  obtain ⟨backend, d, waited⟩ := s
  cases backend with
  | memory m =>
    rw [strokesOf, strikeAll_memory]
    rfl
  | file f =>
    rw [strokesOf, strikeAll_file]
    exact congrArg (fun m : Memory => Except.ok (m.ofKind k)) (f.batchUpdate_memory ms d)
  | relational r => rfl

/-- Applying a metric leaves the other kind alone. -/
theorem ofKind_apply {m : Metric} {k : Kind} (h : m.kind ≠ k) (store : Memory) :
    (store.apply m).ofKind k = store.ofKind k := by
  obtain ⟨name, value, named⟩ := m
  cases value <;> cases k <;> first | rfl | exact absurd rfl h

variable {k : Kind}

/-- Steps that write another kind leave a part of a list as it is. -/
theorem part_strike {stroke : Stroke} (h : ∀ m ∈ stroke.written, m.kind ≠ k) (s : Site) :
    (s.strike stroke).part k = s.part k := by
  obtain ⟨backend, d, waited⟩ := s
  cases backend with
  | memory store =>
    cases stroke with
    | entry m => exact congrArg Except.ok (ofKind_apply (h m (List.mem_singleton.2 rfl)) store)
    | transaction ms => rfl
  | file f =>
    cases stroke with
    | entry m => exact congrArg Except.ok (ofKind_apply (h m (List.mem_singleton.2 rfl)) f.memory)
    | transaction ms => rfl
  | relational r =>
    cases stroke with
    | entry m =>
      exact Relational.listKind_of_readsAs
        (Relational.readsAs_update (s := r) (d := d) (h m (List.mem_singleton.2 rfl)))
    | transaction ms =>
      exact Relational.listKind_of_readsAs (Relational.readsAs_batchUpdate (s := r) (d := d) h)

theorem part_strikeAll {strokes : List Stroke}
    (h : ∀ stroke ∈ strokes, ∀ m ∈ stroke.written, m.kind ≠ k) (s : Site) :
    (s.strikeAll strokes).part k = s.part k := by
  induction strokes generalizing s with
  | nil => rfl
  | cons stroke strokes ih =>
    rw [strikeAll, List.foldl_cons]
    exact (ih (fun x hx => h x (List.mem_cons_of_mem _ hx)) _).trans
      (part_strike (h stroke List.mem_cons_self) s)

end Site

/-! ### A list and what others write meanwhile -/

/-- A call of `list`, and what others write from the call to its return. -/
structure Listing where
  /-- What there is when it is called. -/
  site : Site
  /-- Steps before the gauges are copied, -/
  before : List Stroke
  /-- between the two copies, -/
  between : List Stroke
  /-- and behind the copy of the counters. -/
  behind : List Stroke

namespace Listing

/-- What there is when the gauges are copied. -/
def first (l : Listing) : Site := l.site.strikeAll l.before

/-- What there is when the counters are copied. -/
def second (l : Listing) : Site := l.first.strikeAll l.between

/-- What is returned. -/
def answer (l : Listing) : Except Failure (List Metric) := l.first.listed l.second

/-- What there is at each instant from the call to the return. -/
def instants (l : Listing) : List Site :=
  (l.before ++ l.between ++ l.behind).inits.map l.site.strikeAll

/-- **The list is exact**: it is what the store holds at one instant. -/
def IsExact (l : Listing) : Prop := ∃ s ∈ l.instants, l.answer = s.list

instance (l : Listing) : Decidable l.IsExact :=
  inferInstanceAs (Decidable (∃ s ∈ l.instants, l.answer = s.list))

theorem first_mem (l : Listing) : l.first ∈ l.instants := by
  refine List.mem_map.2 ⟨l.before, (List.mem_inits _ _).2 ?_, rfl⟩
  rw [List.append_assoc]
  exact List.prefix_append ..

theorem second_mem (l : Listing) : l.second ∈ l.instants := by
  refine List.mem_map.2 ⟨l.before ++ l.between, (List.mem_inits _ _).2 (List.prefix_append ..), ?_⟩
  rw [second, first, Site.strikeAll, Site.strikeAll, Site.strikeAll, List.foldl_append]

/-- **Each part of a list is a copy of one instant**, and the whole is one if between its two
copies others write metrics of one kind only. -/
theorem isExact_of_one_kind (l : Listing) :
    (∃ s ∈ l.instants, ∃ t ∈ l.instants, l.answer = s.listed t) ∧
      ((∃ k, ∀ stroke ∈ l.between, ∀ m ∈ stroke.written, m.kind = k) → l.IsExact) := by
  refine ⟨⟨l.first, l.first_mem, l.second, l.second_mem, rfl⟩, ?_⟩
  rintro ⟨k, hk⟩
  cases k with
  | gauge =>
    -- the counters are those of the first instant
    have hcounters : l.second.part .counter = l.first.part .counter :=
      Site.part_strikeAll (fun stroke hs m hm => by rw [hk stroke hs m hm]; decide) l.first
    refine ⟨l.first, l.first_mem, ?_⟩
    rw [answer, ← Site.listed_self l.first, Site.listed, Site.listed, hcounters]
  | counter =>
    have hgauges : l.second.part .gauge = l.first.part .gauge :=
      Site.part_strikeAll (fun stroke hs m hm => by rw [hk stroke hs m hm]; decide) l.first
    refine ⟨l.second, l.second_mem, ?_⟩
    rw [answer, ← Site.listed_self l.second, Site.listed, Site.listed, hgauges]

/-- A gauge that others write. -/
def depth : Metric := ⟨"depth", .gauge (.ofFraction false 3 2), by decide⟩

/-- A counter that they write. -/
def login : Metric := ⟨"logins", .counter 1, by decide⟩

/-- A list of a database, with the gauge written before its copies and logins counted between. -/
def counting : Listing :=
  ⟨⟨.relational Relational.justOpened, Disk.blank ["w"], 0⟩, [.entry depth],
    [.entry login, .transaction [login, login]], [.entry depth]⟩

/-- It shows the gauge and all three logins, as the store holds them then. -/
theorem isExact_counting :
    (∃ k, ∀ stroke ∈ counting.between, ∀ m ∈ stroke.written, m.kind = k) ∧ counting.IsExact ∧
      counting.answer = .ok [depth, ⟨"logins", .counter 3, by decide⟩] := by
  have hcounters : ∀ stroke ∈ counting.between, ∀ m ∈ stroke.written, m.kind = .counter := by
    decide
  exact ⟨⟨.counter, hcounters⟩, (isExact_of_one_kind counting).2 ⟨.counter, hcounters⟩,
    by decide +kernel⟩

/-! ### A list that is not exact -/

/-- A list of a backend without metrics, with the gauge and then the counter written between its
two copies. -/
def torn (backend : Backend) : Listing :=
  ⟨⟨backend, Disk.blank ["w"], 0⟩, [], [.entry depth, .entry login], []⟩

/-- **With each of the three backends** a list may show the counter and not the gauge that was
written before it, which is what the store holds at no instant. -/
theorem not_isExact_torn :
    ((torn (.memory .empty)).answer = .ok [login] ∧ ¬(torn (.memory .empty)).IsExact) ∧
      ((torn (.file ⟨"m", .empty, 0, 0, false⟩)).answer = .ok [login] ∧
        ¬(torn (.file ⟨"m", .empty, 0, 0, false⟩)).IsExact) ∧
      (torn (.relational Relational.justOpened)).answer = .ok [login] ∧
        ¬(torn (.relational Relational.justOpened)).IsExact := by
  refine ⟨?memory, ?file, ?relational⟩
  case memory => decide +kernel
  case file => decide +kernel
  case relational => decide +kernel

end Listing

end Telemetry
