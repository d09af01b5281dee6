import Mathlib
import Telemetry.Proofs.AllOrNothing
import Telemetry.Proofs.Calls

/-!
# Tables and maps answer alike

A store in a database regroups every batch and leaves the adding to an expression of the
database; a store in memory goes through the batch in order and adds by itself. Whatever is
asked of the two, they answer alike (`Answer.Alike`): the database may tell minus zero as zero
and lists its rows in the order in which their names came up, and there is no other difference.

The invariant is that the tables **show** the maps: under every name the row holds what the map
holds (`Database.Shows`). One metric keeps it, so a batch in its own order does, and the
database's order makes no difference (`Database.applied?_grouped`).

* `Database.Shows.upsert?`, `Database.Shows.applied?`: what a metric and a batch preserve;
* `Relational.Shows.serve`: one call;
* `Relational.serveAll_alike`: calls in order.
-/

namespace Telemetry

/-! ### Tables that show maps -/

/-- A double that is a number. -/
def IsNumber (x : Binary64) : Prop := x.isNaN = false

instance : DecidablePred IsNumber := fun x => inferInstanceAs (Decidable (x.isNaN = false))

/-- **The tables show metrics in memory**: under every name the row of a kind holds what the map
of that kind holds, the gauges settled. -/
structure Database.Shows (m : Memory) (db : Database) : Prop where
  /-- Every entry in memory has a name, and every gauge is a number. -/
  kept : m.Kept IsNumber
  /-- Both tables are there, and each name stands in one row. -/
  tables : ∃ gauges counters, db = ⟨some gauges, some counters⟩ ∧
    Distinct gauges ∧ Distinct counters ∧
    (∀ name, lookupIn name gauges = (m.gauges.lookup name).map fun x => .real x.settled) ∧
    (∀ name, lookupIn name counters = (m.counters.lookup name).map .integer)

namespace Database

theorem shows_empty : (⟨some [], some []⟩ : Database).Shows .empty :=
  ⟨Memory.kept_empty, [], [], rfl, List.nodup_nil, List.nodup_nil, fun _ => rfl, fun _ => rfl⟩

/-- **A metric applied on both sides**: it can be put or added into its row, and the tables show
the maps again. -/
theorem Shows.upsert? {m : Memory} {db : Database} (h : db.Shows m) {n : Metric}
    (hn : n.value.LevelIs IsNumber) :
    ∃ next, db.upsert? n = some next ∧ next.Shows (m.apply n) := by
  obtain ⟨hkept, gauges, counters, rfl, hgauges, hcounters, hshow, hcount⟩ := h
  obtain ⟨name, value, named⟩ := n
  have hkept' : (m.apply ⟨name, value, named⟩).Kept IsNumber := hkept.apply hn
  cases value with
  | gauge x =>
    have hbound : bound (.gauge x) = some (.real x) := by
      cases x with
      | nan => cases hn
      | signed s r => rfl
    refine ⟨⟨some (upsertRows .gauge name (.real x) gauges), some counters⟩, ?_, hkept', _, _, rfl,
      distinct_upsertIn hgauges _ _ _, hcounters, fun other => ?_, hcount⟩
    · rw [upsert?_eq]
      show (bound (.gauge x)).map _ = _
      rw [hbound]
      rfl
    · show _ = ((m.gauges.insert name x).lookup other).map _
      rw [lookupIn_upsertRows_gauge, NameMap.lookup_insert, hshow other]
      split <;> rfl
  | counter d =>
    refine ⟨⟨some gauges, some (upsertRows .counter name (.integer d) counters)⟩, rfl, hkept', _,
      _, rfl, hgauges, distinct_upsertIn hcounters _ _ _, hshow, fun other => ?_⟩
    show _ = ((m.counters.modify name _).lookup other).map _
    rw [lookupIn_upsertRows_counter (hcount name), NameMap.lookup_modify, hcount other]
    split <;> rfl

/-- **A batch applied on both sides**, in its own order. -/
theorem Shows.applied? {m : Memory} {db : Database} (h : db.Shows m) {ms : List Metric}
    (hms : ∀ n ∈ ms, n.value.LevelIs IsNumber) :
    ∃ next, db.applied? ms = some next ∧ next.Shows (m.applyAll ms) := by
  induction ms generalizing m db with
  | nil => exact ⟨db, rfl, h⟩
  | cons n ms ih =>
    obtain ⟨middle, hn, hmiddle⟩ := h.upsert? (hms n List.mem_cons_self)
    obtain ⟨next, hrest, hnext⟩ := ih hmiddle fun x hx => hms x (List.mem_cons_of_mem n hx)
    refine ⟨next, ?_, ?_⟩
    · rw [applied?_cons, hn]
      exact hrest
    · rw [Memory.applyAll_cons]
      exact hnext

end Database

/-! ### Stores that show maps -/

namespace Relational

/-- An attempt that succeeds is the only one. -/
theorem call_of_ok {σ α : Type} {attempt : σ → Except TableFault α × σ} (s : Relational)
    (what : String) {x y : σ} {a : α} (h : attempt x = (.ok a, y)) :
    s.call what attempt x = (.ok a, y, 0) := by
  have hrun : s.backoff.run TableFault.retriable attempt (fun _ x => x) x = ⟨.ok a, y, []⟩ := by
    unfold Backoff.run Backoff.runFrom
    rw [h]
    rfl
  unfold call
  rw [hrun]
  rfl

/-- The store of a site may be written to and shows metrics in memory. -/
structure Shows (m : Memory) (s : Relational) (d : Disk) : Prop where
  /-- It may be written to. -/
  writable : s.readOnly = false
  /-- Its tables show the maps. -/
  database : ∃ db, s.database d = .ok db ∧ db.Shows m

/-- What has been saved is shown. -/
theorem Shows.save {m n : Memory} {s : Relational} {d : Disk} (h : Shows m s d) {next : Database}
    (hnext : next.Shows n) : Shows n (s.save next d).1 (s.save next d).2 := by
  obtain ⟨hwritable, db, hdb, -⟩ := h
  refine ⟨?_, next, database_save hdb next, hnext⟩
  unfold Relational.save
  split <;> exact hwritable

/-- **A metric applied to the store** shows in it. -/
theorem Shows.update {m : Memory} {s : Relational} {d : Disk} (h : Shows m s d) {n : Metric}
    (hn : n.value.LevelIs IsNumber) :
    ∃ s' d', s.update n d = (.ok (), (s', d'), 0) ∧ Shows (m.apply n) s' d' := by
  obtain ⟨hwritable, db, hdb, hshows⟩ := id h
  obtain ⟨next, hupsert, hnext⟩ := hshows.upsert? hn
  have hupsert' : db.upsert n = .ok next := eq_ok_of_toOption hupsert
  obtain ⟨gauges, counters, rfl, -⟩ := hshows.tables
  have htables : [n.kind].find? (fun k =>
      (Database.table? ⟨some gauges, some counters⟩ k).isNone) = none := by
    cases n.kind <;> rfl
  refine ⟨_, _, s.call_of_ok "update" ?_, h.save hnext⟩
  simp only [change, hdb, htables, hwritable, hupsert']
  rfl

/-- **A batch applied to the store** shows in it, in its own order. -/
theorem Shows.batchUpdate {m : Memory} {s : Relational} {d : Disk} (h : Shows m s d)
    {ms : List Metric} (hms : ∀ n ∈ ms, n.value.LevelIs IsNumber) :
    ∃ s' d', s.batchUpdate ms d = (.ok (), (s', d'), 0) ∧ Shows (m.applyAll ms) s' d' := by
  obtain ⟨hwritable, db, hdb, hshows⟩ := id h
  cases ms with
  | nil => exact ⟨s, d, rfl, h⟩
  | cons n ms =>
    obtain ⟨next, happlied, hnext⟩ := hshows.applied? hms
    have htransact : db.transact none (grouped (n :: ms)) = (.ok (), next) :=
      Database.transact_of_applied? (by rw [Database.applied?_grouped, happlied])
    have hattempt : s.attemptBatch (n :: ms) none d = (.ok (), s.save next d) := by
      simp only [attemptBatch, hdb, hwritable, htransact]
      rfl
    refine ⟨_, _, ?_, h.save hnext⟩
    unfold Relational.batchUpdate batchUpdateUnder
    rw [if_neg (by simp), call_of_ok (y := (s.save next d, 1)) (a := ())]
    simp only [nextAttempt, hattempt]

/-! ### Reading -/

/-- What is found in the store under a kind and a name. -/
theorem Shows.get {m : Memory} {s : Relational} {d : Disk} (h : Shows m s d) (kind : Kind)
    (name : String) :
    (s.get kind name d).1 =
      match m.value? kind name with
      | none => .error (.unknownMetric kind.tag name)
      | some (.gauge x) => Metric.ofValue name (.gauge x.settled)
      | some (.counter n) => Metric.ofValue name (.counter n) := by
  obtain ⟨-, db, hdb, -, gauges, counters, rfl, -, -, hshow, hcount⟩ := h
  unfold Relational.get
  cases kind with
  | gauge =>
    rw [call_of_ok (y := d) (a := lookupIn name gauges)]
    · rw [hshow, Memory.value?]
      cases m.gauges.lookup name <;> rfl
    · rw [hdb]
      rfl
  | counter =>
    rw [call_of_ok (y := d) (a := lookupIn name counters)]
    · rw [hcount, Memory.value?]
      cases m.counters.lookup name <;> rfl
    · rw [hdb]
      rfl

/-- The rows of a table that is there are decoded one by one. -/
theorem listKind_eq {s : Relational} {d : Disk} {db : Database} {k : Kind} {rows : Rows}
    (hdb : s.database d = .ok db) (hrows : db.table? k = some rows) :
    s.listKind d k = rows.mapM (decodeRow k) := by
  rw [listKind, call_of_ok (y := d) (a := rows)]
  · rfl
  · rw [hdb]
    show (db.rowsOf k, d) = (.ok rows, d)
    rw [Database.rowsOf, hrows]

/-- **Rows that hold entries in some order** are decoded as the metrics of those entries, in some
order. -/
theorem mapM_decodeRow {α : Type} (kind : Kind) (cell : α → Cell) (value : α → Value)
    {rows : Rows} {entries : List (String × α)}
    (hrows : rows.Perm (entries.map fun p => (p.1, cell p.2)))
    (hdecode : ∀ name a, decodeRow kind (name, cell a) = Metric.ofValue name (value a))
    (hnamed : ∀ p ∈ entries, p.1 ≠ "") :
    ∃ ms, rows.mapM (decodeRow kind) = .ok ms ∧ ms.Perm (Memory.metricsOf value entries) := by
  refine ⟨_, mapM_of_forall_ok fun row hrow => ?_, ?_⟩
  · obtain ⟨p, hp, rfl⟩ := List.mem_map.1 (hrows.mem_iff.1 hrow)
    exact ⟨⟨p.1, value p.2, hnamed p hp⟩, by rw [hdecode, Metric.ofValue, dif_neg (hnamed p hp)]⟩
  · refine (hrows.filterMap _).trans (List.Perm.of_eq ?_)
    rw [List.filterMap_map]
    rw [Memory.metricsOf_eq]
    congr 1
    funext p
    exact congrArg Except.toOption (hdecode p.1 p.2)

/-- **What is listed** is what the maps hold, in some order of each kind, gauges first. -/
theorem Shows.list {m : Memory} {s : Relational} {d : Disk} (h : Shows m s d) :
    ∃ gauges counters, s.list d = .ok (gauges ++ counters) ∧
      gauges.Perm (Memory.metricsOf (fun x => .gauge x.settled) m.gauges.entries) ∧
      counters.Perm (Memory.metricsOf .counter m.counters.entries) := by
  obtain ⟨-, db, hdb, hkept, gauges, counters, rfl, hgauges, hcounters, hshow, hcount⟩ := h
  -- rows and entries look up alike, and each name stands in one of them
  have hgaugeRows : gauges.Perm
      (m.gauges.entries.map fun p => (p.1, Cell.real (Binary64.settled p.2))) := by
    refine perm_of_lookupIn hgauges (distinct_map (distinct_of_sorted m.gauges.sorted)
      fun x => Cell.real x.settled) fun name => ?_
    rw [lookupIn_map fun x : Binary64 => Cell.real x.settled]
    exact hshow name
  have hcounterRows : counters.Perm
      (m.counters.entries.map fun p => (p.1, Cell.integer p.2)) := by
    refine perm_of_lookupIn hcounters (distinct_map (distinct_of_sorted m.counters.sorted)
      Cell.integer) fun name => ?_
    rw [lookupIn_map]
    exact hcount name
  -- so the metrics that are decoded are those of the entries, in the order of the rows
  obtain ⟨gs, hgs, hgsPerm⟩ := mapM_decodeRow .gauge (fun x => .real x.settled)
    (fun x => .gauge x.settled) hgaugeRows (fun _ _ => rfl) hkept.gauges_named
  obtain ⟨cs, hcs, hcsPerm⟩ := mapM_decodeRow .counter .integer .counter
    hcounterRows (fun _ _ => rfl) hkept.counters_named
  refine ⟨gs, cs, ?_, hgsPerm, hcsPerm⟩
  rw [Relational.list, listKind_eq (k := .gauge) hdb rfl, hgs,
    listKind_eq (k := .counter) hdb rfl, hcs]
  rfl

end Relational

/-! ### Answers that are alike -/

/-- The same metrics, their values compared as numbers. -/
def SameMetrics (ms ns : List Metric) : Prop := List.Forall₂ (fun m n => m.numEq n = true) ms ns

/-- No gauge stands behind a counter. -/
def GaugesFirst (ms : List Metric) : Prop :=
  ms.Pairwise fun m n => m.kind = .counter → n.kind = .counter

/-- **Two answers are alike**: both changes succeeded; the same metric was found, or none of that
kind and name; the same metrics were listed in some order, the gauges first. -/
def Answer.Alike : Answer → Answer → Prop
  | .done x, .done y => x = .ok () ∧ y = .ok ()
  | .metric (.ok m), .metric (.ok n) => m.numEq n = true
  | .metric (.error e), .metric (.error f) => e = f ∧ ∃ kind name, e = .unknownMetric kind name
  | .metrics (.ok ms), .metrics (.ok ns) =>
    (∃ ps, ps.Perm ms ∧ SameMetrics ps ns) ∧ GaugesFirst ms ∧ GaugesFirst ns
  | _, _ => False

/-- Metrics of one name are the same number if their values are. -/
theorem numEq_of_value {m n : Metric} (hname : m.name = n.name)
    (hvalue : m.value.numEq n.value = true) : m.numEq n = true :=
  Bool.and_eq_true_iff.2 ⟨beq_iff_eq.2 hname, hvalue⟩

/-- The metrics of one kind, and those of the other behind them. -/
theorem gaugesFirst_append {gs cs : List Metric} (hgs : ∀ m ∈ gs, m.kind = .gauge)
    (hcs : ∀ m ∈ cs, m.kind = .counter) : GaugesFirst (gs ++ cs) := by
  refine List.pairwise_append.2 ⟨?_, ?_, fun m hm n hn _ => hcs n hn⟩
  · refine List.pairwise_of_forall_mem_list fun m hm n _ hc => ?_
    rw [hgs m hm] at hc
    cases hc
  · exact List.pairwise_of_forall_mem_list fun m _ n hn _ => hcs n hn

theorem kind_of_mem_metricsOf {α : Type} (value : α → Value) (kind : Kind)
    (hvalue : ∀ a, (value a).kind = kind) (entries : List (String × α)) :
    ∀ m ∈ Memory.metricsOf value entries, m.kind = kind := by
  intro m hm
  obtain ⟨p, -, -, hv⟩ := Memory.mem_metricsOf hm
  rw [Metric.kind, hv, hvalue]

/-- Settled gauges are the same numbers. -/
theorem sameMetrics_settled {entries : List (String × Binary64)}
    (h : ∀ p ∈ entries, IsNumber p.2) :
    SameMetrics (Memory.metricsOf (fun x => .gauge x.settled) entries)
      (Memory.metricsOf .gauge entries) := by
  induction entries with
  | nil => exact .nil
  | cons p rest ih =>
    obtain ⟨n, x⟩ := p
    have hrest := ih fun q hq => h q (List.mem_cons_of_mem _ hq)
    by_cases hn : n = ""
    · subst hn
      rw [Memory.metricsOf_cons_unnamed, Memory.metricsOf_cons_unnamed]
      exact hrest
    · rw [Memory.metricsOf_cons _ _ _ hn, Memory.metricsOf_cons _ _ _ hn]
      exact .cons (numEq_of_value rfl (Binary64.numEq_settled (h (n, x) List.mem_cons_self))) hrest

theorem sameMetrics_refl {α : Type} {value : α → Value} (hvalue : ∀ a, (value a).numEq (value a))
    (entries : List (String × α)) :
    SameMetrics (Memory.metricsOf value entries) (Memory.metricsOf value entries) := by
  refine List.forall₂_same.2 fun m hm => ?_
  obtain ⟨p, -, -, hv⟩ := Memory.mem_metricsOf hm
  exact numEq_of_value rfl (hv ▸ hvalue p.2)

namespace Relational

/-- One metric is found alike on both sides. -/
theorem Shows.alike_get {m : Memory} {s : Relational} {d : Disk} (h : Shows m s d) (kind : Kind)
    (name : String) :
    (Answer.metric (s.get kind name d).1).Alike (.metric (m.lookup kind name)) := by
  rw [h.get, Memory.lookup_eq]
  obtain ⟨-, db, -, hkept, -⟩ := h
  cases kind with
  | gauge =>
    cases hx : m.gauges.lookup name with
    | none =>
      simp only [Memory.value?, hx, Option.map_none]
      exact ⟨rfl, _, _, rfl⟩
    | some x =>
      have hmem := (mem_iff_lookupIn (distinct_of_sorted m.gauges.sorted) (name, x)).2 hx
      simp only [Memory.value?, hx, Option.map_some, Metric.ofValue,
        dif_neg (hkept.gauges_named _ hmem)]
      exact numEq_of_value rfl (Binary64.numEq_settled (hkept.level _ hmem))
  | counter =>
    cases hn : m.counters.lookup name with
    | none =>
      simp only [Memory.value?, hn, Option.map_none]
      exact ⟨rfl, _, _, rfl⟩
    | some n =>
      have hmem := (mem_iff_lookupIn (distinct_of_sorted m.counters.sorted) (name, n)).2 hn
      simp only [Memory.value?, hn, Option.map_some, Metric.ofValue,
        dif_neg (hkept.counters_named _ hmem)]
      exact numEq_of_value rfl (beq_self_eq_true n)

/-- All metrics are listed alike on both sides. -/
theorem Shows.alike_list {m : Memory} {s : Relational} {d : Disk} (h : Shows m s d) :
    (Answer.metrics (s.list d)).Alike (.metrics (.ok m.snapshot)) := by
  obtain ⟨gs, cs, hlist, hgs, hcs⟩ := h.list
  obtain ⟨-, db, -, hkept, -⟩ := h
  rw [hlist]
  refine ⟨⟨_, (hgs.append hcs).symm, ?_⟩, gaugesFirst_append ?_ ?_, gaugesFirst_append ?_ ?_⟩
  · exact List.rel_append (sameMetrics_settled hkept.level)
      (sameMetrics_refl (fun n => beq_self_eq_true n) _)
  · intro n hn
    exact kind_of_mem_metricsOf _ .gauge (fun _ => rfl) _ n (hgs.mem_iff.1 hn)
  · intro n hn
    exact kind_of_mem_metricsOf _ .counter (fun _ => rfl) _ n (hcs.mem_iff.1 hn)
  · exact kind_of_mem_metricsOf .gauge .gauge (fun _ => rfl) _
  · exact kind_of_mem_metricsOf .counter .counter (fun _ => rfl) _

/-- **One call** is answered alike on both sides, and the store shows what is in memory then. -/
theorem Shows.serve {m : Memory} {s : Relational} {d : Disk} (h : Shows m s d) (waited : Nat)
    {c : Call} (hc : ∀ n ∈ c.written, n.value.LevelIs IsNumber) :
    ∃ answer s' d', (⟨.relational s, d, waited⟩ : Site).serve c =
        (answer, ⟨.relational s', d', waited⟩) ∧
      answer.Alike (m.answer c) ∧ Shows (m.behind c) s' d' := by
  cases c with
  | update n =>
    obtain ⟨s', d', hupdate, hshows⟩ := h.update (hc n (List.mem_singleton.2 rfl))
    refine ⟨.done (.ok ()), s', d', ?_, ⟨rfl, rfl⟩, hshows⟩
    simp only [Site.serve, Site.update, hupdate, Nat.add_zero]
  | batch ms =>
    obtain ⟨s', d', hbatch, hshows⟩ := h.batchUpdate hc
    have hbatch' : s.batchUpdate ms d = (.ok (), (s', d'), 0) := hbatch
    refine ⟨.done (.ok ()), s', d', ?_, ⟨rfl, rfl⟩, hshows⟩
    simp only [Site.serve, Site.batchUpdate, hbatch', Nat.add_zero]
  | get kind name => exact ⟨_, s, d, rfl, h.alike_get kind name, h⟩
  | list => exact ⟨_, s, d, rfl, h.alike_list, h⟩

/-- Calls in order are answered alike, from any metrics that the store shows. -/
theorem Shows.serveAll {m : Memory} {s : Relational} {d : Disk} (h : Shows m s d) (waited : Nat)
    {cs : List Call} (hcs : ∀ c ∈ cs, ∀ n ∈ c.written, n.value.LevelIs IsNumber) :
    List.Forall₂ Answer.Alike ((⟨.relational s, d, waited⟩ : Site).serveAll cs)
      ((Site.inMemory m).serveAll cs) := by
  induction cs generalizing m s d with
  | nil => exact .nil
  | cons c cs ih =>
    obtain ⟨answer, s', d', hserve, halike, hnext⟩ := h.serve waited (hcs c List.mem_cons_self)
    rw [Site.serveAll_inMemory, Site.serveAll, hserve]
    exact .cons halike (ih hnext fun x hx => hcs x (List.mem_cons_of_mem c hx))

/-- **Tables and maps answer alike.** A store in a database that may be written to and whose two
tables are empty answers every call as a store in memory that started empty does, provided that
no gauge is written that is not a number. -/
theorem serveAll_alike {s : Relational} {d : Disk} (waited : Nat) (hwritable : s.readOnly = false)
    (hempty : s.database d = .ok ⟨some [], some []⟩) (calls : List Call)
    (hnumbers : ∀ c ∈ calls, ∀ m ∈ c.written, m.value.LevelIs IsNumber) :
    List.Forall₂ Answer.Alike ((⟨.relational s, d, waited⟩ : Site).serveAll calls)
      ((Site.inMemory .empty).serveAll calls) :=
  Shows.serveAll ⟨hwritable, _, hempty, Database.shows_empty⟩ waited hnumbers

/-- A store that was just opened. -/
def justOpened : Relational := ⟨.own ⟨some [], some []⟩, false, .standard, false⟩

/-- Calls on one name under both kinds: counts up to both ends of the range, and minus zero. -/
def mixedCalls : List Call :=
  [.batch [⟨"a", .counter 9223372036854775807, by decide⟩, ⟨"a", .gauge .negZero, by decide⟩,
      ⟨"a", .counter 1, by decide⟩, ⟨"b", .gauge (.infinity true), by decide⟩],
    .update ⟨"a", .counter (-9223372036854775808), by decide⟩,
    .batch [⟨"a", .counter (-9223372036854775807), by decide⟩, ⟨"a", .counter (-5), by decide⟩],
    .get .counter "a", .get .gauge "a", .get .counter "b", .list]

/-- Their answers, with the level that the gauge of `a` is told to have. The total of `a` has been
cut at the upper end of the range, brought to minus one, and cut at the lower end. -/
def mixedAnswers (level : Binary64) : List Answer :=
  [.done (.ok ()), .done (.ok ()), .done (.ok ()),
    .metric (.ok ⟨"a", .counter (-9223372036854775808), by decide⟩),
    .metric (.ok ⟨"a", .gauge level, by decide⟩),
    .metric (.error (.unknownMetric "counter" "b")),
    .metrics (.ok [⟨"a", .gauge level, by decide⟩, ⟨"b", .gauge (.infinity true), by decide⟩,
      ⟨"a", .counter (-9223372036854775808), by decide⟩])]

theorem alike_mixedCalls :
    openAt "sqlite::memory:" .standard (.blank []) = (.ok justOpened, .blank []) ∧
      (⟨.relational justOpened, .blank [], 0⟩ : Site).serveAll mixedCalls =
        mixedAnswers .zero ∧
      (Site.inMemory .empty).serveAll mixedCalls = mixedAnswers .negZero ∧
      List.Forall₂ Answer.Alike
        ((⟨.relational justOpened, .blank [], 0⟩ : Site).serveAll mixedCalls)
        ((Site.inMemory .empty).serveAll mixedCalls) :=
  ⟨by decide +kernel, by decide +kernel, by decide +kernel,
    serveAll_alike 0 rfl rfl mixedCalls (by decide +kernel)⟩

end Relational

end Telemetry
