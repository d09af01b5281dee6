import Mathlib
import Telemetry.Proofs.FiniteMap

/-!
# A store depends on the histories of its keys alone

A metric that is applied reaches its own kind and name and nothing else, so of a list of metrics
only this matters: which values it holds under each kind and name, and in which order. Two lists
with the same **histories** (`SameHistories`) lead to the same store, however they are divided into
calls, whether each kind is taken together or not, and if several clients send them whose keys have
nothing in common, however their items come to be mixed (`Interleaved`).

Under one name counts do not commute: adding stops at the ends of 64 bits, and what was cut off
there does not come back. It does not happen if all of the counts have one sign. Then adding them
one by one is adding their sum and cutting once (`foldl_addClamped`), and so their order does not
matter even where the total stops.

* `SameHistories.perm`: lists with the same histories are the same up to order;
* `Interleaved.filter_eq`, `Interleaved.perm`: what several lists are mixed to;
* `Memory.applyAll_congr`, `Database.find_applied?`: the same histories lead to the same store, in
  memory and in tables;
* `Memory.dependsOnHistories`: all of this together.
-/

namespace Telemetry

/-! ### Histories -/

/-- **The history of a kind and a name** in a list of metrics: its values, in their order. -/
def historyOf (kind : Kind) (name : String) (ms : List Metric) : List Value :=
  (ms.filter fun m => m.kind = kind ∧ m.name = name).map Metric.value

/-- Every kind and name has the same history in one list as in the other. -/
def SameHistories (ms ns : List Metric) : Prop :=
  ∀ kind name, historyOf kind name ns = historyOf kind name ms

/-- The levels of a name are told by its history as a gauge. -/
theorem levelsOf_eq_historyOf (name : String) (ms : List Metric) :
    levelsOf name ms = (historyOf .gauge name ms).map Value.level := by
  induction ms with
  | nil => rfl
  | cons m ms ih =>
    obtain ⟨n, v, hn⟩ := m
    rw [levelsOf_cons, ih, historyOf, historyOf, List.filter_cons]
    cases v with
    | counter d => simp [levelOf?, Metric.kind, Value.kind]
    | gauge x => by_cases h : n = name <;> simp [levelOf?, Metric.kind, Value.kind, Value.level, h]

/-- Its counts are told by its history as a counter. -/
theorem deltasOf_eq_historyOf (name : String) (ms : List Metric) :
    deltasOf name ms = (historyOf .counter name ms).map Value.count := by
  induction ms with
  | nil => rfl
  | cons m ms ih =>
    obtain ⟨n, v, hn⟩ := m
    rw [deltasOf_cons, ih, historyOf, historyOf, List.filter_cons]
    cases v with
    | gauge x => simp [deltaOf?, Metric.kind, Value.kind]
    | counter d =>
      by_cases h : n = name <;> simp [deltaOf?, Metric.kind, Value.kind, Value.count, h]

/-- A metric stands in a list as often as its value does in its history. -/
theorem count_eq_count_historyOf (m : Metric) (ms : List Metric) :
    ms.count m = (historyOf m.kind m.name ms).count m.value := by
  rw [historyOf, List.count, List.count, List.countP_map, List.countP_filter]
  refine List.countP_congr fun n _ => ?_
  rw [beq_iff_eq, Metric.ext_iff]
  constructor
  · rintro ⟨hname, hvalue⟩
    simp [Metric.kind, hname, hvalue]
  · intro h
    simp only [Function.comp_apply, Bool.and_eq_true, beq_iff_eq, decide_eq_true_eq] at h
    exact ⟨h.2.2, h.1⟩

/-- **Lists with the same histories** are the same up to order. -/
theorem SameHistories.perm {ms ns : List Metric} (h : SameHistories ms ns) : ns.Perm ms :=
  List.perm_iff_count.2 fun m => by
    rw [count_eq_count_historyOf, count_eq_count_historyOf, h]

/-- Taking each kind together leaves every history as it is. -/
theorem sameHistories_grouped (ms : List Metric) : SameHistories ms (Relational.grouped ms) := by
  intro kind name
  cases ms with
  | nil => rfl
  | cons m ms =>
    rw [Relational.grouped, historyOf, historyOf, List.filter_append, List.filter_filter,
      List.filter_filter]
    refine congrArg (List.map Metric.value) ?_
    by_cases hkind : m.kind = kind
    · have hothers : ∀ n ∈ m :: ms,
          ¬(decide (n.kind = kind ∧ n.name = name) && n.kind != m.kind) = true := by
        simp only [Bool.and_eq_true, decide_eq_true_eq, bne_iff_ne, not_and, not_not]
        exact fun n _ h => h.1.trans hkind.symm
      rw [List.filter_eq_nil_iff.2 hothers, List.append_nil]
      refine List.filter_congr fun n _ => ?_
      simp only [hkind]
      by_cases h : n.kind = kind <;> simp [h]
    · have hothers : ∀ n ∈ m :: ms,
          ¬(decide (n.kind = kind ∧ n.name = name) && n.kind == m.kind) = true := by
        simp only [Bool.and_eq_true, decide_eq_true_eq, beq_iff_eq, not_and]
        exact fun n _ h hn => hkind (hn.symm.trans h.1)
      rw [List.filter_eq_nil_iff.2 hothers, List.nil_append]
      refine List.filter_congr fun n _ => ?_
      by_cases h : n.kind = kind
      · simp [h, Ne.symm hkind]
      · simp [h]

/-! ### Lists that are mixed -/

/-- **Several lists mixed to one**: item by item, from any of them each time, and each of them in
its own order. -/
inductive Interleaved {α : Type} : List (List α) → List α → Prop where
  /-- Nothing is left in any of them. -/
  | done {lists : List (List α)} (h : ∀ l ∈ lists, l = []) : Interleaved lists []
  /-- The first item of one of them comes next. -/
  | next {before behind : List (List α)} {x : α} {rest items : List α}
      (h : Interleaved (before ++ rest :: behind) items) :
      Interleaved (before ++ (x :: rest) :: behind) (x :: items)

namespace Interleaved

variable {α : Type} {lists : List (List α)} {items : List α}

/-- What is mixed are all of the items. -/
theorem perm (h : Interleaved lists items) : items.Perm lists.flatten := by
  induction h with
  | done hnil => rw [List.flatten_eq_nil_iff.2 hnil]
  | @next before behind x rest items h ih =>
    rw [List.flatten_append, List.flatten_cons] at ih ⊢
    exact (ih.cons x).trans List.perm_middle.symm

/-- **Items of which only one list holds any** come in the order of that list, as if one list had
followed the other. -/
theorem filter_eq {p : α → Bool} (h : Interleaved lists items)
    (hp : lists.Pairwise fun xs ys => ∀ x ∈ xs, p x = true → ∀ y ∈ ys, ¬p y = true) :
    items.filter p = lists.flatten.filter p := by
  induction h with
  | done hnil => rw [List.flatten_eq_nil_iff.2 hnil]
  | @next before behind x rest items h ih =>
    obtain ⟨hbefore, hbehind, hacross⟩ := List.pairwise_append.1 hp
    obtain ⟨hhead, htail⟩ := List.pairwise_cons.1 hbehind
    have hrest := ih (List.pairwise_append.2 ⟨hbefore,
      List.pairwise_cons.2 ⟨fun ys hys y hy => hhead ys hys y (List.mem_cons_of_mem x hy), htail⟩,
      fun xs hxs ys hys => by
        rcases List.mem_cons.1 hys with rfl | hys
        · exact fun a ha hpa y hy =>
            hacross xs hxs _ List.mem_cons_self a ha hpa y (List.mem_cons_of_mem x hy)
        · exact hacross xs hxs ys (List.mem_cons_of_mem _ hys)⟩)
    rw [List.flatten_append, List.flatten_cons, List.filter_append, List.filter_append] at hrest ⊢
    rw [List.filter_cons, List.filter_cons, hrest]
    split
    · rename_i hx
      -- no list in front holds such items, or this one could not
      have hnone : before.flatten.filter p = [] := by
        refine List.filter_eq_nil_iff.2 fun a ha hpa => ?_
        obtain ⟨xs, hxs, ha⟩ := List.mem_flatten.1 ha
        exact hacross xs hxs _ List.mem_cons_self a ha hpa x List.mem_cons_self hx
      rw [hnone, List.nil_append, List.nil_append, List.cons_append]
    · rfl

end Interleaved

/-- Two lists that have no kind and name in common. -/
def Apart (ms ns : List Metric) : Prop :=
  ∀ m ∈ ms, ∀ n ∈ ns, ¬(n.kind = m.kind ∧ n.name = m.name)

/-- **Clients on different keys** leave the histories that they would leave one after the other. -/
theorem Interleaved.sameHistories {lists : List (List Metric)} {items : List Metric}
    (h : Interleaved lists items) (hapart : lists.Pairwise Apart) :
    SameHistories lists.flatten items := by
  intro kind name
  refine congrArg (List.map Metric.value) (h.filter_eq (hapart.imp fun {xs ys} hxy => ?_))
  intro m hm hkey n hn hkey'
  rw [decide_eq_true_eq] at hkey hkey'
  exact hxy m hm n hn ⟨hkey'.1.trans hkey.1.symm, hkey'.2.trans hkey.2.symm⟩

/-! ### Counts of one sign -/

/-- No two of the counts pull in different directions. -/
def OneSign (ds : List Int64) : Prop := (∀ d ∈ ds, 0 ≤ d.toInt) ∨ ∀ d ∈ ds, d.toInt ≤ 0

/-- It is read off the list, for there are too many numbers of 64 bits to try. -/
instance (ds : List Int64) : Decidable (OneSign ds) :=
  decidable_of_iff (ds.all (0 ≤ ·.toInt) = true ∨ ds.all (·.toInt ≤ 0) = true) (by simp [OneSign])

theorem sum_toInt_nonneg {ds : List Int64} (h : ∀ d ∈ ds, 0 ≤ d.toInt) :
    0 ≤ (ds.map Int64.toInt).sum :=
  List.sum_nonneg (List.forall_mem_map.2 h)

theorem sum_toInt_nonpos {ds : List Int64} (h : ∀ d ∈ ds, d.toInt ≤ 0) :
    (ds.map Int64.toInt).sum ≤ 0 := by
  simpa using List.sum_le_card_nsmul (ds.map Int64.toInt) 0 (List.forall_mem_map.2 h)

/-- A whole number cut at the ends of the range. -/
theorem toInt_ofIntClamp_eq (n : Int) :
    (Int64.ofIntClamp n).toInt =
      max Int64.minValue.toInt (min Int64.maxValue.toInt n) := by
  have hends : Int64.minValue.toInt ≤ Int64.maxValue.toInt := by decide
  rw [Int64.ofIntClamp]
  split
  · split
    · rw [Int64.toInt_ofIntLE]
      omega
    · omega
  · omega

/-- **Counts of one sign** add up to their sum, cut once. -/
theorem foldl_addClamped {ds : List Int64} (h : OneSign ds) (t : Int64) :
    ds.foldl addClamped t = Int64.ofIntClamp (t.toInt + (ds.map Int64.toInt).sum) := by
  induction ds generalizing t with
  | nil => simp
  | cons d ds ih =>
    have hlo := t.minValue_le_toInt
    have hhi := t.toInt_le
    have htail : OneSign ds := h.imp (fun h x hx => h x (List.mem_cons_of_mem d hx))
      fun h x hx => h x (List.mem_cons_of_mem d hx)
    rw [List.foldl_cons, ih htail, List.map_cons, List.sum_cons, ← Int64.toInt_inj,
      toInt_ofIntClamp_eq, toInt_ofIntClamp_eq, addClamped, toInt_ofIntClamp_eq]
    rcases h with h | h
    · have hd := h d List.mem_cons_self
      have hsum := sum_toInt_nonneg fun x hx => h x (List.mem_cons_of_mem d hx)
      omega
    · have hd := h d List.mem_cons_self
      have hsum := sum_toInt_nonpos fun x hx => h x (List.mem_cons_of_mem d hx)
      omega

/-! ### Stores in memory -/

namespace Memory

variable {s : Memory} {ms ns : List Metric}

/-- **The same histories** lead to the same store. -/
theorem applyAll_congr (h : SameHistories ms ns) (s : Memory) : s.applyAll ns = s.applyAll ms := by
  have hgauges : (s.applyAll ns).gauges = (s.applyAll ms).gauges :=
    NameMap.ext_lookup fun name => by
      rw [lookup_gauges_applyAll, lookup_gauges_applyAll, levelsOf_eq_historyOf,
        levelsOf_eq_historyOf, h]
  have hcounters : (s.applyAll ns).counters = (s.applyAll ms).counters :=
    NameMap.ext_lookup fun name => by
      rw [lookup_counters_applyAll, lookup_counters_applyAll, deltasOf_eq_historyOf,
        deltasOf_eq_historyOf, h]
  rw [show s.applyAll ns = ⟨(s.applyAll ns).gauges, (s.applyAll ns).counters⟩ from rfl, hgauges,
    hcounters]

/-- **Counts of one sign** in another order lead to the same total, the sum cut once. -/
theorem counters_congr {name : String} (hsign : OneSign (deltasOf name ms))
    (hperm : (deltasOf name ns).Perm (deltasOf name ms)) (s : Memory) :
    (s.applyAll ns).counters.lookup name = (s.applyAll ms).counters.lookup name ∧
      (s.applyAll ns).total name =
        Int64.ofIntClamp ((s.total name).toInt + deltaIn name ms) := by
  have hsign' : OneSign (deltasOf name ns) :=
    hsign.imp (fun h d hd => h d (hperm.mem_iff.1 hd)) fun h d hd => h d (hperm.mem_iff.1 hd)
  have hsum : deltaIn name ns = deltaIn name ms := (hperm.map Int64.toInt).sum_eq
  have hnil : deltasOf name ns = [] ↔ deltasOf name ms = [] := by
    rw [← List.length_eq_zero_iff, hperm.length_eq, List.length_eq_zero_iff]
  rw [lookup_counters_applyAll, lookup_counters_applyAll, total_applyAll, foldl_addClamped hsign,
    foldl_addClamped hsign']
  change (if _ then _ else some (Int64.ofIntClamp (_ + deltaIn name ns))) =
    (if _ then _ else some (Int64.ofIntClamp (_ + deltaIn name ms))) ∧
      Int64.ofIntClamp (_ + deltaIn name ns) = _
  simp only [hsum, hnil, and_self]

/-- Delivered again, a list leaves the gauges as they are. -/
theorem gauges_applyAll_again (s : Memory) (ms : List Metric) :
    ((s.applyAll ms).applyAll ms).gauges = (s.applyAll ms).gauges := by
  refine NameMap.ext_lookup fun name => ?_
  rw [lookup_gauges_applyAll, lookup_gauges_applyAll]
  cases (levelsOf name ms).getLast? <;> rfl

end Memory

/-! ### Tables -/

/-- The cell that a value put or added into a row leaves there. -/
def upserted (kind : Kind) (c : Cell) (old : Option Cell) : Cell :=
  let stored := (leaningOf kind).store c
  match kind with
  | .gauge => stored
  | .counter => old.elim stored fun current => (leaningOf kind).store (raised current stored)

/-- What a row holds behind a value of its own kind and name. -/
def cellBehind (kind : Kind) (old : Option Cell) (v : Value) : Option Cell :=
  (bound v).elim old fun c => some (upserted kind c old)

theorem lookupIn_upsertRows (kind : Kind) (id other : String) (c : Cell) (rows : Rows) :
    lookupIn other (upsertRows kind id c rows) =
      if other = id then some (upserted kind c (lookupIn id rows)) else lookupIn other rows := by
  cases kind with
  | gauge =>
    show lookupIn other (upsertIn id _ _ rows) = _
    rw [lookupIn_upsertIn]
    cases lookupIn id rows <;> rfl
  | counter => exact lookupIn_upsertIn ..

namespace Database

variable {db next : Database} {ms ns : List Metric}

theorem find_eq (db : Database) (kind : Kind) (id : String) :
    db.find kind id = match db.table? kind with
      | some rows => .ok (lookupIn id rows)
      | none => .error (.noTable kind) := by
  rw [find, rowsOf]
  cases db.table? kind <;> rfl

/-- A metric reaches the row of its own kind and name and no other. -/
theorem find_upsert? {m : Metric} (h : db.upsert? m = some next) (kind : Kind) (id : String) :
    next.find kind id = (db.find kind id).map fun c =>
      if m.kind = kind ∧ m.name = id then cellBehind kind c m.value else c := by
  rw [upsert?_eq] at h
  obtain ⟨rows, hrows, h⟩ := Option.bind_eq_some_iff.1 h
  obtain ⟨c, hc, rfl⟩ := Option.map_eq_some_iff.1 h
  by_cases hkind : m.kind = kind
  · subst hkind
    have htable : (db.setTable m.kind (some (upsertRows m.kind m.name c rows))).table? m.kind =
        some (upsertRows m.kind m.name c rows) := by
      cases m.kind <;> rfl
    rw [find_eq, find_eq, htable, hrows]
    simp only [Except.map, lookupIn_upsertRows, cellBehind, hc, Option.elim, true_and]
    by_cases hid : m.name = id
    · rw [if_pos hid, if_pos hid.symm, hid]
    · rw [if_neg hid, if_neg (Ne.symm hid)]
  · rw [find_eq, find_eq, table?_setTable_ne db hkind]
    cases db.table? kind with
    | none => rfl
    | some rows => simp only [Except.map, hkind, false_and, if_false]

/-- **What a row holds behind a batch** is told by its history. -/
theorem find_applied? (h : db.applied? ms = some next) (kind : Kind) (id : String) :
    next.find kind id =
      (db.find kind id).map ((historyOf kind id ms).foldl (cellBehind kind)) := by
  induction ms generalizing db with
  | nil =>
    obtain rfl : db = next := Option.some.inj h
    cases db.find kind id <;> rfl
  | cons m ms ih =>
    rw [applied?_cons] at h
    obtain ⟨middle, hm, h⟩ := Option.bind_eq_some_iff.1 h
    rw [ih h, find_upsert? hm, historyOf, historyOf, List.filter_cons]
    cases db.find kind id with
    | error e => rfl
    | ok c => by_cases hkey : m.kind = kind ∧ m.name = id <;> simp [Except.map, hkey]

/-- A metric that could be put into its row leaves the tables there that there were. -/
theorem isSome_table?_of_upsert? {m : Metric} (h : db.upsert? m = some next) (kind : Kind) :
    (next.table? kind).isSome = (db.table? kind).isSome := by
  rw [upsert?_eq] at h
  obtain ⟨rows, hrows, h⟩ := Option.bind_eq_some_iff.1 h
  obtain ⟨c, -, rfl⟩ := Option.map_eq_some_iff.1 h
  by_cases hkind : m.kind = kind
  · subst hkind
    rw [hrows]
    cases m.kind <;> rfl
  · rw [table?_setTable_ne db hkind]

/-- **A batch can be applied** exactly if there is a table for every metric and a cell for its
value. -/
theorem isSome_applied?_iff (db : Database) (ms : List Metric) :
    (db.applied? ms).isSome = true ↔
      ∀ m ∈ ms, (db.table? m.kind).isSome = true ∧ (bound m.value).isSome = true := by
  induction ms generalizing db with
  | nil => simp
  | cons m ms ih =>
    have hhead : (db.upsert? m).isSome = true ↔
        (db.table? m.kind).isSome = true ∧ (bound m.value).isSome = true := by
      rw [upsert?_eq]
      cases db.table? m.kind <;> simp
    rw [applied?_cons, List.forall_mem_cons, ← hhead]
    cases hm : db.upsert? m with
    | none => simp
    | some middle =>
      simp only [Option.bind_some, ih, isSome_table?_of_upsert? hm, Option.isSome_some, true_and]

/-- Two databases hold the same under every kind and name. -/
def SameRows (db next : Database) : Prop := ∀ kind id, next.find kind id = db.find kind id

/-- **The same histories** lead to the same rows, or neither list can be applied. -/
theorem applied?_congr (h : SameHistories ms ns) (db : Database) :
    Option.Rel SameRows (db.applied? ms) (db.applied? ns) := by
  have hsome : (db.applied? ms).isSome = (db.applied? ns).isSome := by
    rw [Bool.eq_iff_iff, isSome_applied?_iff, isSome_applied?_iff]
    exact forall_congr' fun m => imp_congr_left h.perm.mem_iff.symm
  cases hms : db.applied? ms with
  | none =>
    rw [hms] at hsome
    rw [Option.isSome_eq_false_iff.1 hsome.symm |> Option.isNone_iff_eq_none.1]
    exact .none
  | some x =>
    rw [hms] at hsome
    obtain ⟨y, hns⟩ := Option.isSome_iff_exists.1 hsome.symm
    rw [hns]
    refine .some fun kind id => ?_
    rw [find_applied? hms, find_applied? hns, h]

end Database

/-! ### Calls -/

namespace Site

/-- The site behind calls in order. -/
def after (s : Site) (calls : List Call) : Site := calls.foldl (fun s c => (s.serve c).2) s

/-- The metrics that a site keeps in memory, if it does. -/
def memory? (s : Site) : Option Memory :=
  match s.backend with
  | .memory m => some m
  | .file f => some f.memory
  | .relational _ => none

/-- A call leaves what it writes in memory, whether or not a file can be written. -/
theorem memory?_serve (s : Site) (c : Call) :
    (s.serve c).2.memory? = s.memory?.map fun m => m.applyAll c.written := by
  obtain ⟨backend, d, waited⟩ := s
  cases backend with
  | memory m => cases c <;> rfl
  | file f =>
    cases c with
    | update m => exact congrArg some (f.batchUpdate_memory [m] d)
    | batch ms => exact congrArg some (f.batchUpdate_memory ms d)
    | get kind name => rfl
    | list => rfl
  | relational r => cases c <;> rfl

/-- **Calls leave what all of them write**, in their order. -/
theorem memory?_after (s : Site) (calls : List Call) :
    (s.after calls).memory? =
      s.memory?.map fun m => m.applyAll (calls.flatMap Call.written) := by
  induction calls generalizing s with
  | nil => cases h : s.memory? <;> simp [after, h]
  | cons c calls ih =>
    show ((s.serve c).2.after calls).memory? = _
    rw [ih, memory?_serve]
    cases s.memory? <;> simp [Memory.applyAll_append]

end Site

namespace Memory

/-- **A store depends on the histories of its keys alone.** -/
structure DependsOnHistories (s : Memory) (ms : List Metric) : Prop where
  /-- Metrics in any other order that keeps the histories lead to the same store, -/
  reordered {ns : List Metric} : SameHistories ms ns → s.applyAll ns = s.applyAll ms
  /-- however they are divided into calls, with or without a file beside the memory, -/
  divided {site : Site} {calls : List Call} : site.memory? = some s →
    SameHistories ms (calls.flatMap Call.written) →
      (site.after calls).memory? = some (s.applyAll ms)
  /-- and if each kind is taken together; -/
  grouped : s.applyAll (Relational.grouped ms) = s.applyAll ms
  /-- in a database they lead to the same rows, or neither can be applied, -/
  tables {ns : List Metric} (db : Database) : SameHistories ms ns →
    Option.Rel Database.SameRows (db.applied? ms) (db.applied? ns)
  /-- and to the very same tables if each kind is taken together. -/
  groupedTables (db : Database) : db.applied? (Relational.grouped ms) = db.applied? ms
  /-- Clients on different keys, whatever calls they make, may be mixed in any way. -/
  mixed {clients : List (List Call)} {ns : List Metric} :
    (clients.map (·.flatMap Call.written)).Pairwise Apart →
      Interleaved (clients.map (·.flatMap Call.written)) ms →
        Interleaved (clients.map (·.flatMap Call.written)) ns → s.applyAll ns = s.applyAll ms
  /-- The counts of one name may come in any order if they have one sign, -/
  commuted {name : String} {ns : List Metric} : OneSign (deltasOf name ms) →
    (deltasOf name ns).Perm (deltasOf name ms) →
      (s.applyAll ns).lookup .counter name = (s.applyAll ms).lookup .counter name
  /-- and from however many clients: the total is the sum of all of them on top of the old one,
  cut at the ends of the range. -/
  counted {name : String} {clients : List (List Call)} :
    Interleaved (clients.map (·.flatMap Call.written)) ms → OneSign (deltasOf name ms) →
      (s.applyAll ms).total name = Int64.ofIntClamp ((s.total name).toInt +
        (clients.map fun calls => deltaIn name (calls.flatMap Call.written)).sum)
  /-- Delivered a second time, the metrics leave every gauge as it was behind the first. -/
  again (name : String) :
    ((s.applyAll ms).applyAll ms).lookup .gauge name = (s.applyAll ms).lookup .gauge name

/-- **Whatever is applied to whatever store.** -/
theorem dependsOnHistories (s : Memory) (ms : List Metric) : s.DependsOnHistories ms := by
  constructor
  case reordered => exact fun h => applyAll_congr h s
  case divided =>
    intro site calls hsite h
    rw [Site.memory?_after, hsite, Option.map_some, applyAll_congr h]
  case grouped => exact applyAll_congr (sameHistories_grouped ms) s
  case tables => exact fun db h => Database.applied?_congr h db
  case groupedTables => exact fun db => Database.applied?_grouped db ms
  case mixed =>
    intro clients ns hapart hms hns
    rw [applyAll_congr (hns.sameHistories hapart), applyAll_congr (hms.sameHistories hapart)]
  case commuted =>
    intro name ns hsign hperm
    exact lookup_congr (congrArg (Option.map Value.counter) (counters_congr hsign hperm s).1)
  case counted =>
    intro name clients hms hsign
    rw [(counters_congr hsign (List.Perm.refl _) s).2, deltaIn]
    have hsum := (((hms.perm.filterMap (deltaOf? name)).map Int64.toInt)).sum_eq
    rw [List.filterMap_flatten, List.map_flatten, List.sum_flatten, List.map_map, List.map_map,
      List.map_map] at hsum
    exact congrArg (fun n => Int64.ofIntClamp ((s.total name).toInt + n)) hsum
  case again =>
    intro name
    refine lookup_congr (congrArg (Option.map Value.gauge) ?_)
    rw [gauges_applyAll_again]

/-- Counts of both signs do not commute where the total stops. -/
example :
    (empty.applyAll [⟨"x", .counter 9223372036854775807, by decide⟩, ⟨"x", .counter 1, by decide⟩,
        ⟨"x", .counter (-1), by decide⟩]).total "x" = 9223372036854775806 ∧
      (empty.applyAll [⟨"x", .counter 9223372036854775807, by decide⟩,
        ⟨"x", .counter (-1), by decide⟩, ⟨"x", .counter 1, by decide⟩]).total "x" =
          9223372036854775807 := by
  decide +kernel

end Memory

end Telemetry
