import Mathlib
import Telemetry.Store.Memory

/-!
# The entries of a store

A store in memory is two lists of entries, each name once in each of them. What is said here of
entries is said of every list in which names stand once (`Distinct`), in whatever order: such a
list is known by what is found in it (`perm_of_lookupIn`), and a map is rebuilt from its own
(`NameMap.ofEntries_entries`).

Whatever is applied to a store has a name, so every entry has one, and a gauge holds nothing but
doubles that were put into it (`Memory.Kept`).

* `perm_of_lookupIn`: entries that look up alike;
* `Memory.metricsOf_cons`, `mem_metricsOf`: the metrics of entries;
* `Memory.Kept.applyAll`: what all entries are, behind a batch.
-/

namespace Telemetry

variable {α β : Type}

/-! ### Entries told apart by their names -/

/-- Each name stands in one entry. -/
def Distinct (entries : List (String × α)) : Prop := (entries.map Prod.fst).Nodup

/-- The entries of a map have one name each. -/
theorem distinct_of_sorted {entries : List (String × α)} (h : Sorted entries) :
    Distinct entries := by
  refine List.pairwise_map.2 (h.imp fun {p q} hlt he => ?_)
  rw [he] at hlt
  exact String.lt_irrefl _ hlt

/-- An entry that is there is found under its name. -/
theorem mem_iff_lookupIn {entries : List (String × α)} (h : Distinct entries) (p : String × α) :
    p ∈ entries ↔ lookupIn p.1 entries = some p.2 := by
  induction entries with
  | nil => simp [lookupIn]
  | cons entry rest ih =>
    obtain ⟨n, a⟩ := entry
    obtain ⟨hn, hrest⟩ := List.nodup_cons.1 h
    rw [List.mem_cons, lookupIn]
    by_cases hp : p.1 = n
    · rw [if_pos hp]
      constructor
      · rintro (rfl | hmem)
        · rfl
        · exact absurd (List.mem_map.2 ⟨p, hmem, hp⟩) hn
      · intro ha
        exact .inl (Prod.ext hp (Option.some.inj ha).symm)
    · rw [if_neg hp, ← ih hrest]
      constructor
      · rintro (rfl | hmem)
        · exact absurd rfl hp
        · exact hmem
      · exact .inr

/-- **Entries that look up alike are the same up to order.** -/
theorem perm_of_lookupIn {xs ys : List (String × α)} (hx : Distinct xs) (hy : Distinct ys)
    (h : ∀ name, lookupIn name xs = lookupIn name ys) : xs.Perm ys := by
  refine (List.perm_ext_iff_of_nodup (List.Nodup.of_map _ hx) (List.Nodup.of_map _ hy)).2 ?_
  intro p
  rw [mem_iff_lookupIn hx, mem_iff_lookupIn hy, h]

/-- What is found among entries whose values have been turned into others. -/
theorem lookupIn_map (f : α → β) (name : String) (entries : List (String × α)) :
    lookupIn name (entries.map fun p => (p.1, f p.2)) = (lookupIn name entries).map f := by
  induction entries with
  | nil => rfl
  | cons p rest ih =>
    rw [List.map_cons, lookupIn, lookupIn]
    split
    · rfl
    · exact ih

/-- Turning values into others leaves the names alone. -/
theorem distinct_map {entries : List (String × α)} (h : Distinct entries) (f : α → β) :
    Distinct (entries.map fun p => (p.1, f p.2)) := by
  rw [Distinct, List.map_map]
  exact h

namespace NameMap

/-- Entries set one after the other, in their order, on top of a map. -/
theorem lookup_foldl_insert {entries : List (String × α)} (h : Sorted entries) (m : NameMap α)
    (name : String) :
    (entries.foldl (fun m p => m.insert p.1 p.2) m).lookup name =
      (lookupIn name entries).or (m.lookup name) := by
  induction entries generalizing m with
  | nil => rfl
  | cons p rest ih =>
    obtain ⟨n, a⟩ := p
    have hrest := List.pairwise_cons.1 h
    rw [List.foldl_cons, ih hrest.2, lookup_insert, lookupIn]
    by_cases he : name = n
    · -- the name stands here, so it stands nowhere behind
      subst he
      rw [lookupIn_eq_none hrest.1, if_pos rfl, if_pos rfl]
      rfl
    · rw [if_neg he, if_neg he]

/-- **A map is rebuilt from its entries.** -/
theorem ofEntries_entries (m : NameMap α) : ofEntries m.entries = m := by
  refine ext_lookup fun name => ?_
  rw [ofEntries, lookup_foldl_insert m.sorted, lookup_empty, Option.or_none]
  rfl

/-- What holds of an entry written and of all others holds of all entries then. -/
theorem forall_mem_insert {P : String × α → Prop} {m : NameMap α} {name : String} {a : α}
    (hm : ∀ p ∈ m.entries, P p) (ha : P (name, a)) : ∀ p ∈ (m.insert name a).entries, P p := by
  intro p hp
  rcases mem_insertIn hp with rfl | hp
  · exact ha
  · exact hm p hp

end NameMap

/-- A value whose level, if it is one, is of some sort. -/
def Value.LevelIs (P : Binary64 → Prop) : Value → Prop
  | .gauge x => P x
  | .counter _ => True

instance (P : Binary64 → Prop) [DecidablePred P] (v : Value) : Decidable (v.LevelIs P) :=
  match v with
  | .gauge x => inferInstanceAs (Decidable (P x))
  | .counter _ => .isTrue trivial

namespace Memory

/-! ### The metrics of entries -/

/-- An entry with a name is a metric. -/
theorem metricsOf_cons (value : α → Value) {n : String} (a : α) (rest : List (String × α))
    (hn : n ≠ "") :
    metricsOf value ((n, a) :: rest) = ⟨n, value a, hn⟩ :: metricsOf value rest := by
  simp [metricsOf_eq, Metric.ofValue, hn, Except.toOption]

/-- An entry without one is left out. -/
theorem metricsOf_cons_unnamed (value : α → Value) (a : α) (rest : List (String × α)) :
    metricsOf value (("", a) :: rest) = metricsOf value rest := by
  simp [metricsOf_eq, Metric.ofValue, Except.toOption]

/-- The metrics of entries are those entries. -/
theorem mem_metricsOf {value : α → Value} {entries : List (String × α)} {m : Metric}
    (h : m ∈ metricsOf value entries) : ∃ p ∈ entries, m.name = p.1 ∧ m.value = value p.2 := by
  rw [metricsOf_eq] at h
  obtain ⟨p, hp, hm⟩ := List.mem_filterMap.1 h
  cases hv : Metric.ofValue p.1 (value p.2) with
  | error e => simp [hv, Except.toOption] at hm
  | ok n =>
    obtain rfl : n = m := by simpa [hv, Except.toOption] using hm
    exact ⟨p, hp, Metric.ofValue_eq_ok_iff.1 hv⟩

/-- **A name is found once among the metrics of entries**, if it has an entry at all. -/
theorem filterMap_metricsOf {value : α → Value} {find : Metric → Option α} {name : String}
    (hfind : ∀ n a hn, find ⟨n, value a, hn⟩ = if n = name then some a else none)
    (hname : name ≠ "") {entries : List (String × α)} (hs : Sorted entries) :
    (metricsOf value entries).filterMap find = (lookupIn name entries).toList := by
  induction entries with
  | nil => rfl
  | cons p rest ih =>
    obtain ⟨n, a⟩ := p
    have hrest := List.pairwise_cons.1 hs
    by_cases hn : n = ""
    · subst hn
      rw [metricsOf_cons_unnamed, ih hrest.2, lookupIn, if_neg hname]
    · rw [metricsOf_cons value a rest hn, List.filterMap_cons, hfind, ih hrest.2, lookupIn]
      by_cases he : name = n
      · -- the name stands here, so it stands nowhere behind
        subst he
        rw [lookupIn_eq_none hrest.1, if_pos rfl]
        rfl
      · rw [if_neg he, if_neg (Ne.symm he)]

/-- A test that finds no values of a kind finds nothing among their metrics. -/
theorem filterMap_metricsOf_eq_nil {value : α → Value} {find : Metric → Option β}
    (hfind : ∀ n a hn, find ⟨n, value a, hn⟩ = none) (entries : List (String × α)) :
    (metricsOf value entries).filterMap find = [] := by
  refine List.filterMap_eq_nil_iff.2 fun m hm => ?_
  obtain ⟨p, -, -, hv⟩ := mem_metricsOf hm
  obtain ⟨n, v, hn⟩ := m
  obtain rfl : v = value p.2 := hv
  exact hfind n p.2 hn

/-- Entries with names are metrics, and no others are. -/
theorem length_metricsOf (value : α → Value) (entries : List (String × α)) :
    (metricsOf value entries).length = entries.countP fun p => p.1 ≠ "" := by
  induction entries with
  | nil => rfl
  | cons p rest ih =>
    obtain ⟨n, a⟩ := p
    by_cases hn : n = ""
    · subst hn
      rw [metricsOf_cons_unnamed, ih, List.countP_cons_of_neg (by simp)]
    · rw [metricsOf_cons value a rest hn, List.length_cons, ih, List.countP_cons_of_pos (by simpa)]

/-! ### What is kept -/

/-- Every entry has a name, and every gauge holds a double of some sort. -/
structure Kept (P : Binary64 → Prop) (s : Memory) : Prop where
  /-- The gauges have names. -/
  gauges_named : ∀ p ∈ s.gauges.entries, p.1 ≠ ""
  /-- The counters have names. -/
  counters_named : ∀ p ∈ s.counters.entries, p.1 ≠ ""
  /-- The gauges are of that sort. -/
  level : ∀ p ∈ s.gauges.entries, P p.2

variable {P : Binary64 → Prop}

theorem kept_empty : empty.Kept P := by
  constructor <;> exact fun p hp => absurd hp List.not_mem_nil

/-- **A metric applied has a name**, and its level is kept if it is of that sort. -/
theorem Kept.apply {s : Memory} (h : s.Kept P) {m : Metric} (hm : m.value.LevelIs P) :
    (s.apply m).Kept P := by
  obtain ⟨name, value, named⟩ := m
  cases value with
  | gauge x =>
    exact ⟨NameMap.forall_mem_insert h.gauges_named named, h.counters_named,
      NameMap.forall_mem_insert h.level hm⟩
  | counter d =>
    exact ⟨h.gauges_named, NameMap.forall_mem_insert h.counters_named named, h.level⟩

theorem Kept.applyAll {s : Memory} (h : s.Kept P) {ms : List Metric}
    (hms : ∀ m ∈ ms, m.value.LevelIs P) : (s.applyAll ms).Kept P := by
  induction ms generalizing s with
  | nil => exact h
  | cons m ms ih =>
    rw [applyAll_cons]
    exact ih (h.apply (hms m List.mem_cons_self)) fun n hn => hms n (List.mem_cons_of_mem m hn)

end Memory

end Telemetry
