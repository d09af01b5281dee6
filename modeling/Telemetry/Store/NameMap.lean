/-!
# Maps by name

A finite map from names to values. Its entries are held in the order of their names,
each name once; so there is one list of entries for every map, two maps are the same
exactly when they look up alike (`NameMap.ext_lookup`), and whoever lists a map lists
it in order.

* `NameMap.lookup`, `insert`, `modify`, `ofEntries`;
* `NameMap.lookup_insert`: one name changes, no other does.
-/

namespace Telemetry

variable {α : Type}

/-! ### Sorted entries -/

/-- The value of a name among entries. -/
def lookupIn (name : String) : List (String × α) → Option α
  | [] => none
  | (n, a) :: rest => if name = n then some a else lookupIn name rest

/-- Sorted entries with the value of one name set. -/
def insertIn (name : String) (a : α) : List (String × α) → List (String × α)
  | [] => [(name, a)]
  | (n, b) :: rest =>
    if name < n then (name, a) :: (n, b) :: rest
    else if name = n then (name, a) :: rest
    else (n, b) :: insertIn name a rest

/-- The names stand in increasing order. -/
def Sorted (entries : List (String × α)) : Prop := entries.Pairwise fun p q => p.1 < q.1

/-- The entries after an insertion. -/
theorem mem_insertIn {name : String} {a : α} {p : String × α} {entries : List (String × α)}
    (h : p ∈ insertIn name a entries) : p = (name, a) ∨ p ∈ entries := by
  induction entries with
  | nil =>
    simp only [insertIn, List.mem_singleton] at h
    exact Or.inl h
  | cons q rest ih =>
    unfold insertIn at h
    split at h
    · simpa using h
    · split at h
      · rcases List.mem_cons.1 h with h | h
        · exact Or.inl h
        · exact Or.inr (List.mem_cons_of_mem _ h)
      · rcases List.mem_cons.1 h with h | h
        · exact Or.inr (h ▸ List.mem_cons_self)
        · rcases ih h with h | h
          · exact Or.inl h
          · exact Or.inr (List.mem_cons_of_mem _ h)

/-- An insertion keeps the order. -/
theorem sorted_insertIn {name : String} {a : α} {entries : List (String × α)}
    (h : Sorted entries) : Sorted (insertIn name a entries) := by
  induction entries with
  | nil => exact List.pairwise_singleton ..
  | cons q rest ih =>
    obtain ⟨n, b⟩ := q
    have hq := List.pairwise_cons.1 h
    unfold insertIn
    split
    · rename_i hlt
      refine List.pairwise_cons.2 ⟨fun p hp => ?_, h⟩
      rcases List.mem_cons.1 hp with rfl | hp
      · exact hlt
      · exact String.lt_trans hlt (hq.1 p hp)
    · rename_i hnlt
      split
      · rename_i he
        subst he
        exact List.pairwise_cons.2 hq
      · rename_i hne
        refine List.pairwise_cons.2 ⟨fun p hp => ?_, ih hq.2⟩
        rcases mem_insertIn hp with rfl | hp
        · exact Std.lt_of_le_of_ne (String.not_lt.1 hnlt) fun hc => hne hc.symm
        · exact hq.1 p hp

/-- A name before all entries is not among them. -/
theorem lookupIn_eq_none {name : String} {entries : List (String × α)}
    (h : ∀ p ∈ entries, name < p.1) : lookupIn name entries = none := by
  induction entries with
  | nil => rfl
  | cons q rest ih =>
    have hq : name ≠ q.1 := fun hc => String.lt_irrefl name (hc ▸ h q List.mem_cons_self)
    obtain ⟨n, b⟩ := q
    rw [lookupIn, if_neg hq]
    exact ih fun p hp => h p (List.mem_cons_of_mem _ hp)

/-- An insertion changes what is found under its name and under no other. -/
theorem lookupIn_insertIn (name other : String) (a : α) (entries : List (String × α)) :
    lookupIn other (insertIn name a entries) =
      if other = name then some a else lookupIn other entries := by
  induction entries with
  | nil => rfl
  | cons q rest ih =>
    obtain ⟨n, b⟩ := q
    unfold insertIn
    split
    · rfl
    · split
      · rename_i he
        subst he
        unfold lookupIn
        split <;> rfl
      · rename_i hne
        unfold lookupIn
        split
        · rename_i he
          subst he
          rw [if_neg fun hc => hne hc.symm]
        · exact ih

/-- Sorted entries are told apart by looking up. -/
theorem sorted_ext {xs ys : List (String × α)} (hx : Sorted xs) (hy : Sorted ys)
    (h : ∀ name, lookupIn name xs = lookupIn name ys) : xs = ys := by
  induction xs generalizing ys with
  | nil =>
    cases ys with
    | nil => rfl
    | cons q ys =>
      have := h q.1
      simp [lookupIn] at this
  | cons p xs ih =>
    obtain ⟨m, a⟩ := p
    cases ys with
    | nil =>
      have := h m
      simp [lookupIn] at this
    | cons q ys =>
      obtain ⟨n, b⟩ := q
      have hx' := List.pairwise_cons.1 hx
      have hy' := List.pairwise_cons.1 hy
      have hmn : m = n := by
        by_cases hlt : m < n
        · have hnone : lookupIn m ((n, b) :: ys) = none := by
            refine lookupIn_eq_none fun p hp => ?_
            rcases List.mem_cons.1 hp with rfl | hp
            · exact hlt
            · exact String.lt_trans hlt (hy'.1 p hp)
          have := h m
          rw [hnone] at this
          simp [lookupIn] at this
        · by_cases he : m = n
          · exact he
          · have hgt : n < m := Std.lt_of_le_of_ne (String.not_lt.1 hlt) fun hc => he hc.symm
            have hnone : lookupIn n ((m, a) :: xs) = none := by
              refine lookupIn_eq_none fun p hp => ?_
              rcases List.mem_cons.1 hp with rfl | hp
              · exact hgt
              · exact String.lt_trans hgt (hx'.1 p hp)
            have := h n
            rw [hnone] at this
            simp [lookupIn] at this
      subst hmn
      have hab : a = b := by
        have := h m
        simpa [lookupIn] using this
      subst hab
      congr 1
      refine ih hx'.2 hy'.2 fun name => ?_
      by_cases hname : name = m
      · subst hname
        rw [lookupIn_eq_none hx'.1, lookupIn_eq_none hy'.1]
      · have := h name
        simpa [lookupIn, hname] using this

/-! ### Maps -/

/-- A finite map from names to values. -/
structure NameMap (α : Type) where
  /-- The entries. -/
  entries : List (String × α)
  /-- They stand in the order of their names. -/
  sorted : Sorted entries

namespace NameMap

instance [DecidableEq α] : DecidableEq (NameMap α) := fun m n =>
  match m, n with
  | ⟨xs, _⟩, ⟨ys, _⟩ =>
    if h : xs = ys then .isTrue (by subst h; rfl) else .isFalse fun hc => h (by cases hc; rfl)

/-- The map without entries. -/
def empty : NameMap α := ⟨[], List.Pairwise.nil⟩

instance : Inhabited (NameMap α) := ⟨empty⟩

/-- The value of a name. -/
def lookup (m : NameMap α) (name : String) : Option α := lookupIn name m.entries

/-- The map with the value of one name set. -/
def insert (m : NameMap α) (name : String) (a : α) : NameMap α :=
  ⟨insertIn name a m.entries, sorted_insertIn m.sorted⟩

/-- The map with the value of one name replaced by what it is turned into. -/
def modify (m : NameMap α) (name : String) (f : Option α → α) : NameMap α :=
  m.insert name (f (m.lookup name))

/-- The map without one name. -/
def erase (m : NameMap α) (name : String) : NameMap α :=
  ⟨m.entries.filter fun p => p.1 != name, List.Pairwise.filter _ m.sorted⟩

/-- The map of entries in any order, of which the last one of each name counts. -/
def ofEntries (entries : List (String × α)) : NameMap α :=
  entries.foldl (fun m p => m.insert p.1 p.2) empty

/-- How many names there are. -/
def size (m : NameMap α) : Nat := m.entries.length

/-- No names? -/
def isEmpty (m : NameMap α) : Bool := m.entries.isEmpty

@[simp] theorem lookup_empty (name : String) : (empty : NameMap α).lookup name = none := rfl

/-- Setting a name changes that name and no other. -/
theorem lookup_insert (m : NameMap α) (name other : String) (a : α) :
    (m.insert name a).lookup other = if other = name then some a else m.lookup other :=
  lookupIn_insertIn name other a m.entries

@[simp] theorem lookup_insert_self (m : NameMap α) (name : String) (a : α) :
    (m.insert name a).lookup name = some a := by
  rw [lookup_insert, if_pos rfl]

/-- A change shows under its name and under no other. -/
theorem lookup_modify (m : NameMap α) (name other : String) (f : Option α → α) :
    (m.modify name f).lookup other =
      if other = name then some (f (m.lookup name)) else m.lookup other :=
  lookup_insert m name other _

/-- Maps that look up alike are the same. -/
theorem ext_lookup {m n : NameMap α} (h : ∀ name, m.lookup name = n.lookup name) : m = n := by
  obtain ⟨xs, hx⟩ := m
  obtain ⟨ys, hy⟩ := n
  have : xs = ys := sorted_ext hx hy h
  subst this
  rfl

end NameMap

end Telemetry
