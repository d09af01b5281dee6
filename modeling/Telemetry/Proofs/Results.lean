import Mathlib

/-!
# Results

What is computed in steps, any of which may fail, succeeds when each of them does. Taking a
success apart and putting one together again are all that the proofs about such computations
need of them.

* `bind_eq_ok`: two steps;
* `eq_ok_of_toOption`: a success told by its value alone;
* `mapM_of_forall_ok`: a step for each element of a list;
* `bind_eq_error`, `exists_of_mapM_eq_error`: where a failure comes from;
* `exists_of_mapM_eq_ok`, `exists_mapM_forall₂`, `mapM_eq_error`: a list that succeeds, and one
  that fails;
* `mapM_eq_ok_iff`, `mapM_eq_error_iff`, `mapM_eq_none_iff`: exactly when it does.
-/

namespace Telemetry

variable {ε α β : Type}

/-- What succeeds in two steps succeeds in each. -/
theorem bind_eq_ok {x : Except ε α} {f : α → Except ε β} {b : β} (h : (x >>= f) = .ok b) :
    ∃ a, x = .ok a ∧ f a = .ok b := by
  cases x with
  | error e => cases h
  | ok a => exact ⟨a, rfl, h⟩

/-- What has a value succeeded with it. -/
theorem eq_ok_of_toOption {x : Except ε α} {a : α} (h : x.toOption = some a) : x = .ok a := by
  cases x with
  | error e => cases h
  | ok b => exact congrArg Except.ok (Option.some.inj h)

/-- Where the step succeeds for every element, its values are all there is. -/
theorem mapM_of_forall_ok {f : α → Except ε β} {xs : List α} (h : ∀ x ∈ xs, ∃ y, f x = .ok y) :
    xs.mapM f = .ok (xs.filterMap fun x => (f x).toOption) := by
  induction xs with
  | nil => rfl
  | cons x xs ih =>
    obtain ⟨y, hy⟩ := h x List.mem_cons_self
    rw [List.mapM_cons, hy, ih fun z hz => h z (List.mem_cons_of_mem x hz), List.filterMap_cons,
      hy]
    rfl

/-- What fails in two steps fails in one of them. -/
theorem bind_eq_error {x : Except ε α} {f : α → Except ε β} {e : ε} (h : (x >>= f) = .error e) :
    x = .error e ∨ ∃ a, x = .ok a ∧ f a = .error e := by
  cases x with
  | error e' => exact .inl (congrArg Except.error (Except.error.inj h))
  | ok a => exact .inr ⟨a, rfl, h⟩

/-- What fails for a list fails for one of its elements. -/
theorem exists_of_mapM_eq_error {f : α → Except ε β} {e : ε} {xs : List α}
    (h : xs.mapM f = .error e) : ∃ x ∈ xs, f x = .error e := by
  induction xs with
  | nil => cases h
  | cons x xs ih =>
    rw [List.mapM_cons] at h
    rcases bind_eq_error h with hx | ⟨y, -, h⟩
    · exact ⟨x, List.mem_cons_self, hx⟩
    · rcases bind_eq_error h with hxs | ⟨ys, -, h⟩
      · obtain ⟨z, hz, hfz⟩ := ih hxs
        exact ⟨z, List.mem_cons_of_mem x hz, hfz⟩
      · cases h

/-- What succeeds for a list succeeds for each of its elements. -/
theorem exists_of_mapM_eq_ok {f : α → Except ε β} {xs : List α} {ys : List β}
    (h : xs.mapM f = .ok ys) {x : α} (hx : x ∈ xs) : ∃ y, f x = .ok y := by
  induction xs generalizing ys with
  | nil => cases hx
  | cons z zs ih =>
    rw [List.mapM_cons] at h
    obtain ⟨y, hy, h⟩ := bind_eq_ok h
    obtain ⟨tail, htail, -⟩ := bind_eq_ok h
    rcases List.mem_cons.1 hx with rfl | hx
    · exact ⟨y, hy⟩
    · exact ih htail hx

/-- Where the step succeeds for every element, what it makes of each stands in its place. -/
theorem exists_mapM_forall₂ {f : α → Except ε β} {R : α → β → Prop} {xs : List α}
    (h : ∀ x ∈ xs, ∃ y, f x = .ok y ∧ R x y) :
    ∃ ys, xs.mapM f = .ok ys ∧ List.Forall₂ R xs ys := by
  induction xs with
  | nil => exact ⟨[], rfl, .nil⟩
  | cons x xs ih =>
    obtain ⟨y, hy, hR⟩ := h x List.mem_cons_self
    obtain ⟨ys, hys, hRs⟩ := ih fun z hz => h z (List.mem_cons_of_mem x hz)
    refine ⟨y :: ys, ?_, .cons hR hRs⟩
    rw [List.mapM_cons, hy, hys]
    rfl

/-- The first failure is that of the list. -/
theorem mapM_eq_error {f : α → Except ε β} {before behind : List α} {x : α} {e : ε}
    (hbefore : ∀ z ∈ before, ∃ y, f z = .ok y) (hx : f x = .error e) :
    (before ++ x :: behind).mapM f = .error e := by
  rw [List.mapM_append, mapM_of_forall_ok hbefore, List.mapM_cons, hx]
  rfl

/-- A list succeeds exactly with what each element succeeds with. -/
theorem mapM_eq_ok_iff {f : α → Except ε β} {xs : List α} {ys : List β} :
    xs.mapM f = .ok ys ↔ List.Forall₂ (fun x y => f x = .ok y) xs ys := by
  constructor
  · intro h
    obtain ⟨zs, hzs, hall⟩ := exists_mapM_forall₂ (R := fun x y => f x = .ok y)
      (fun x hx => (exists_of_mapM_eq_ok h hx).imp fun y hy => ⟨hy, hy⟩)
    rw [h] at hzs
    cases hzs
    exact hall
  · intro h
    induction h with
    | nil => rfl
    | cons hx _ ih =>
      rw [List.mapM_cons, hx, ih]
      rfl

/-- A list fails exactly with its first failure. -/
theorem mapM_eq_error_iff {f : α → Except ε β} {e : ε} {xs : List α} :
    xs.mapM f = .error e ↔ ∃ before x behind, xs = before ++ x :: behind ∧
      (∀ z ∈ before, ∃ y, f z = .ok y) ∧ f x = .error e := by
  constructor
  · intro h
    induction xs with
    | nil => cases h
    | cons x xs ih =>
      cases hx : f x with
      | error e' =>
        rw [List.mapM_cons, hx] at h
        cases h
        exact ⟨[], x, xs, rfl, fun z hz => absurd hz List.not_mem_nil, hx⟩
      | ok y =>
        have hxs : xs.mapM f = .error e := by
          rw [List.mapM_cons, hx] at h
          rcases bind_eq_error h with h | ⟨_, -, h⟩
          · cases h
          · rcases bind_eq_error h with h | ⟨_, -, h⟩
            · exact h
            · cases h
        obtain ⟨before, z, behind, rfl, hbefore, hz⟩ := ih hxs
        exact ⟨x :: before, z, behind, rfl, List.forall_mem_cons.2 ⟨⟨y, hx⟩, hbefore⟩, hz⟩
  · rintro ⟨before, x, behind, rfl, hbefore, hx⟩
    exact mapM_eq_error hbefore hx

/-- Where a step has a value or none, a list has one if every element does. -/
theorem mapM_option_cons (f : α → Option β) (x : α) (xs : List α) :
    (x :: xs).mapM f = (f x).bind fun y => (xs.mapM f).map (y :: ·) := by
  rw [List.mapM_cons]
  cases f x <;> cases xs.mapM f <;> rfl

/-- It has none exactly if one of them does not. -/
theorem mapM_eq_none_iff {f : α → Option β} {xs : List α} :
    xs.mapM f = none ↔ ∃ x ∈ xs, f x = none := by
  induction xs with
  | nil => exact ⟨fun h => (by cases h), fun ⟨x, hx, _⟩ => absurd hx List.not_mem_nil⟩
  | cons x xs ih =>
    rw [mapM_option_cons, List.exists_mem_cons_iff, ← ih]
    cases f x with
    | none => exact ⟨fun _ => .inl rfl, fun _ => rfl⟩
    | some y =>
      show (xs.mapM f).map (y :: ·) = none ↔ _
      rw [Option.map_eq_none_iff]
      exact ⟨.inr, fun h => h.resolve_left (by rintro ⟨⟩)⟩

end Telemetry
