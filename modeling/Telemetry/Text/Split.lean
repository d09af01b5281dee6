/-!
# Cutting lists

A path is cut at its slashes, a name of a host at its points, a line of options at its
ampersands. Each item that a list is cut at stands between two parts, so there is one
part more than there are such items, and parts may be empty.
-/

namespace Telemetry

variable {α : Type}

/-- A list cut at the items that a test picks. -/
def cutAt (isCut : α → Bool) : List α → List (List α)
  | [] => [[]]
  | a :: rest =>
    if isCut a then [] :: cutAt isCut rest
    else match cutAt isCut rest with
      | part :: parts => (a :: part) :: parts
      | [] => [[a]]

/-- There is always a part. -/
theorem cutAt_ne_nil (isCut : α → Bool) (xs : List α) : cutAt isCut xs ≠ [] := by
  cases xs with
  | nil => simp [cutAt]
  | cons a rest =>
    unfold cutAt
    split
    · simp
    · split <;> simp

/-- No part holds an item that the list is cut at. -/
theorem isCut_of_mem_cutAt {isCut : α → Bool} {xs part : List α} {a : α}
    (hp : part ∈ cutAt isCut xs) (ha : a ∈ part) : isCut a = false := by
  induction xs generalizing part with
  | nil =>
    simp only [cutAt, List.mem_singleton] at hp
    subst hp
    simp at ha
  | cons x rest ih =>
    unfold cutAt at hp
    split at hp
    · rcases List.mem_cons.1 hp with rfl | hp
      · simp at ha
      · exact ih hp ha
    · rename_i hx
      split at hp
      · rename_i front parts heq
        rcases List.mem_cons.1 hp with rfl | hp
        · rcases List.mem_cons.1 ha with rfl | ha
          · simpa using hx
          · exact ih (heq ▸ List.mem_cons_self) ha
        · exact ih (heq ▸ List.mem_cons_of_mem _ hp) ha
      · rcases List.mem_singleton.1 hp with rfl
        rcases List.mem_singleton.1 ha with rfl
        simpa using hx

end Telemetry
