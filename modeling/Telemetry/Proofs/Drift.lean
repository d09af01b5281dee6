import Mathlib
import Telemetry.Proofs.Readability
import Telemetry.Proofs.WorkingOut

/-!
# How far a level drifts

What is read of a level need not be what was written, and it may go on changing each time that it is
written and read again. It stays close: a level is moved by five doubles at most, each time. And
short levels are not moved at all, however often they are written.

* `Binary64.Within`, `Metric.Kept`: how far apart two levels are, and two metrics;
* `Binary64.exists_reread_within`: what is read of a level;
* `rewritten`: metrics that are written and read again and again;
* `exists_rewritten`: what becomes of them.
-/

namespace Telemetry

open Json

/-! ### Levels -/

namespace Binary64

/-- **A short level**: the decimal in its text is short. -/
def IsShort : Binary64 → Prop
  | .nan => False
  | .signed _ r => (Decimal.writtenFor r.val).IsShort

instance (x : Binary64) : Decidable x.IsShort :=
  match x with
  | .nan => .isFalse id
  | .signed _ r => inferInstanceAs (Decidable (Decimal.writtenFor r.val).IsShort)

/-- **A finite level at most `n` doubles away**, and of the same sign. -/
def Within (n : Nat) : Binary64 → Binary64 → Prop
  | .signed s r, .signed t q => t = s ∧ q.val < infiniteRank ∧ q.val ≤ r.val + n ∧ r.val ≤ q.val + n
  | _, _ => False

/-- Distances add up. -/
theorem Within.trans {m n : Nat} {x y z : Binary64} (h : Within m x y) (h' : Within n y z) :
    Within (m + n) x z := by
  cases x with
  | nan => cases h
  | signed s r =>
    cases y with
    | nan => cases h
    | signed t q =>
      cases z with
      | nan => cases h'
      | signed u p =>
        obtain ⟨rfl, -, hqr, hrq⟩ := h
        obtain ⟨rfl, hp, hpq, hqp⟩ := h'
        exact ⟨rfl, hp, by omega, by omega⟩

/-- A finite level is not away from itself. -/
theorem within_self {x : Binary64} (hx : x.isFinite = true) : Within 0 x x := by
  cases x with
  | nan => cases hx
  | signed s r => exact ⟨rfl, lt_infiniteRank hx, le_rfl, le_rfl⟩

/-- What is not far away is finite. -/
theorem Within.isFinite {n : Nat} {x y : Binary64} (h : Within n x y) : y.isFinite = true := by
  cases x with
  | nan => cases h
  | signed s r =>
    cases y with
    | nan => cases h
    | signed t q => simp [Binary64.isFinite, isNaN, isInfinite, h.2.1.ne]

/-- **What is read of a finite level** is not far away, and it is the level itself if that is
short. -/
theorem exists_reread_within {x : Binary64} (hx : x.isFinite = true) :
    ∃ y, x.reread = some y ∧ Within 5 x y ∧ (x.IsShort → y = x) := by
  cases x with
  | nan => cases hx
  | signed s r =>
    obtain ⟨q, hq, hnearby⟩ := Decimal.exists_workedOut_writtenFor (lt_infiniteRank hx)
    have hsign : withSign (!s) (signed false q) = signed s q := by
      cases s <;> rfl
    refine ⟨signed s q, ?_, ⟨rfl, hnearby.finite, hnearby.above, hnearby.below⟩, fun hshort => ?_⟩
    · rw [reread_signed hx, hq, hsign]
    · rw [Fin.ext (hnearby.same hshort)]

end Binary64

/-! ### Metrics -/

/-- **A value that has been kept**, but for `n` doubles: a total is the same, and so is a short
level. -/
def Value.Kept (n : Nat) : Value → Value → Prop
  | .gauge x, .gauge y => x.Within n y ∧ (x.IsShort → y = x)
  | .counter j, .counter k => k = j
  | _, _ => False

/-- **A metric that has been kept**, but for `n` doubles. -/
def Metric.Kept (n : Nat) (m k : Metric) : Prop := k.name = m.name ∧ m.value.Kept n k.value

/-- A metric with a finite level, compared with itself. -/
theorem Metric.kept_self {m : Metric} (hm : m.value.Readable) : m.Kept 0 m := by
  obtain ⟨name, value, named⟩ := m
  cases value with
  | gauge x => exact ⟨rfl, Binary64.within_self hm, fun _ => rfl⟩
  | counter k => exact ⟨rfl, rfl⟩

/-- What is kept twice is kept. -/
theorem Value.Kept.trans {m n : Nat} {v w u : Value} (h : v.Kept m w) (h' : w.Kept n u) :
    v.Kept (m + n) u := by
  cases v with
  | gauge x =>
    cases w with
    | counter _ => cases h
    | gauge y =>
      cases u with
      | counter _ => cases h'
      | gauge z =>
        refine ⟨h.1.trans h'.1, fun hshort => ?_⟩
        obtain rfl := h.2 hshort
        exact h'.2 hshort
  | counter j =>
    cases w with
    | gauge _ => cases h
    | counter k =>
      cases u with
      | gauge _ => cases h'
      | counter i => exact Eq.trans h' h

/-- It is still finite. -/
theorem Value.Kept.readable {n : Nat} {v w : Value} (h : v.Kept n w) : w.Readable := by
  cases w with
  | counter _ => exact trivial
  | gauge y =>
    cases v with
    | counter _ => cases h
    | gauge x => exact h.1.isFinite

/-- A total is the same, and so is a short level. -/
theorem Value.Kept.eq_of_short {n : Nat} {v w : Value} (h : v.Kept n w)
    (hshort : v.LevelIs Binary64.IsShort) : w = v := by
  cases v with
  | gauge x =>
    cases w with
    | gauge y => exact congrArg Value.gauge (h.2 hshort)
    | counter _ => cases h
  | counter j =>
    cases w with
    | gauge _ => cases h
    | counter k => exact congrArg Value.counter h

/-- **What is read of a metric with a finite level.** -/
theorem Metric.exists_reread_kept {m : Metric} (hm : m.value.Readable) :
    ∃ k, m.reread = .ok k ∧ m.Kept 5 k := by
  obtain ⟨name, value, named⟩ := m
  cases value with
  | gauge x =>
    obtain ⟨y, hy, hwithin, hshort⟩ := Binary64.exists_reread_within hm
    refine ⟨⟨name, .gauge y, named⟩, ?_, rfl, hwithin, hshort⟩
    simp only [reread, hy]
  | counter k => exact ⟨_, rfl, rfl, rfl⟩

/-- **Metrics that are written and read** so many times, one after the other. -/
def rewritten : Nat → List Metric → Except Failure (List Metric)
  | 0, ms => .ok ms
  | n + 1, ms => decodeRecords (encodeRecords ms) >>= rewritten n

/-- Metrics that have been kept twice. -/
theorem forall₂_kept_trans {m n : Nat} {ms js ks : List Metric}
    (h : List.Forall₂ (Metric.Kept m) ms js) (h' : List.Forall₂ (Metric.Kept n) js ks) :
    List.Forall₂ (Metric.Kept (m + n)) ms ks := by
  induction h generalizing ks with
  | nil =>
    cases h'
    exact .nil
  | cons hm _ ih =>
    cases h' with
    | cons hj hrest => exact .cons ⟨hj.1.trans hm.1, hm.2.trans hj.2⟩ (ih hrest)

/-- They can be written and read again. -/
theorem readable_of_kept {n : Nat} {ms ks : List Metric}
    (h : List.Forall₂ (Metric.Kept n) ms ks) : ∀ k ∈ ks, k.value.Readable := by
  induction h with
  | nil => exact fun k hk => absurd hk List.not_mem_nil
  | cons hm _ ih => exact List.forall_mem_cons.2 ⟨hm.2.readable, ih⟩

/-- Short levels and totals are the same. -/
theorem eq_of_kept {n : Nat} {ms ks : List Metric} (h : List.Forall₂ (Metric.Kept n) ms ks)
    (hshort : ∀ m ∈ ms, m.value.LevelIs Binary64.IsShort) : ks = ms := by
  induction h with
  | nil => rfl
  | @cons m k ms ks hm _ ih =>
    obtain ⟨hself, hrest⟩ := List.forall_mem_cons.1 hshort
    rw [ih hrest, Metric.ext hm.1 (hm.2.eq_of_short hself)]

/-- **Metrics are kept when they are written and read**, one of them alone or all of them together,
once or again and again, as long as their levels are finite. Names, kinds and totals are the same,
and so are short levels. Any other level is moved by five doubles at most, each time. -/
theorem exists_rewritten {ms : List Metric} (h : ∀ m ∈ ms, m.value.Readable) (n : Nat) :
    (∀ m ∈ ms, ∃ k, decodeRecord (encodeRecord m) = .ok k ∧ m.Kept 5 k) ∧
      ∃ ks, rewritten n ms = .ok ks ∧ List.Forall₂ (Metric.Kept (n * 5)) ms ks := by
  refine ⟨fun m hm => decodeRecord_eq m ▸ Metric.exists_reread_kept (h m hm), ?_⟩
  induction n generalizing ms with
  | zero =>
    refine ⟨ms, rfl, List.forall₂_same.2 fun m hm => ?_⟩
    rw [Nat.zero_mul]
    exact Metric.kept_self (h m hm)
  | succ n ih =>
    obtain ⟨js, hjs, hkept⟩ := exists_mapM_forall₂ fun m hm => Metric.exists_reread_kept (h m hm)
    obtain ⟨ks, hks, hkept'⟩ := ih (readable_of_kept hkept)
    refine ⟨ks, ?_, ?_⟩
    · rw [rewritten, decodeRecords_eq, hjs]
      exact hks
    · rw [Nat.succ_mul, Nat.add_comm]
      exact forall₂_kept_trans hkept hkept'

/-- A short level and a total. -/
def saltAndBirds : List Metric :=
  [⟨"salt", .gauge (.ofBits 0x3FDCCCCCCCCCCCCD), by decide⟩, ⟨"birds", .counter (-5), by decide⟩]

/-- They are the same a thousand times on. -/
theorem rewritten_saltAndBirds : rewritten 1000 saltAndBirds = .ok saltAndBirds := by
  have hfinite : ∀ m ∈ saltAndBirds, m.value.Readable := by decide
  obtain ⟨-, ks, hks, hkept⟩ := exists_rewritten hfinite 1000
  rw [hks, eq_of_kept hkept (by decide +kernel)]

/-- A whole level. With the zero behind its point it has more digits than a double. -/
def mileage : Metric := ⟨"mileage", .gauge (.ofInt 7205759403792796), by decide⟩

/-- A small level of seventeen digits. -/
def speck : Metric := ⟨"speck", .gauge (.ofBits 0x14FF9503E33F2712), by decide⟩

/-- The first is read as another one, and the second goes on changing when it is written again. -/
theorem mileage_and_speck_drift :
    (mileage.value.Readable ∧ decodeRecord (encodeRecord mileage) ≠ .ok mileage) ∧
      speck.value.Readable ∧ rewritten 1 [speck] ≠ rewritten 0 [speck] ∧
        rewritten 2 [speck] ≠ rewritten 1 [speck] := by
  decide +kernel

end Telemetry
