import Mathlib
import Telemetry.Proofs.Rounding

/-!
# The nearest double

A number of units is rounded to a rank if it is at most half a step away from the value of that
rank, and if it is just half a step away then the rank is even. No number is so for two ranks. So it
does not matter how a rank has been found: what is nearest is what a fraction is rounded to.

* `Nearest`: at most half a step away;
* `Nearest.unique`: there is one such rank;
* `nearest_nearestRank`, `nearestRank_of_nearest`: it is the one that fractions are rounded to;
* `nearest_of_close`: one part in `2 * 10 ^ 16` is less than half a step.
-/

namespace Telemetry

/-- **A number of units is nearest to a rank.** -/
structure Nearest (r : Nat) (n : ℚ) : Prop where
  /-- It is at least half way from the rank below. -/
  low : units (r - 1) + units r ≤ 2 * n
  /-- It is at most half way to the rank above. -/
  high : 2 * n ≤ units r + units (r + 1)
  /-- Half way is near enough for an even rank only. -/
  even : 2 * n = units (r - 1) + units r ∨ 2 * n = units r + units (r + 1) → r % 2 = 0

/-- A larger rank is not nearest as well. -/
theorem Nearest.not_lt {r q : Nat} {n : ℚ} (hr : Nearest r n) (hq : Nearest q n) : ¬q < r := by
  intro hlt
  have hself : units q ≤ units (r - 1) := units_strictMono.monotone (Nat.le_sub_one_of_lt hlt)
  have hnext : units (q + 1) ≤ units r := units_strictMono.monotone hlt
  have hself' : (units q : ℚ) ≤ units (r - 1) := by exact_mod_cast hself
  have hnext' : (units (q + 1) : ℚ) ≤ units r := by exact_mod_cast hnext
  have hlow := hr.low
  have hhigh := hq.high
  -- so it is half way between the two, and they are neighbours
  have hequal : q + 1 = r := by
    refine units_strictMono.injective ?_
    exact_mod_cast (show (units (q + 1) : ℚ) = units r by linarith)
  have hreven := hr.even (.inl (by linarith))
  have hqeven := hq.even (.inr (by linarith))
  omega

/-- **There is one nearest rank.** -/
theorem Nearest.unique {r q : Nat} {n : ℚ} (hr : Nearest r n) (hq : Nearest q n) : r = q :=
  le_antisymm (Nat.not_lt.1 (hr.not_lt hq)) (Nat.not_lt.1 (hq.not_lt hr))

/-- A double is nearest to its own value. -/
theorem nearest_units (r : Nat) : Nearest r (units r) := by
  have hbelow : (units (r - 1) : ℚ) ≤ units r := by
    exact_mod_cast units_strictMono.monotone (Nat.sub_le r 1)
  have hnext : (units r : ℚ) < units (r + 1) := by exact_mod_cast units_lt_succ r
  refine ⟨by linarith, by linarith, ?_⟩
  rintro (hequal | hequal)
  · have hself : units (r - 1) = units r := by
      exact_mod_cast (show (units (r - 1) : ℚ) = units r by linarith)
    have := units_strictMono.injective hself
    omega
  · linarith

/-- What is nearest to a number is not below the ranks whose values are not above the number. -/
theorem Nearest.rank_le {r q : Nat} {n : ℚ} (h : Nearest r n) (hq : units q ≤ n) : q ≤ r := by
  by_contra hlt
  have hself : (units r : ℚ) < units q := by exact_mod_cast units_strictMono (Nat.lt_of_not_le hlt)
  have hnext : (units (r + 1) : ℚ) ≤ units q := by
    exact_mod_cast units_strictMono.monotone (Nat.lt_of_not_le hlt)
  have hhigh := h.high
  linarith

section

variable {num den : Nat} (hden : 0 < den)

include hden

theorem two_mul_fraction_le_iff {a : Nat} :
    2 * (num * unitsPerOne / den : ℚ) ≤ a ↔ 2 * (num * unitsPerOne) ≤ den * a := by
  have hden' : (0 : ℚ) < den := Nat.cast_pos.2 hden
  rw [← mul_div_assoc, div_le_iff₀ hden', mul_comm (a : ℚ)]
  exact_mod_cast Iff.rfl

theorem le_two_mul_fraction_iff {a : Nat} :
    (a : ℚ) ≤ 2 * (num * unitsPerOne / den) ↔ den * a ≤ 2 * (num * unitsPerOne) := by
  have hden' : (0 : ℚ) < den := Nat.cast_pos.2 hden
  rw [← mul_div_assoc, le_div_iff₀ hden', mul_comm (a : ℚ)]
  exact_mod_cast Iff.rfl

theorem two_mul_fraction_eq_iff {a : Nat} :
    2 * (num * unitsPerOne / den : ℚ) = a ↔ 2 * (num * unitsPerOne) = den * a := by
  rw [le_antisymm_iff, two_mul_fraction_le_iff hden, le_two_mul_fraction_iff hden,
    ← le_antisymm_iff]

/-- **What a fraction is rounded to is nearest to it**, unless it is infinity. -/
theorem nearest_nearestRank (h : nearestRank num den < infiniteRank) :
    Nearest (nearestRank num den) (num * unitsPerOne / den) := by
  obtain ⟨low, hlow, hhigh, ⟨-, hrank⟩ | ⟨-, hrank, hmiddle, heven⟩ | ⟨-, hrank, hmiddle, hodd⟩⟩ :=
    nearestRank_cases num hden
  · exact absurd (hrank ▸ h) (lt_irrefl _)
  · rw [hrank]
    have hbelow : units (low - 1) ≤ units low := units_strictMono.monotone (Nat.sub_le low 1)
    have hstep := Nat.mul_le_mul_left den hbelow
    constructor
    · rw [← Nat.cast_add, le_two_mul_fraction_iff hden, Nat.mul_add]
      omega
    · rw [← Nat.cast_add, two_mul_fraction_le_iff hden]
      exact hmiddle
    · rw [← Nat.cast_add, ← Nat.cast_add, two_mul_fraction_eq_iff hden,
        two_mul_fraction_eq_iff hden]
      rintro (hequal | hequal)
      · -- it is not half way from below unless there is no rank below
        rcases Nat.eq_zero_or_pos low with rfl | hpos
        · rfl
        · have hlt := Nat.mul_lt_mul_of_pos_left (units_lt_succ (low - 1)) hden
          rw [Nat.sub_add_cancel hpos] at hlt
          rw [Nat.mul_add] at hequal
          omega
      · exact heven hequal
  · rw [hrank]
    have hnext := Nat.mul_lt_mul_of_pos_left (units_lt_succ (low + 1)) hden
    constructor
    · rw [← Nat.cast_add, le_two_mul_fraction_iff hden, Nat.add_sub_cancel]
      exact hmiddle
    · rw [← Nat.cast_add, two_mul_fraction_le_iff hden, Nat.mul_add]
      omega
    · rw [← Nat.cast_add, ← Nat.cast_add, two_mul_fraction_eq_iff hden,
        two_mul_fraction_eq_iff hden, Nat.add_sub_cancel]
      rintro (hequal | hequal)
      · have := hodd hequal
        omega
      · rw [Nat.mul_add] at hequal
        omega

/-- **A fraction is rounded to the rank that is nearest to it.** -/
theorem nearestRank_of_nearest {r : Nat} (hr : r < infiniteRank)
    (h : Nearest r (num * unitsPerOne / den)) : nearestRank num den = r := by
  refine (nearest_nearestRank hden (nearestRank_lt_infinite hden ?_)).unique h
  -- the last finite rank is odd, and nothing half way past it is nearest to it
  have hhigh := h.high
  have heven := h.even
  rw [← Nat.cast_add, two_mul_fraction_le_iff hden] at hhigh
  rw [← Nat.cast_add, ← Nat.cast_add, two_mul_fraction_eq_iff hden,
    two_mul_fraction_eq_iff hden] at heven
  rcases Nat.lt_or_ge (r + 1) infiniteRank with hlt | hge
  · refine hhigh.trans_lt (Nat.mul_lt_mul_of_pos_left ?_ hden)
    exact Nat.add_lt_add_of_le_of_lt (units_strictMono.monotone (Nat.le_sub_one_of_lt hr))
      (units_strictMono hlt)
  · have hself : r + 1 = infiniteRank := le_antisymm hr hge
    have hlast : infiniteRank - 1 = r := by omega
    have hodd : infiniteRank % 2 = 0 := by decide
    rw [hlast, ← hself]
    refine lt_of_le_of_ne hhigh fun hequal => ?_
    have := heven (.inr hequal)
    omega

end

/-- **Less than one part in `10 ^ 16` is less than half a step**, on either side. -/
theorem nearest_of_close {r : Nat} (hr : 0 < r) {n : ℚ}
    (hlow : units r ≤ n + units r / (2 * 10 ^ 16)) (hhigh : n ≤ units r + units r / (2 * 10 ^ 16)) :
    Nearest r n := by
  have hpos : (0 : ℚ) < units r := by
    have hzero := mt Binary64.units_eq_zero_iff.1 hr.ne'
    exact_mod_cast Nat.pos_of_ne_zero hzero
  have hoctave : (2 * octave + 1 : ℚ) < 10 ^ 16 := by
    exact_mod_cast (show 2 * octave + 1 < 10 ^ 16 by decide)
  have hbelow : (units (r - 1) : ℚ) + units r / 10 ^ 16 < units r := by
    have hstep : ((2 * octave + 1) * units (r - 1) : ℚ) ≤ 2 * octave * units r := by
      have h := units_le_units_succ (r - 1)
      rw [Nat.sub_add_cancel hr] at h
      exact_mod_cast h
    have hoctave' : (0 : ℚ) < 2 * octave + 1 := by positivity
    have hpart : (units r : ℚ) / 10 ^ 16 < units r / (2 * octave + 1) :=
      div_lt_div_of_pos_left hpos hoctave' hoctave
    have hwhole : (units (r - 1) : ℚ) + units r / (2 * octave + 1) ≤ units r := by
      rw [← le_sub_iff_add_le', div_le_iff₀ hoctave']
      linarith
    linarith
  have habove : (units r : ℚ) + units r / 10 ^ 16 < units (r + 1) := by
    have hstep : ((2 * octave + 1) * units r : ℚ) ≤ 2 * octave * units (r + 1) := by
      exact_mod_cast units_le_units_succ r
    have hoctave' : (0 : ℚ) < 2 * octave := by
      have := octave_pos
      positivity
    have hpart : (units r : ℚ) / 10 ^ 16 < units r / (2 * octave) :=
      div_lt_div_of_pos_left hpos hoctave' (by linarith)
    have hwhole : (units r : ℚ) + units r / (2 * octave) ≤ units (r + 1) := by
      rw [← le_sub_iff_add_le', div_le_iff₀ hoctave']
      linarith
    linarith
  refine ⟨by linarith, by linarith, ?_⟩
  rintro (hequal | hequal)
  · linarith
  · linarith

end Telemetry
