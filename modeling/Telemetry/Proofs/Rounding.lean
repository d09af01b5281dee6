import Mathlib
import Telemetry.Proofs.Ranks

/-!
# How far rounding goes

A fraction lies between the values of two neighbouring ranks and is rounded to one of them. What
is needed of that here is on the side of the large numbers: a fraction stays finite as long as it
is less than half a step past the greatest finite double, and rounding makes it larger by at most
one part in `2 ^ 53`. So a product of two rounded numbers stays finite if the exact product leaves
room for three such steps.

* `units_floorRank_le`, `lt_units_floorRank`: the neighbours of a number of units;
* `nearestRank_lt_infinite`: which fractions are rounded to finite ranks;
* `units_nearestRank_le`: how much larger a fraction becomes;
* `Binary64.isInfinite_mul_ofNat`: a product of natural numbers.
-/

namespace Telemetry

theorem units_strictMono : StrictMono units := strictMono_nat_of_lt_succ units_lt_succ

/-! ### Neighbours -/

/-- Within an octave the steps are small: a value is at least `octave` times the step to the
next. -/
theorem octave_mul_units_succ_le {r : Nat} (hr : octave ≤ r) :
    octave * units (r + 1) ≤ (octave + 1) * units r := by
  rcases rank_cases r with hlt | ⟨e, f, hf, rfl⟩
  · exact absurd hlt (Nat.not_lt.2 hr)
  · rw [units_octave_succ e f hf, units_octave e f hf, ← Nat.mul_assoc, ← Nat.mul_assoc]
    refine Nat.mul_le_mul_right _ ?_
    have hf' : octave * (octave + f + 1) = octave * (octave + f) + octave := Nat.mul_succ _ _
    have hstep : (octave + 1) * (octave + f) = octave * (octave + f) + (octave + f) :=
      Nat.succ_mul _ _
    omega

/-- And steps are not too small: a value is at most `2 * octave` times the step to the next. -/
theorem units_le_units_succ (r : Nat) :
    (2 * octave + 1) * units r ≤ 2 * octave * units (r + 1) := by
  rcases rank_cases r with hlt | ⟨e, f, hf, rfl⟩
  · have hunits := units_of_lt hlt
    have hnext : r + 1 ≤ units (r + 1) := by
      have hlt := units_lt_succ r
      omega
    have hstep := Nat.mul_le_mul_left (2 * octave) hnext
    rw [hunits, Nat.succ_mul]
    rw [Nat.mul_succ] at hstep
    omega
  · rw [units_octave_succ e f hf, units_octave e f hf, ← Nat.mul_assoc, ← Nat.mul_assoc]
    refine Nat.mul_le_mul_right _ ?_
    rw [Nat.succ_mul, Nat.mul_succ]
    omega

/-- A number of units from the first octave on: the leading digits, and the place they are at. -/
theorem floorRank_of_le {n : Nat} (hn : octave ≤ n) :
    ∃ e f, f < octave ∧ floorRank n = (e + 1) * octave + f ∧
      (octave + f) * Nat.pow 2 e ≤ n ∧ n < (octave + f + 1) * Nat.pow 2 e := by
  have hoctave : octave = 2 ^ 52 := rfl
  have hpos : n ≠ 0 := by
    have := octave_pos
    omega
  have hlog : 52 ≤ n.log2 := (Nat.le_log2 hpos).2 hn
  obtain ⟨e, he⟩ : ∃ e, n.log2 = 52 + e := ⟨n.log2 - 52, by omega⟩
  have hlow : octave * 2 ^ e ≤ n := by
    rw [hoctave, ← Nat.pow_add, ← he]
    exact Nat.log2_self_le hpos
  have hhigh : n < 2 * octave * 2 ^ e := by
    have hlt := Nat.lt_log2_self (n := n)
    rw [he, show 52 + e + 1 = 53 + e by omega, Nat.pow_add] at hlt
    exact hlt
  have hdigits : octave ≤ n / 2 ^ e := (Nat.le_div_iff_mul_le (Nat.two_pow_pos e)).2 hlow
  have hdigits' : n / 2 ^ e < 2 * octave := (Nat.div_lt_iff_lt_mul (Nat.two_pow_pos e)).2 hhigh
  have hdiv := Nat.div_add_mod n (2 ^ e)
  have hmod := Nat.mod_lt n (Nat.two_pow_pos e)
  refine ⟨e, n / 2 ^ e - octave, by omega, ?_, ?_, ?_⟩
  · rw [floorRank, he, Nat.add_sub_cancel_left, Nat.succ_mul]
    show e * octave + n / 2 ^ e = _
    omega
  · rw [Nat.add_sub_cancel' hdigits]
    exact Nat.div_mul_le_self n (2 ^ e)
  · rw [Nat.add_sub_cancel' hdigits]
    show n < (n / 2 ^ e + 1) * 2 ^ e
    rw [Nat.succ_mul, Nat.mul_comm (n / 2 ^ e)]
    omega

/-- Below the first octave every number of units is a rank. -/
theorem floorRank_of_lt {n : Nat} (hn : n < octave) : floorRank n = n := by
  have hback := floorRank_units n
  rwa [units_of_lt hn] at hback

/-- **The rank found for a number of units** is not past it, -/
theorem units_floorRank_le (n : Nat) : units (floorRank n) ≤ n := by
  by_cases hn : n < octave
  · rw [floorRank_of_lt hn]
    exact (units_of_lt hn).le
  · obtain ⟨e, f, hf, hrank, hle, -⟩ := floorRank_of_le (Nat.not_lt.1 hn)
    rwa [hrank, units_octave e f hf]

/-- and the next one is. -/
theorem lt_units_floorRank (n : Nat) : n < units (floorRank n + 1) := by
  by_cases hn : n < octave
  · rw [floorRank_of_lt hn]
    exact (units_of_lt hn).symm.trans_lt (units_lt_succ n)
  · obtain ⟨e, f, hf, hrank, -, hlt⟩ := floorRank_of_le (Nat.not_lt.1 hn)
    rwa [hrank, units_octave_succ e f hf]

/-! ### Fractions -/

section

variable {num den : Nat} (hden : 0 < den)

include hden

variable (num) in
/-- A fraction is rounded to its lower neighbour or to the upper one, whichever is not farther, and
to the even one if neither is, or to infinity. -/
theorem nearestRank_cases :
    ∃ low, den * units low ≤ num * unitsPerOne ∧ num * unitsPerOne < den * units (low + 1) ∧
      (infiniteRank ≤ low ∧ nearestRank num den = infiniteRank ∨
        low < infiniteRank ∧ nearestRank num den = low ∧
          2 * (num * unitsPerOne) ≤ den * (units low + units (low + 1)) ∧
          (2 * (num * unitsPerOne) = den * (units low + units (low + 1)) → low % 2 = 0) ∨
        low < infiniteRank ∧ nearestRank num den = low + 1 ∧
          den * (units low + units (low + 1)) ≤ 2 * (num * unitsPerOne) ∧
          (2 * (num * unitsPerOne) = den * (units low + units (low + 1)) → low % 2 = 1)) := by
  refine ⟨floorRank (num * unitsPerOne / den), ?_, ?_, ?_⟩
  · rw [Nat.mul_comm]
    exact (Nat.le_div_iff_mul_le hden).1 (units_floorRank_le _)
  · rw [Nat.mul_comm den]
    exact (Nat.div_lt_iff_lt_mul hden).1 (lt_units_floorRank _)
  · unfold nearestRank
    simp only
    generalize floorRank (num * unitsPerOne / den) = low
    split_ifs with hinf hlt hgt heven
    · exact .inl ⟨hinf, rfl⟩
    · exact .inr (.inl ⟨Nat.not_le.1 hinf, rfl, hlt.le, fun h => absurd h hlt.ne⟩)
    · exact .inr (.inr ⟨Nat.not_le.1 hinf, rfl, hgt.le, fun h => absurd h.symm hgt.ne⟩)
    · exact .inr (.inl ⟨Nat.not_le.1 hinf, rfl, Nat.not_lt.1 hgt, fun _ => heven⟩)
    · exact .inr (.inr ⟨Nat.not_le.1 hinf, rfl, Nat.not_lt.1 hlt, fun _ => by omega⟩)

/-- **A fraction stays finite** if it is less than half a step past the greatest finite double. -/
theorem nearestRank_lt_infinite
    (h : 2 * (num * unitsPerOne) < den * (units (infiniteRank - 1) + units infiniteRank)) :
    nearestRank num den < infiniteRank := by
  have hpos : 0 < infiniteRank := by decide
  obtain ⟨low, hlow, -, ⟨hinf, -⟩ | ⟨hlt, hrank, -⟩ | ⟨hlt, hrank, hmiddle, -⟩⟩ :=
    nearestRank_cases num hden
  · -- so far past the end is no fraction that small
    exfalso
    have hle : den * units infiniteRank ≤ num * unitsPerOne :=
      (Nat.mul_le_mul_left den (units_strictMono.monotone hinf)).trans hlow
    have hlast : den * units (infiniteRank - 1) ≤ den * units infiniteRank :=
      Nat.mul_le_mul_left den (units_strictMono.monotone (Nat.sub_le ..))
    rw [Nat.mul_add] at h
    omega
  · rwa [hrank]
  · rw [hrank]
    refine lt_of_le_of_ne hlt fun hinf => ?_
    rw [← hinf, Nat.add_sub_cancel] at h
    exact absurd h (Nat.not_lt.2 hmiddle)

/-- **Rounding makes a fraction larger** by at most one part in `2 * octave`, unless the fraction
is very small. -/
theorem units_nearestRank_le (h : den * units octave ≤ num * unitsPerOne) :
    2 * octave * (den * units (nearestRank num den)) ≤
      (2 * octave + 1) * (num * unitsPerOne) := by
  obtain ⟨low, hlow, hhigh, hcases⟩ := nearestRank_cases num hden
  have hdown : ∀ {r}, den * units r ≤ num * unitsPerOne →
      2 * octave * (den * units r) ≤ (2 * octave + 1) * (num * unitsPerOne) := fun hr =>
    (Nat.mul_le_mul_left _ hr).trans (Nat.mul_le_mul_right _ (Nat.le_succ _))
  rcases hcases with ⟨hinf, hrank⟩ | ⟨-, hrank, -⟩ | ⟨-, hrank, hmiddle, -⟩
  · rw [hrank]
    exact hdown ((Nat.mul_le_mul_left den (units_strictMono.monotone hinf)).trans hlow)
  · rw [hrank]
    exact hdown hlow
  · have hoctave : octave ≤ low := by
      have hlt : units octave < units (low + 1) :=
        Nat.lt_of_mul_lt_mul_left (h.trans_lt hhigh)
      exact Nat.le_of_lt_succ (units_strictMono.lt_iff_lt.1 hlt)
    have hstep := Nat.mul_le_mul_left den (octave_mul_units_succ_le hoctave)
    rw [hrank]
    -- twice the fraction is past the middle, and half a step is little of the lower neighbour
    have hmiddle' := Nat.mul_le_mul_left octave hmiddle
    linarith

end

/-! ### Products of natural numbers -/

/-- A positive natural number is rounded to a finite rank if it is not too large, and becomes
little larger. -/
theorem nearestRank_natCast {n : Nat} (hn : 0 < n)
    (h : 2 * (n * unitsPerOne) < units (infiniteRank - 1) + units infiniteRank) :
    nearestRank n 1 < infiniteRank ∧
      2 * octave * units (nearestRank n 1) ≤ (2 * octave + 1) * (n * unitsPerOne) := by
  have hone : units octave ≤ unitsPerOne := by decide +kernel
  have hsmall : 1 * units octave ≤ n * unitsPerOne := by
    rw [Nat.one_mul]
    exact hone.trans (Nat.le_mul_of_pos_left unitsPerOne hn)
  have hround := units_nearestRank_le Nat.one_pos hsmall
  rw [Nat.one_mul] at hround
  exact ⟨nearestRank_lt_infinite Nat.one_pos (h.trans_eq (Nat.one_mul _).symm), hround⟩

namespace Binary64

/-- A fraction is infinite only if its rank is. -/
theorem isInfinite_ofFraction {s : Bool} {num den : Nat} (h : nearestRank num den < infiniteRank) :
    (ofFraction s num den).isInfinite = false := by
  have hrank : (Rank.clamp (nearestRank num den)).val = nearestRank num den :=
    Nat.min_eq_left h.le
  rw [ofFraction, isInfinite, hrank, beq_eq_false_iff_ne]
  exact h.ne

/-- **A product of natural numbers stays finite** if there is room for what three roundings add:
that of either factor, and that of the product. -/
theorem isInfinite_mul_ofNat {m n : Nat} (hm : 0 < m) (hn : 0 < n)
    (h : (2 * octave + 1) ^ 2 * (2 * (m * n * unitsPerOne)) <
      (2 * octave) ^ 2 * (units (infiniteRank - 1) + units infiniteRank)) :
    ((ofNat m).mul (ofNat n)).isInfinite = false := by
  have hroom : 2 * (m * n * unitsPerOne) < units (infiniteRank - 1) + units infiniteRank := by
    refine Nat.lt_of_mul_lt_mul_left (lt_of_le_of_lt (Nat.mul_le_mul_right _ ?_) h)
    exact Nat.pow_le_pow_left (Nat.le_succ _) 2
  have hle : ∀ k, k ≤ m * n →
      2 * (k * unitsPerOne) < units (infiniteRank - 1) + units infiniteRank := fun k hk =>
    lt_of_le_of_lt (Nat.mul_le_mul_left 2 (Nat.mul_le_mul_right _ hk)) hroom
  obtain ⟨hmfinite, hmround⟩ := nearestRank_natCast hm (hle m (Nat.le_mul_of_pos_right m hn))
  obtain ⟨hnfinite, hnround⟩ := nearestRank_natCast hn (hle n (Nat.le_mul_of_pos_left n hm))
  have hmul : (ofNat m).mul (ofNat n) = ofFraction false
      (units (nearestRank m 1) * units (nearestRank n 1)) (unitsPerOne * unitsPerOne) := by
    have hmrank : (Rank.clamp (nearestRank m 1)).val = nearestRank m 1 :=
      Nat.min_eq_left hmfinite.le
    have hnrank : (Rank.clamp (nearestRank n 1)).val = nearestRank n 1 :=
      Nat.min_eq_left hnfinite.le
    simp only [ofNat, ofFraction, mul, hmrank, hnrank, hmfinite.ne, hnfinite.ne, or_self,
      if_false]
    rfl
  rw [hmul]
  refine isInfinite_ofFraction (nearestRank_lt_infinite
    (Nat.mul_pos unitsPerOne_pos unitsPerOne_pos) ?_)
  generalize units (nearestRank m 1) = a at *
  generalize units (nearestRank n 1) = b at *
  generalize units (infiniteRank - 1) + units infiniteRank = most at *
  have hone := unitsPerOne_pos
  generalize unitsPerOne = one at *
  generalize 2 * octave = c at *
  have hprod : (c * a) * (c * b) ≤ ((c + 1) * (m * one)) * ((c + 1) * (n * one)) :=
    Nat.mul_le_mul hmround hnround
  have hscaled : c ^ 2 * (2 * (a * b * one)) < c ^ 2 * (one * one * most) := by
    calc c ^ 2 * (2 * (a * b * one)) = (c * a) * (c * b) * (2 * one) := by ring
      _ ≤ ((c + 1) * (m * one)) * ((c + 1) * (n * one)) * (2 * one) :=
        Nat.mul_le_mul_right _ hprod
      _ = ((c + 1) ^ 2 * (2 * (m * n * one))) * (one * one) := by ring
      _ < (c ^ 2 * most) * (one * one) :=
        Nat.mul_lt_mul_of_pos_right h (Nat.mul_pos hone hone)
      _ = c ^ 2 * (one * one * most) := by ring
  exact Nat.lt_of_mul_lt_mul_left hscaled

end Binary64

end Telemetry
