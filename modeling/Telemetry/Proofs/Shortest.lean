import Mathlib
import Telemetry.Number.Decimal
import Telemetry.Proofs.Nearest

/-!
# The shortest decimal

The decimal that is written for a double has at most seventeen digits, and the double is nearest to
it. For the decimals that round to the double this is what rounding to it means. For the one that is
taken where none of them does it follows from the place of its last digit: half a step of a grid of
seventeen digits is less than half a step between doubles. How large the decimal can be is a matter
of the double being nearest to it.

* `Decimal.value`: the number that a decimal is;
* `magnitude_spec`: the power of ten above a number of units;
* `roundsTo_iff`: the decimals that round to a double are those to which it is nearest;
* `Decimal.Near`: what is known of a decimal that is written for a double;
* `Decimal.near_shortest`: the decimal that is written.
-/

namespace Telemetry

/-! ### Digits -/

/-- How many digits a number has. -/
theorem digitCount_spec (n : Nat) :
    ∃ k, digitCount n = k + 1 ∧ n < 10 ^ (k + 1) ∧ (0 < n → 10 ^ k ≤ n) := by
  have hpos : 0 < digitCount n := Nat.length_toDigits_pos
  obtain ⟨k, hk⟩ : ∃ k, digitCount n = k + 1 := ⟨digitCount n - 1, by omega⟩
  refine ⟨k, hk, (Nat.length_toDigits_le_iff (by decide) (Nat.succ_pos k)).1 hk.le, fun hn => ?_⟩
  cases k with
  | zero => exact hn
  | succ k =>
    refine Nat.not_lt.1 fun hlt => ?_
    have hle := (Nat.length_toDigits_le_iff (by decide) (Nat.succ_pos k)).2 hlt
    rw [← digitCount, hk] at hle
    omega

/-- The zeros at the end of a numeral are powers of ten in the number. -/
theorem pow_zeros_dvd (n : Nat) :
    10 ^ ((Nat.toDigits 10 n).reverse.takeWhile (· == '0')).length ∣ n := by
  induction n using Nat.strong_induction_on with
  | _ n ih =>
    by_cases hlt : n < 10
    · rw [Nat.toDigits_of_lt_base hlt]
      rcases Nat.eq_zero_or_pos n with rfl | hpos
      · exact dvd_zero _
      · have hdigit : ∀ d < 10, 0 < d → (Nat.digitChar d == '0') = false := by decide
        simp [hdigit n hlt hpos]
    · rw [Nat.toDigits_of_base_le (by decide) (by omega), List.reverse_append,
        List.reverse_singleton, List.singleton_append]
      by_cases hzero : n % 10 = 0
      · rw [hzero, List.takeWhile_cons_of_pos (by decide), List.length_cons, Nat.pow_succ]
        have hdvd := Nat.mul_dvd_mul_right (ih (n / 10) (by omega)) 10
        rwa [Nat.div_mul_cancel (Nat.dvd_of_mod_eq_zero hzero)] at hdvd
      · have hdigit : ∀ d < 10, d ≠ 0 → (Nat.digitChar d == '0') = false := by decide
        rw [List.takeWhile_cons_of_neg (by
          rw [hdigit _ (Nat.mod_lt n (by decide)) hzero]
          decide)]
        exact one_dvd _

/-! ### Powers of ten -/

/-- A power of ten as a fraction of two natural numbers, as it is worked with. -/
theorem ten_zpow_mul (e : Int) : (10 : ℚ) ^ e * 10 ^ (-e).toNat = 10 ^ e.toNat := by
  rcases le_total 0 e with he | he
  · obtain ⟨k, rfl⟩ := Int.eq_ofNat_of_zero_le he
    simp
  · obtain ⟨k, hk⟩ := Int.eq_ofNat_of_zero_le (Int.neg_nonneg.2 he)
    obtain rfl : e = -(k : Int) := by omega
    simp

theorem ten_zpow_pos (e : Int) : (0 : ℚ) < 10 ^ e := zpow_pos (by norm_num) e

namespace Decimal

/-- **The number that a decimal is.** -/
def value (d : Decimal) : ℚ := d.significand * 10 ^ d.exponent

/-- Without the zeros at its end a decimal is the same number, its digits are no more, and its last
one counts no less. -/
theorem normalize_spec {d : Decimal} (hd : 0 < d.significand) :
    d.normalize.value = d.value ∧ 0 < d.normalize.significand ∧
      d.normalize.significand ≤ d.significand ∧ d.exponent ≤ d.normalize.exponent := by
  have hdvd := pow_zeros_dvd d.significand
  have hnormalize : d.normalize =
      ⟨d.significand / 10 ^ ((Nat.toDigits 10 d.significand).reverse.takeWhile (· == '0')).length,
        d.exponent + ((Nat.toDigits 10 d.significand).reverse.takeWhile (· == '0')).length⟩ :=
    if_neg hd.ne'
  rw [hnormalize]
  generalize ((Nat.toDigits 10 d.significand).reverse.takeWhile (· == '0')).length = zeros at *
  obtain ⟨m, hm⟩ := hdvd
  have hquotient : d.significand / 10 ^ zeros = m := by
    rw [hm, Nat.mul_div_cancel_left _ (Nat.pow_pos (by decide))]
  refine ⟨?_, ?_, Nat.div_le_self .., by simp⟩
  · simp only [value, hquotient]
    rw [hm, zpow_add₀ (by norm_num), zpow_natCast]
    push_cast
    ring
  · simp only [hquotient]
    refine Nat.pos_of_ne_zero fun hzero => hd.ne' ?_
    rw [hm, hzero, Nat.mul_zero]

/-! ### The place of the first digit -/

/-- **The power of ten just above a number of units.** -/
theorem magnitude_spec {u : Nat} (hu : 0 < u) :
    (10 : ℚ) ^ (magnitude u - 1) * unitsPerOne ≤ u ∧ (u : ℚ) < 10 ^ magnitude u * unitsPerOne := by
  have hone := unitsPerOne_pos
  by_cases hle : unitsPerOne ≤ u
  · obtain ⟨k, hk, hlt, hge⟩ := digitCount_spec (u / unitsPerOne)
    have hmagnitude : magnitude u = k + 1 := by
      rw [magnitude, if_pos hle, hk]
      rfl
    have hlow : 10 ^ k * unitsPerOne ≤ u :=
      (Nat.le_div_iff_mul_le hone).1 (hge (Nat.div_pos hle hone))
    have hhigh : u < 10 ^ (k + 1) * unitsPerOne := (Nat.div_lt_iff_lt_mul hone).1 hlt
    rw [hmagnitude, Int.add_sub_cancel]
    exact ⟨by exact_mod_cast hlow, by exact_mod_cast hhigh⟩
  · obtain ⟨k, hk, hlt, hge⟩ := digitCount_spec ((unitsPerOne - 1) / u)
    have hmagnitude : magnitude u = -(k : Int) := by
      rw [magnitude, if_neg hle, hk]
      push_cast
      ring
    have hlow : 10 ^ k * u ≤ unitsPerOne - 1 :=
      (Nat.le_div_iff_mul_le hu).1 (hge (Nat.div_pos (by omega) hu))
    have hhigh : unitsPerOne - 1 < 10 ^ (k + 1) * u := (Nat.div_lt_iff_lt_mul hu).1 hlt
    have hlow' : (10 : ℚ) ^ k * u < unitsPerOne := by
      exact_mod_cast (show 10 ^ k * u < unitsPerOne by omega)
    have hhigh' : (unitsPerOne : ℚ) ≤ 10 ^ (k + 1) * u := by
      exact_mod_cast (show unitsPerOne ≤ 10 ^ (k + 1) * u by omega)
    have hexponent : -(k : Int) - 1 = -((k + 1 : Nat) : Int) := by
      push_cast
      ring
    rw [hmagnitude, hexponent, zpow_neg, zpow_neg, zpow_natCast, zpow_natCast]
    constructor
    · rwa [inv_mul_le_iff₀ (by positivity)]
    · rwa [lt_inv_mul_iff₀ (by positivity)]

/-- No double is so small that its first digit is beyond this place. -/
theorem lt_magnitude {u : Nat} (hu : 0 < u) : -324 < magnitude u := by
  by_contra hle
  obtain ⟨-, hlt⟩ := magnitude_spec hu
  have hpow : (10 : ℚ) ^ magnitude u ≤ 10 ^ (-324 : Int) :=
    zpow_le_zpow_right₀ (by norm_num) (Int.not_lt.1 hle)
  have hone : (unitsPerOne : ℚ) < 10 ^ 324 := by
    exact_mod_cast (show unitsPerOne < 10 ^ 324 by decide +kernel)
  have hsmall : (10 : ℚ) ^ (-324 : Int) * unitsPerOne < 1 := by
    rw [zpow_neg, inv_mul_lt_one₀ (by positivity)]
    exact hone
  have hu' : (1 : ℚ) ≤ u := by exact_mod_cast hu
  have := mul_le_mul_of_nonneg_right hpow (Nat.cast_nonneg unitsPerOne : (0 : ℚ) ≤ unitsPerOne)
  linarith

/-! ### The grid of a number of digits -/

section

variable (u n : Nat)

/-- The spacing of the grid on which a number of units has `n` digits, in units. -/
def spacing : ℚ := 10 ^ (magnitude u - n) * unitsPerOne

theorem spacing_pos : 0 < spacing u n :=
  mul_pos (ten_zpow_pos _) (Nat.cast_pos.2 unitsPerOne_pos)

/-- **The next point of the grid below.** -/
theorem below_spec :
    ((below u n).significand : ℚ) * spacing u n ≤ u ∧
      (u : ℚ) < ((below u n).significand + 1) * spacing u n := by
  have hbelow : (below u n).significand = u * 10 ^ (-(magnitude u - n)).toNat /
      (unitsPerOne * 10 ^ (magnitude u - n).toNat) := rfl
  have hpow := ten_zpow_mul (magnitude u - n)
  have hspacing := spacing_pos u n
  rw [hbelow]
  unfold spacing at *
  generalize magnitude u - n = e at *
  have hden : 0 < unitsPerOne * 10 ^ e.toNat :=
    Nat.mul_pos unitsPerOne_pos (Nat.pow_pos (by decide))
  have hle := Nat.div_mul_le_self (u * 10 ^ (-e).toNat) (unitsPerOne * 10 ^ e.toNat)
  have hlt := Nat.lt_div_mul_add hden (a := u * 10 ^ (-e).toNat)
  generalize u * 10 ^ (-e).toNat / (unitsPerOne * 10 ^ e.toNat) = s at *
  have hle' : (s : ℚ) * (unitsPerOne * 10 ^ e.toNat) ≤ u * 10 ^ (-e).toNat := by exact_mod_cast hle
  have hlt' : (u : ℚ) * 10 ^ (-e).toNat < s * (unitsPerOne * 10 ^ e.toNat) +
      unitsPerOne * 10 ^ e.toNat := by exact_mod_cast hlt
  have hscale : (0 : ℚ) < 10 ^ (-e).toNat := by positivity
  rw [← hpow] at hle' hlt'
  constructor
  · refine le_of_mul_le_mul_right ?_ hscale
    linarith
  · refine lt_of_mul_lt_mul_right ?_ hscale.le
    linarith

end

/-- The place of the first digit, counted in steps of the grid. -/
theorem ten_pow_mul_spacing (u n k : Nat) :
    10 ^ k * spacing u (n + 1) = (10 : ℚ) ^ (magnitude u - 1 - n + k) * unitsPerOne := by
  have hexponent : magnitude u - (n + 1 : Nat) = magnitude u - 1 - n := by
    push_cast
    ring
  rw [spacing, hexponent, zpow_add₀ (by norm_num) _ (k : Int), zpow_natCast]
  ring

/-- The more digits a grid has, the finer it is. -/
theorem ten_pow_mul_spacing_le {u : Nat} (hu : 0 < u) (n : Nat) :
    10 ^ n * spacing u (n + 1) ≤ u := by
  rw [ten_pow_mul_spacing, Int.sub_add_cancel]
  exact (magnitude_spec hu).1

/-- The point of a grid below has as many digits as the grid. -/
theorem significand_below {u : Nat} (hu : 0 < u) (n : Nat) :
    0 < (below u (n + 1)).significand ∧ (below u (n + 1)).significand < 10 ^ (n + 1) := by
  obtain ⟨hle, hlt⟩ := below_spec u (n + 1)
  have hspacing := spacing_pos u (n + 1)
  constructor
  · have hfirst : spacing u (n + 1) ≤ u :=
      (le_mul_of_one_le_left hspacing.le (one_le_pow₀ (by norm_num))).trans
        (ten_pow_mul_spacing_le hu n)
    by_contra hzero
    rw [Nat.eq_zero_of_not_pos hzero, Nat.cast_zero, zero_add, one_mul] at hlt
    exact absurd hlt (not_lt.2 hfirst)
  · have hplace : 10 ^ (n + 1) * spacing u (n + 1) = (10 : ℚ) ^ magnitude u * unitsPerOne := by
      have hexponent : magnitude u - 1 - n + (n + 1 : Nat) = magnitude u := by
        push_cast
        ring
      rw [ten_pow_mul_spacing, hexponent]
    have hbelow : ((below u (n + 1)).significand : ℚ) * spacing u (n + 1) <
        10 ^ (n + 1) * spacing u (n + 1) := by
      rw [hplace]
      exact hle.trans_lt (magnitude_spec hu).2
    exact_mod_cast lt_of_mul_lt_mul_right hbelow hspacing.le

/-- The point of the grid above another one. -/
def above (d : Decimal) : Decimal := ⟨d.significand + 1, d.exponent⟩

/-- **The nearer one of two points** of a grid: neither is taken if it is more than half a step
away. -/
theorem nearer_cases (u : Nat) (d : Decimal) :
    nearer u d = d ∧
      (2 * u : ℚ) ≤ (2 * d.significand + 1) * (10 ^ d.exponent * unitsPerOne) ∨
    nearer u d = d.above ∧
      (2 * d.significand + 1) * (10 ^ d.exponent * unitsPerOne) ≤ (2 * u : ℚ) := by
  have hscale : (0 : ℚ) < 10 ^ (-d.exponent).toNat := by positivity
  have hself : ((2 * d.significand + 1) * unitsPerOne * 10 ^ d.exponent.toNat : ℚ) =
      (2 * d.significand + 1) * (10 ^ d.exponent * unitsPerOne) * 10 ^ (-d.exponent).toNat := by
    rw [← ten_zpow_mul d.exponent]
    ring
  have hupper : ¬2 * u * 10 ^ (-d.exponent).toNat <
        (2 * d.significand + 1) * unitsPerOne * 10 ^ d.exponent.toNat →
      (2 * d.significand + 1) * (10 ^ d.exponent * unitsPerOne) ≤ (2 * u : ℚ) := by
    intro h
    refine le_of_mul_le_mul_right ?_ hscale
    rw [← hself]
    exact_mod_cast Nat.not_lt.1 h
  have hlower : ¬(2 * d.significand + 1) * unitsPerOne * 10 ^ d.exponent.toNat <
        2 * u * 10 ^ (-d.exponent).toNat →
      (2 * u : ℚ) ≤ (2 * d.significand + 1) * (10 ^ d.exponent * unitsPerOne) := by
    intro h
    refine le_of_mul_le_mul_right ?_ hscale
    rw [← hself]
    exact_mod_cast Nat.not_lt.1 h
  unfold nearer
  simp only
  split_ifs with hlt hgt heven
  · exact .inl ⟨rfl, hlower (Nat.not_lt.2 hlt.le)⟩
  · exact .inr ⟨rfl, hupper hlt⟩
  · exact .inl ⟨rfl, hlower hgt⟩
  · exact .inr ⟨rfl, hupper hlt⟩

/-- **The decimals that round to a rank** are those to which it is nearest. -/
theorem roundsTo_iff (r : Nat) (d : Decimal) :
    roundsTo r d = true ↔ Nearest r (d.value * unitsPerOne) := by
  have hscale : (0 : ℚ) < 10 ^ (-d.exponent).toNat := by positivity
  have hself : (2 * d.significand * unitsPerOne * 10 ^ d.exponent.toNat : ℚ) =
      2 * (d.value * unitsPerOne) * 10 ^ (-d.exponent).toNat := by
    rw [value, ← ten_zpow_mul d.exponent]
    ring
  -- natural numbers are compared as what they are multiples of
  have hle : ∀ a : ℕ, a * 10 ^ (-d.exponent).toNat ≤
      2 * d.significand * unitsPerOne * 10 ^ d.exponent.toNat ↔
        (a : ℚ) ≤ 2 * (d.value * unitsPerOne) := fun a => by
    rw [← mul_le_mul_iff_left₀ hscale, ← hself]
    exact_mod_cast Iff.rfl
  have hge : ∀ a : ℕ, 2 * d.significand * unitsPerOne * 10 ^ d.exponent.toNat ≤
      a * 10 ^ (-d.exponent).toNat ↔ 2 * (d.value * unitsPerOne) ≤ (a : ℚ) := fun a => by
    rw [← mul_le_mul_iff_left₀ hscale, ← hself]
    exact_mod_cast Iff.rfl
  have hlow := hle (units (r - 1) + units r)
  have hlow' := hge (units (r - 1) + units r)
  have hhigh := hge (units r + units (r + 1))
  have hhigh' := hle (units r + units (r + 1))
  rw [Nat.cast_add] at hlow hlow' hhigh hhigh'
  unfold roundsTo
  simp only
  split
  · rename_i heven
    rw [Bool.and_eq_true, decide_eq_true_eq, decide_eq_true_eq]
    exact (and_congr hlow hhigh).trans
      ⟨fun h => ⟨h.1, h.2, fun _ => heven⟩, fun h => ⟨h.low, h.high⟩⟩
  · rename_i hodd
    rw [Bool.and_eq_true, decide_eq_true_eq, decide_eq_true_eq]
    refine (and_congr (lt_iff_lt_of_le_iff_le hlow') (lt_iff_lt_of_le_iff_le hhigh')).trans ?_
    refine ⟨fun h => ⟨h.1.le, h.2.le, ?_⟩, fun h => ⟨?_, ?_⟩⟩
    · rintro (hequal | hequal)
      · exact absurd hequal h.1.ne'
      · exact absurd hequal h.2.ne
    · exact lt_of_le_of_ne h.low fun hequal => hodd (h.even (.inl hequal.symm))
    · exact lt_of_le_of_ne h.high fun hequal => hodd (h.even (.inr hequal))

/-- What is found on a grid is one of the two points around the double, and rounds to it. -/
theorem ofDigits?_eq_some {r n : Nat} {d : Decimal} (h : ofDigits? r n = some d) :
    (d = below (units r) n ∨ d = (below (units r) n).above) ∧ roundsTo r d = true := by
  unfold ofDigits? at h
  simp only at h
  split at h
  · rename_i hlow hhigh
    obtain rfl := Option.some.inj h
    rcases nearer_cases (units r) (below (units r) n) with ⟨hnearer, -⟩ | ⟨hnearer, -⟩
    · rw [hnearer]
      exact ⟨.inl rfl, hlow⟩
    · rw [hnearer]
      exact ⟨.inr rfl, hhigh⟩
  · rename_i hlow _
    obtain rfl := Option.some.inj h
    exact ⟨.inl rfl, hlow⟩
  · rename_i _ hhigh
    obtain rfl := Option.some.inj h
    exact ⟨.inr rfl, hhigh⟩
  · cases h

/-! ### The decimal that is written -/

/-- **What is known of a decimal that is written for a double** of rank `r`. -/
structure Near (r : Nat) (d : Decimal) : Prop where
  /-- It is not zero. -/
  significand_pos : 0 < d.significand
  /-- It has seventeen digits at most, or is a power of ten. -/
  significand_le : d.significand ≤ 10 ^ 17
  /-- Its last digit is not too far behind the point. -/
  lt_exponent : -341 < d.exponent
  /-- The double is nearest to it. -/
  nearest : Nearest r (d.value * unitsPerOne)

/-- The zeros at the end do not matter. -/
theorem Near.normalize {r : Nat} {d : Decimal} (h : Near r d) : Near r d.normalize := by
  obtain ⟨hvalue, hpos, hle, hexponent⟩ := normalize_spec h.significand_pos
  exact ⟨hpos, hle.trans h.significand_le, h.lt_exponent.trans_le hexponent, hvalue ▸ h.nearest⟩

/-- A point of a grid next to the double, if the double is nearest to it. -/
theorem near_of_grid {r n : Nat} (hr : 0 < r) (hn : n < 17) {d : Decimal}
    (hd : d = below (units r) (n + 1) ∨ d = (below (units r) (n + 1)).above)
    (hnearest : Nearest r (d.value * unitsPerOne)) : Near r d := by
  have hu : 0 < units r := Nat.pos_of_ne_zero fun h => hr.ne' (Binary64.units_eq_zero_iff.1 h)
  obtain ⟨hpos, hlt⟩ := significand_below hu n
  have hpow : 10 ^ (n + 1) ≤ 10 ^ 17 := Nat.pow_le_pow_right (by decide) hn
  have hexponent : -341 < (below (units r) (n + 1)).exponent := by
    have hmagnitude := lt_magnitude hu
    show -341 < magnitude (units r) - (n + 1 : Nat)
    omega
  rcases hd with rfl | rfl
  · exact ⟨hpos, by omega, hexponent, hnearest⟩
  · exact ⟨Nat.succ_pos _, (Nat.succ_le_of_lt hlt).trans hpow, hexponent, hnearest⟩

/-- **A double is nearest to the nearer one of two points** with seventeen digits. -/
theorem nearest_nearer {r : Nat} (hr : 0 < r) :
    Nearest r ((nearer (units r) (below (units r) 17)).value * unitsPerOne) := by
  have hu : 0 < units r := Nat.pos_of_ne_zero fun h => hr.ne' (Binary64.units_eq_zero_iff.1 h)
  obtain ⟨hle, hlt⟩ := below_spec (units r) 17
  have hfine := ten_pow_mul_spacing_le hu 16
  have hnearer := nearer_cases (units r) (below (units r) 17)
  have hvalue : (below (units r) 17).value * unitsPerOne =
      (below (units r) 17).significand * spacing (units r) 17 := mul_assoc ..
  have habove : (below (units r) 17).above.value * unitsPerOne =
      ((below (units r) 17).significand + 1) * spacing (units r) 17 := by
    rw [value, above, spacing]
    push_cast
    exact mul_assoc ..
  have hspacing : (10 : ℚ) ^ (below (units r) 17).exponent * unitsPerOne =
      spacing (units r) 17 := rfl
  rw [hspacing] at hnearer
  -- half a step of the grid is a small part of the double
  have hhalf : spacing (units r) 17 / 2 ≤ units r / (2 * 10 ^ 16) := by
    rw [le_div_iff₀ (by positivity)]
    linarith
  rcases hnearer with ⟨hself, hmiddle⟩ | ⟨hself, hmiddle⟩
  · rw [hself, hvalue]
    refine nearest_of_close hr ?_ ?_ <;> linarith
  · rw [hself, habove]
    refine nearest_of_close hr ?_ ?_ <;> linarith

/-- **The decimal that is written** for a double. -/
theorem near_shortest {r : Nat} (hr : 0 < r) : Near r (shortest r) := by
  unfold shortest
  simp only
  refine Near.normalize ?_
  cases hfound : (List.range 17).findSome? fun n => ofDigits? r (n + 1) with
  | some d =>
    obtain ⟨n, hn, hd⟩ := List.exists_of_findSome?_eq_some hfound
    obtain ⟨hgrid, hround⟩ := ofDigits?_eq_some hd
    exact near_of_grid hr (List.mem_range.1 hn) hgrid ((roundsTo_iff r d).1 hround)
  | none =>
    have hlast : 16 < 17 := by decide
    rw [Option.getD_none]
    refine near_of_grid hr hlast ?_ (nearest_nearer hr)
    rcases nearer_cases (units r) (below (units r) 17) with ⟨hself, -⟩ | ⟨hself, -⟩
    · exact .inl hself
    · exact .inr hself

/-! ### Working the decimal out -/

/-- A decimal that is a natural number. -/
theorem value_of_nonneg {d : Decimal} (h : 0 ≤ d.exponent) :
    d.value = (d.significand * 10 ^ d.exponent.toNat : Nat) := by
  obtain ⟨k, hk⟩ := Int.eq_ofNat_of_zero_le h
  rw [value, hk, Int.toNat_natCast, zpow_natCast]
  push_cast
  rfl

/-- What is written for a finite double is at most as large as infinity would be. -/
theorem Near.toNat_le {r : Nat} (hr : r < infiniteRank) {d : Decimal} (h : Near r d)
    (he : 0 ≤ d.exponent) :
    2 * (d.significand * 10 ^ d.exponent.toNat * unitsPerOne) ≤ units r + units (r + 1) ∧
      d.exponent ≤ 308 := by
  have hvalue := h.nearest.high
  rw [value_of_nonneg he] at hvalue
  have hnat : 2 * (d.significand * 10 ^ d.exponent.toNat * unitsPerOne) ≤
      units r + units (r + 1) := by exact_mod_cast hvalue
  refine ⟨hnat, ?_⟩
  have hle : d.significand * 10 ^ d.exponent.toNat * unitsPerOne ≤ units infiniteRank := by
    have hlow : units r ≤ units infiniteRank := units_strictMono.monotone hr.le
    have hhigh : units (r + 1) ≤ units infiniteRank := units_strictMono.monotone hr
    omega
  obtain ⟨k, hk, hinf⟩ : ∃ k ≤ 309, units infiniteRank < 10 ^ k * unitsPerOne :=
    ⟨309, le_rfl, by decide +kernel⟩
  by_contra hlarge
  have hpow : 10 ^ k ≤ d.significand * 10 ^ d.exponent.toNat :=
    (Nat.pow_le_pow_right (by decide) (by omega)).trans
      (Nat.le_mul_of_pos_left _ h.significand_pos)
  exact absurd (hle.trans_lt hinf) (Nat.not_lt.2 (Nat.mul_le_mul_right unitsPerOne hpow))

/-- **The decimal that is written for a double can be worked out** in doubles without a step past
the greatest one. Below the last two finite doubles there is room enough for the roundings on the
way; for these two it is worked out here. -/
theorem isInfinite_mul_shortest {r : Nat} (hpos : 0 < r) (hr : r < infiniteRank)
    (he : 0 ≤ (shortest r).exponent) :
    ((Binary64.ofNat (shortest r).significand).mul
      (Binary64.ofNat (10 ^ (shortest r).exponent.toNat))).isInfinite = false := by
  by_cases hroom : r ≤ infiniteRank - 3
  · have hnear := near_shortest hpos
    refine Binary64.isInfinite_mul_ofNat hnear.significand_pos (Nat.pow_pos (by decide)) ?_
    have hlast : (2 * octave + 1) ^ 2 * (units (infiniteRank - 3) + units (infiniteRank - 2)) <
        (2 * octave) ^ 2 * (units (infiniteRank - 1) + units infiniteRank) := by decide +kernel
    have hnext : r + 1 ≤ infiniteRank - 2 := by omega
    refine lt_of_le_of_lt (Nat.mul_le_mul_left _ ?_) hlast
    exact (hnear.toNat_le hr he).1.trans
      (Nat.add_le_add (units_strictMono.monotone hroom) (units_strictMono.monotone hnext))
  · have hlast : ∀ k ∈ [1, 2],
        ((Binary64.ofNat (shortest (infiniteRank - k)).significand).mul
          (Binary64.ofNat (10 ^ (shortest (infiniteRank - k)).exponent.toNat))).isInfinite =
            false := by decide +kernel
    obtain rfl | rfl : r = infiniteRank - 1 ∨ r = infiniteRank - 2 := by omega
    · exact hlast 1 (by decide)
    · exact hlast 2 (by decide)

end Decimal

end Telemetry
