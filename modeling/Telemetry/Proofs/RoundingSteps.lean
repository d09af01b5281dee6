import Mathlib
import Telemetry.Proofs.Nearest

/-!
# How far several roundings lead

A rounding takes away from a number, or adds to it, at most one part in `2 ^ 53`. So does every
rounding of a product or a quotient, and what the factors were off is passed on. A count of the
roundings is therefore a bound on what they have done together (`Off`). And since a double is never
followed by another one within one part in `2 ^ 53`, the count also bounds how many doubles there
are between the result and the double that would have been nearest.

Below the first octave doubles are evenly spaced, and what is nearest may be off by a larger part;
but there a part is less than a few steps.

* `Off`: apart by at most so many roundings;
* `Off.mul`, `Off.div`: products and quotients;
* `Nearest.off`, `Nearest.off_of_small`: one rounding;
* `Nearest.near_of_off`: how many steps a double is from another one that is nearest to a number
  some roundings apart.
-/

namespace Telemetry

/-- What a rounding leaves of a number, at least. -/
def leftOver : ℚ := 1 - 1 / 2 ^ 53

theorem leftOver_pos : 0 < leftOver := by norm_num [leftOver]

theorem leftOver_le_one : leftOver ≤ 1 := by norm_num [leftOver]

/-- **Two numbers apart by at most `n` roundings**, in either direction. -/
structure Off (n : Nat) (x y : ℚ) : Prop where
  /-- The first is not too small. -/
  low : leftOver ^ n * y ≤ x
  /-- Nor is the second. -/
  high : leftOver ^ n * x ≤ y

theorem Off.refl (x : ℚ) : Off 0 x x := ⟨by simp, by simp⟩

theorem Off.symm {n : Nat} {x y : ℚ} (h : Off n x y) : Off n y x := ⟨h.high, h.low⟩

/-- One after the other. -/
theorem Off.trans {m n : Nat} {x y z : ℚ} (h : Off m x y) (h' : Off n y z) : Off (m + n) x z := by
  have hm : 0 ≤ leftOver ^ m := pow_nonneg leftOver_pos.le m
  have hn : 0 ≤ leftOver ^ n := pow_nonneg leftOver_pos.le n
  constructor
  · calc leftOver ^ (m + n) * z = leftOver ^ m * (leftOver ^ n * z) := by ring
      _ ≤ leftOver ^ m * y := mul_le_mul_of_nonneg_left h'.low hm
      _ ≤ x := h.low
  · calc leftOver ^ (m + n) * x = leftOver ^ n * (leftOver ^ m * x) := by ring
      _ ≤ leftOver ^ n * y := mul_le_mul_of_nonneg_left h.high hn
      _ ≤ z := h'.high

/-- Neither is less than zero if the other is not, -/
theorem Off.nonneg {n : Nat} {x y : ℚ} (h : Off n x y) (hy : 0 ≤ y) : 0 ≤ x :=
  (mul_nonneg (pow_nonneg leftOver_pos.le n) hy).trans h.low

/-- nor is it zero. -/
theorem Off.pos {n : Nat} {x y : ℚ} (h : Off n x y) (hy : 0 < y) : 0 < x :=
  (mul_pos (pow_pos leftOver_pos n) hy).trans_le h.low

/-- More roundings allow for more. -/
theorem Off.mono {m n : Nat} {x y : ℚ} (h : Off m x y) (hy : 0 ≤ y) (hmn : m ≤ n) : Off n x y := by
  have hpow : leftOver ^ n ≤ leftOver ^ m :=
    pow_le_pow_of_le_one leftOver_pos.le leftOver_le_one hmn
  exact ⟨(mul_le_mul_of_nonneg_right hpow hy).trans h.low,
    (mul_le_mul_of_nonneg_right hpow (h.nonneg hy)).trans h.high⟩

/-- **A product** is off by what its factors are off. -/
theorem Off.mul {m n : Nat} {x y z w : ℚ} (h : Off m x y) (h' : Off n z w) (hy : 0 ≤ y)
    (hw : 0 ≤ w) : Off (m + n) (x * z) (y * w) := by
  have hn : 0 ≤ leftOver ^ n := pow_nonneg leftOver_pos.le n
  have hx := h.nonneg hy
  have hz := h'.nonneg hw
  constructor
  · calc leftOver ^ (m + n) * (y * w) = (leftOver ^ m * y) * (leftOver ^ n * w) := by ring
      _ ≤ x * z := mul_le_mul h.low h'.low (mul_nonneg hn hw) hx
  · calc leftOver ^ (m + n) * (x * z) = (leftOver ^ m * x) * (leftOver ^ n * z) := by ring
      _ ≤ y * w := mul_le_mul h.high h'.high (mul_nonneg hn hz) hy

/-- **So is a quotient.** -/
theorem Off.div {m n : Nat} {x y z w : ℚ} (h : Off m x y) (h' : Off n z w) (hy : 0 ≤ y)
    (hw : 0 < w) : Off (m + n) (x / z) (y / w) := by
  have hz := h'.pos hw
  have hinv : Off n z⁻¹ w⁻¹ := by
    constructor
    · rw [← div_eq_mul_inv, div_le_iff₀ hw, ← div_eq_inv_mul, le_div_iff₀ hz]
      exact h'.high
    · rw [← div_eq_mul_inv, div_le_iff₀ hz, ← div_eq_inv_mul, le_div_iff₀ hw]
      exact h'.low
  rw [div_eq_mul_inv, div_eq_mul_inv]
  exact h.mul hinv hy (inv_nonneg.2 hw.le)

/-- Two roundings do not take much. -/
theorem Off.le_of_two {x y : ℚ} (h : Off 2 x y) (hy : 0 ≤ y) : (1 - 1 / 2 ^ 52) * y ≤ x := by
  have hlow := h.low
  have hself : leftOver ^ 2 = 1 - 1 / 2 ^ 52 + 1 / 2 ^ 106 := by norm_num [leftOver]
  rw [hself] at hlow
  linarith

/-! ### One rounding -/

theorem octave_cast : (octave : ℚ) = 2 ^ 52 := by
  norm_num [octave]

/-- The values of the ranks, in their order. -/
theorem units_cast_mono {r q : Nat} (h : r ≤ q) : (units r : ℚ) ≤ units q := by
  exact_mod_cast units_strictMono.monotone h

/-- From the first octave on a step is at most one part in `2 ^ 52`. -/
theorem units_succ_le_cast {r : Nat} (hr : octave ≤ r) :
    (units (r + 1) : ℚ) ≤ (1 + 1 / 2 ^ 52) * units r := by
  have h : (octave * units (r + 1) : ℚ) ≤ (octave + 1) * units r := by
    exact_mod_cast octave_mul_units_succ_le hr
  rw [octave_cast] at h
  linarith

/-- And everywhere it is at least one part in `2 ^ 53`. -/
theorem le_units_succ_cast (r : Nat) : (1 + 1 / 2 ^ 53) * (units r : ℚ) ≤ units (r + 1) := by
  have h : ((2 * octave + 1) * units r : ℚ) ≤ 2 * octave * units (r + 1) := by
    exact_mod_cast units_le_units_succ r
  rw [octave_cast] at h
  linarith

/-- Up to the first octave a rank is its own value. -/
theorem units_of_le {r : Nat} (hr : r ≤ octave) : units r = r := by
  rcases Nat.lt_or_eq_of_le hr with hlt | rfl
  · exact units_of_lt hlt
  · decide +kernel

/-- **One rounding** from the first octave on. -/
theorem Nearest.off {r : Nat} {n : ℚ} (h : Nearest r n) (hr : octave ≤ r) :
    Off 1 (units r) n := by
  obtain ⟨hlow, hhigh, -⟩ := h
  have hself : (0 : ℚ) ≤ units r := Nat.cast_nonneg _
  have hnext := units_succ_le_cast hr
  -- the step below is as small as the one above, or it is the last one of the even spacing
  have hbelow : (1 - 1 / 2 ^ 52) * (units r : ℚ) ≤ units (r - 1) := by
    rcases Nat.lt_or_eq_of_le hr with hlt | rfl
    · have hstep := units_succ_le_cast (Nat.le_sub_one_of_lt hlt)
      rw [Nat.sub_add_cancel (Nat.zero_lt_of_lt hlt)] at hstep
      linarith
    · rw [units_of_le (Nat.sub_le octave 1), units_of_le le_rfl, Nat.cast_pred octave_pos,
        octave_cast]
      norm_num
  constructor
  · rw [pow_one, leftOver]
    linarith
  · rw [pow_one, leftOver]
    linarith

/-- **One rounding** of a number that is not far below the first octave counts as five. -/
theorem Nearest.off_of_small {r : Nat} {n : ℚ} (h : Nearest r n) (hn : 2 ^ 50 ≤ n) :
    Off 5 (units r) n := by
  rcases Nat.lt_or_ge r octave with hr | hr
  · -- a step is one unit, so that half of one is taken away or added at most
    obtain ⟨hlow, hhigh, -⟩ := h
    have hself : (units r : ℚ) = r := by rw [units_of_lt hr]
    have hbelow : (r : ℚ) ≤ units (r - 1) + 1 := by
      rw [units_of_lt ((r.sub_le 1).trans_lt hr)]
      exact_mod_cast (by omega : r ≤ r - 1 + 1)
    have hnext : (units (r + 1) : ℚ) = r + 1 := by
      rw [units_of_le hr, Nat.cast_succ]
    rw [hself] at hlow hhigh ⊢
    constructor
    · rw [leftOver]
      norm_num
      linarith
    · rw [leftOver]
      norm_num
      linarith
  · exact (h.off hr).mono (by linarith) (by decide)

/-! ### Steps -/

/-- Steps are at least one part in `2 ^ 53` each. -/
theorem pow_mul_units_le (r j : Nat) :
    (1 + 1 / 2 ^ 53) ^ j * (units r : ℚ) ≤ units (r + j) := by
  induction j with
  | zero => simp
  | succ j ih =>
    calc (1 + 1 / 2 ^ 53) ^ (j + 1) * (units r : ℚ)
        = (1 + 1 / 2 ^ 53) * ((1 + 1 / 2 ^ 53) ^ j * units r) := by ring
      _ ≤ (1 + 1 / 2 ^ 53) * (units (r + j) : ℚ) := mul_le_mul_of_nonneg_left ih (by norm_num)
      _ ≤ (units (r + j + 1) : ℚ) := le_units_succ_cast (r + j)

/-- And at least one unit each. -/
theorem units_add_le (r j : Nat) : units r + j ≤ units (r + j) := by
  induction j with
  | zero => exact le_rfl
  | succ j ih =>
    have hstep := units_lt_succ (r + j)
    show units r + (j + 1) ≤ units (r + j + 1)
    omega

/-- **Five roundings lead five steps away**, from the first octave on. -/
theorem Nearest.near_of_off_units {r q : Nat} (hr : 0 < r) {z : ℚ} (hz : Nearest q z)
    (hoff : Off 5 z (units r)) : q ≤ r + 5 ∧ r ≤ q + 5 := by
  have hpos : (0 : ℚ) < units r := Nat.cast_pos.2 ((Nat.zero_le _).trans_lt (units_strictMono hr))
  obtain ⟨hlow, hhigh⟩ := hoff
  constructor
  · by_contra hlt
    have hbelow := pow_mul_units_le r 5
    have hat := pow_mul_units_le r 6
    have hbelow' : (units (r + 5) : ℚ) ≤ units (q - 1) := units_cast_mono (by omega)
    have hat' : (units (r + 6) : ℚ) ≤ units q := units_cast_mono (by omega)
    have hhalf := hz.low
    rw [leftOver] at hhigh
    norm_num at hbelow hat hhigh
    linarith
  · by_contra hlt
    obtain ⟨p, rfl⟩ : ∃ p, r = p + 6 := ⟨r - 6, by omega⟩
    have hat := pow_mul_units_le p 6
    have hnext := pow_mul_units_le (p + 1) 5
    have hat' : (units q : ℚ) ≤ units p := units_cast_mono (by omega)
    have hnext' : (units (q + 1) : ℚ) ≤ units (p + 1) := units_cast_mono (by omega)
    have hhalf := hz.high
    rw [leftOver] at hlow
    norm_num [add_assoc] at hat hnext hlow
    linarith

/-- **Eight roundings lead five steps away** below the first octave, where steps are even. -/
theorem Nearest.near_of_off_of_lt {r q : Nat} {y z : ℚ} (hy : Nearest r y) (hr : r < octave)
    (hz : Nearest q z) (hoff : Off 8 z y) : q ≤ r + 5 ∧ r ≤ q + 5 := by
  obtain ⟨hlow, hhigh⟩ := hoff
  have hself : (units r : ℚ) = r := by rw [units_of_lt hr]
  have hbelow : (r : ℚ) ≤ units (r - 1) + 1 := by
    rw [units_of_lt ((r.sub_le 1).trans_lt hr)]
    exact_mod_cast (by omega : r ≤ r - 1 + 1)
  have hnext : (units (r + 1) : ℚ) = r + 1 := by
    rw [units_of_le hr, Nat.cast_succ]
  have hless : (r : ℚ) ≤ 2 ^ 52 := by
    rw [← octave_cast]
    exact_mod_cast hr.le
  have hylow := hy.low
  have hyhigh := hy.high
  rw [hself] at hylow hyhigh
  rw [hnext] at hyhigh
  rw [leftOver] at hlow hhigh
  norm_num at hlow hhigh
  constructor
  · by_contra hlt
    have hat := units_add_le r 6
    have hbelow' := units_add_le r 5
    rw [units_of_lt hr] at hat hbelow'
    have hat' : (r + 6 : ℚ) ≤ units q := by
      exact_mod_cast hat.trans (units_strictMono.monotone (by omega))
    have hbelow'' : (r + 5 : ℚ) ≤ units (q - 1) := by
      exact_mod_cast hbelow'.trans (units_strictMono.monotone (by omega))
    have hhalf := hz.low
    linarith
  · by_contra hlt
    have hat : (units q : ℚ) = q := by rw [units_of_lt (by omega)]
    have hat' : (units (q + 1) : ℚ) = q + 1 := by rw [units_of_lt (by omega), Nat.cast_succ]
    have hless' : (q + 6 : ℚ) ≤ r := by exact_mod_cast (by omega : q + 6 ≤ r)
    have hhalf := hz.high
    linarith

/-- **How many steps roundings lead away**, from a double that is nearest to a number to one that
is nearest to what has become of the number. -/
theorem Nearest.near_of_off {r q : Nat} {y z : ℚ} (hr : 0 < r) (hy : Nearest r y)
    (hz : Nearest q z) (hoff : Off 8 z y) (hlarge : octave ≤ r → Off 4 z y) :
    q ≤ r + 5 ∧ r ≤ q + 5 := by
  rcases Nat.lt_or_ge r octave with hlt | hge
  · exact hy.near_of_off_of_lt hlt hz hoff
  · exact hz.near_of_off_units hr ((hlarge hge).trans (hy.off hge).symm)

end Telemetry
