import Mathlib
import Telemetry.Proofs.RealText
import Telemetry.Proofs.RoundingSteps

/-!
# Working a decimal out

The decimal in the text of a level is worked out in doubles: its digits are rounded, the power of
ten is rounded, and so is their product or quotient. Where the power to divide by is larger than
any double there are two quotients. The level that was written is nearest to the decimal, so that
what comes out is as many steps from it as these roundings lead away, and that is five at most.

Where the digits and the power of ten are doubles themselves, nothing is rounded but the result, and
the result is rounded to the level.

* `Decimal.Near.written`: the level is nearest to the decimal in its text as well;
* `Binary64.exists_ofNat`, `exists_div_ten_pow`, `exists_mul`: what is rounded, and how often;
* `Decimal.IsShort`: digits and a power of ten that are doubles;
* `Decimal.exists_workedOut_writtenFor`: what is worked out where a level has been written.
-/

namespace Telemetry

open Json

/-! ### The decimal in the text -/

/-- A level is nearest to the decimal in its text, which is the same number. -/
theorem Decimal.Near.written {r : Nat} {d : Decimal} (h : Near r d) : Near r d.written := by
  have hleast := h.lt_exponent
  have hpower := d.exponent_written
  refine ⟨?_, d.significand_written_le h.significand_le, by omega, ?_⟩
  · rw [Decimal.written]
    split
    · exact Nat.mul_pos h.significand_pos (Nat.pow_pos (by decide))
    · exact h.significand_pos
  · rw [Decimal.value_written]
    exact h.nearest

/-! ### Working out -/

namespace Binary64

/-- A fraction that stays finite is the double nearest to it. -/
theorem exists_ofFraction (s : Bool) {num den : Nat} (hden : 0 < den)
    (h : nearestRank num den < infiniteRank) :
    ∃ q : Rank, ofFraction s num den = .signed s q ∧ q.val < infiniteRank ∧
      Nearest q.val (num * unitsPerOne / den) := by
  have hrank : (Rank.clamp (nearestRank num den)).val = nearestRank num den := Nat.min_eq_left h.le
  refine ⟨Rank.clamp (nearestRank num den), rfl, ?_, ?_⟩
  · rw [hrank]
    exact h
  · rw [hrank]
    exact nearest_nearestRank hden h

/-- A larger power of two is twice as large at least. -/
theorem two_mul_pow_le {j k : Nat} (h : j < k) : 2 * Nat.pow 2 j ≤ Nat.pow 2 k :=
  Nat.pow_succ'.symm.trans_le (Nat.pow_le_pow_right (by decide) h)

/-- A natural number of 53 bits is a double. -/
theorem exists_units_eq {n : Nat} (hn : n < 2 * octave) : ∃ r, units r = n * unitsPerOne := by
  rcases Nat.eq_zero_or_pos n with rfl | hpos
  · exact ⟨0, by rw [Nat.zero_mul]; rfl⟩
  · have hone : octave ≤ unitsPerOne := by decide +kernel
    obtain ⟨e, f, hf, -, hle, hlt⟩ :=
      floorRank_of_le (hone.trans (Nat.le_mul_of_pos_left unitsPerOne hpos))
    obtain ⟨k, hk⟩ : ∃ k, unitsPerOne = Nat.pow 2 k := ⟨1074, by decide +kernel⟩
    -- its last digit is not behind that of the double below
    have he : e ≤ k := by
      by_contra hlarge
      have hpow : 2 * unitsPerOne ≤ Nat.pow 2 e := by
        rw [hk]
        exact two_mul_pow_le (Nat.lt_of_not_le hlarge)
      have hless := Nat.mul_lt_mul_of_pos_right hn unitsPerOne_pos
      have hmore : octave * (2 * unitsPerOne) ≤ (octave + f) * Nat.pow 2 e :=
        Nat.mul_le_mul (Nat.le_add_right octave f) hpow
      rw [Nat.mul_comm 2, Nat.mul_assoc] at hless
      omega
    have hdvd : Nat.pow 2 e ∣ unitsPerOne := hk ▸ Nat.pow_dvd_pow 2 he
    obtain ⟨c, hc⟩ := Dvd.dvd.mul_left hdvd n
    have hpow : 0 < Nat.pow 2 e := Nat.two_pow_pos e
    rw [hc, Nat.mul_comm (Nat.pow 2 e)] at hle hlt
    have hdigits : c = octave + f :=
      le_antisymm (Nat.lt_succ_iff.1 (Nat.lt_of_mul_lt_mul_right hlt))
        (Nat.le_of_mul_le_mul_right hle hpow)
    exact ⟨(e + 1) * octave + f, by rw [units_octave e f hf, hc, hdigits, Nat.mul_comm]⟩

/-- The rank of one. -/
theorem units_one : units (1023 * octave) = unitsPerOne := by decide +kernel

/-- **A natural number** that is not too large is rounded once, and it is not rounded at all if it
is a double. -/
theorem exists_ofNat {n : Nat} (hpos : 0 < n) (hn : n ≤ 10 ^ 308) :
    ∃ a : Rank, ofNat n = .signed false a ∧ a.val < infiniteRank ∧ unitsPerOne ≤ units a.val ∧
      Off 1 (units a.val) (n * unitsPerOne) ∧
      ∀ r, units r = n * unitsPerOne → (units a.val : ℚ) = n * unitsPerOne := by
  have hlast : 2 * (10 ^ 308 * unitsPerOne) < units (infiniteRank - 1) + units infiniteRank := by
    decide +kernel
  have hfinite : nearestRank n 1 < infiniteRank := by
    refine nearestRank_lt_infinite Nat.one_pos ?_
    rw [Nat.one_mul]
    exact lt_of_le_of_lt (Nat.mul_le_mul_left 2 (Nat.mul_le_mul_right _ hn)) hlast
  obtain ⟨a, ha, hlt, hnearest⟩ := exists_ofFraction false Nat.one_pos hfinite
  rw [Nat.cast_one, div_one] at hnearest
  have hone : 1023 * octave ≤ a.val := by
    refine hnearest.rank_le ?_
    rw [units_one]
    exact_mod_cast Nat.le_mul_of_pos_left unitsPerOne hpos
  refine ⟨a, ha, hlt, units_one ▸ units_strictMono.monotone hone,
    hnearest.off ((Nat.le_mul_of_pos_left octave (by decide)).trans hone), fun r hr => ?_⟩
  have hself : (units r : ℚ) = n * unitsPerOne := by exact_mod_cast hr
  rw [hnearest.unique (hself ▸ nearest_units r), hself]

/-- The first powers of ten are doubles. -/
theorem exists_units_ten_pow {k : Nat} (hk : k ≤ 22) :
    ∃ r, units r = 10 ^ k * unitsPerOne := by
  have hfirst : ∀ k < 23, units (nearestRank (10 ^ k) 1) = 10 ^ k * unitsPerOne := by
    decide +kernel
  exact ⟨_, hfirst k (Nat.lt_succ_of_le hk)⟩

/-- **A quotient by a power of ten** is rounded once more, and the power itself is. -/
theorem exists_div_ten_pow {a : Rank} (ha : a.val < infiniteRank) {k : Nat} (hk : k ≤ 308) :
    ∃ (q : Rank) (z : ℚ), (signed false a).div (ofNat (Nat.pow 10 k)) = signed false q ∧
      q.val < infiniteRank ∧ Nearest q.val z ∧
      (∀ {n y}, 0 ≤ y → Off n (units a.val) y → Off (n + 1) z (y / 10 ^ k)) ∧
      (k ≤ 22 → z = units a.val / 10 ^ k) := by
  have hpower : 0 < 10 ^ k := Nat.pow_pos (by decide)
  have hlarge : 10 ^ k ≤ 10 ^ 308 := pow_le_pow_right₀ (by decide) hk
  obtain ⟨b, hb, hbfinite, hbone, hboff, hbexact⟩ := exists_ofNat hpower hlarge
  push_cast at hboff hbexact
  have hone : (0 : ℚ) < unitsPerOne := Nat.cast_pos.2 unitsPerOne_pos
  have hbpos : 0 < units b.val := unitsPerOne_pos.trans_le hbone
  have hbzero : b.val ≠ 0 := fun h => hbpos.ne' (units_eq_zero_iff.2 h)
  have hquotient : (signed false a).div (signed false b) =
      ofFraction false (units a.val) (units b.val) := by
    rw [div, if_neg ha.ne, if_neg hbfinite.ne, if_neg hbzero]
    rfl
  have hlast : nearestRank (units a.val) (units b.val) < infiniteRank := by
    refine nearestRank_lt_infinite hbpos ?_
    have hle : units a.val ≤ units (infiniteRank - 1) :=
      units_strictMono.monotone (Nat.le_sub_one_of_lt ha)
    have hlt : units (infiniteRank - 1) < units infiniteRank :=
      units_strictMono (by decide)
    calc 2 * (units a.val * unitsPerOne)
        = unitsPerOne * (units a.val + units a.val) := by ring
      _ < unitsPerOne * (units (infiniteRank - 1) + units infiniteRank) :=
        Nat.mul_lt_mul_of_pos_left (by omega) unitsPerOne_pos
      _ ≤ units b.val * (units (infiniteRank - 1) + units infiniteRank) :=
        Nat.mul_le_mul_right _ hbone
  obtain ⟨q, hq, hqfinite, hqnearest⟩ := exists_ofFraction false hbpos hlast
  refine ⟨q, _, ?_, hqfinite, hqnearest, fun {n y} hy h => ?_, fun hfew => ?_⟩
  · rw [← hq, ← hquotient, ← hb]
    rfl
  · have hpower' : (0 : ℚ) < 10 ^ k := by exact_mod_cast hpower
    have hoff := (h.mul (Off.refl (unitsPerOne : ℚ)) hy hone.le).div hboff
      (mul_nonneg hy hone.le) (mul_pos hpower' hone)
    rwa [mul_div_mul_right _ _ hone.ne'] at hoff
  · obtain ⟨r, hr⟩ := exists_units_ten_pow hfew
    rw [hbexact r hr, mul_div_mul_right _ _ hone.ne']

/-- **A product**, if it is finite. -/
theorem exists_mul {a b : Rank} (ha : a.val < infiniteRank) (hb : b.val < infiniteRank)
    (h : ((signed false a).mul (signed false b)).isInfinite = false) :
    ∃ q : Rank, (signed false a).mul (signed false b) = signed false q ∧
      q.val < infiniteRank ∧ Nearest q.val (units a.val * units b.val / unitsPerOne) := by
  have hproduct : (signed false a).mul (signed false b) = ofFraction false
      (units a.val * units b.val) (unitsPerOne * unitsPerOne) := by
    rw [mul, if_neg (not_or.2 ⟨ha.ne, hb.ne⟩)]
    rfl
  have hone : (unitsPerOne : ℚ) ≠ 0 := Nat.cast_ne_zero.2 unitsPerOne_pos.ne'
  rw [hproduct] at h ⊢
  have hfinite : nearestRank (units a.val * units b.val) (unitsPerOne * unitsPerOne) <
      infiniteRank := by
    rw [ofFraction, isInfinite, beq_eq_false_iff_ne] at h
    refine Nat.lt_of_not_le fun hle => h (Nat.min_eq_right hle)
  obtain ⟨q, hq, hqfinite, hnearest⟩ :=
    exists_ofFraction false (Nat.mul_pos unitsPerOne_pos unitsPerOne_pos) hfinite
  push_cast at hnearest
  rw [mul_div_mul_right _ _ hone] at hnearest
  exact ⟨q, hq, hqfinite, hnearest⟩

end Binary64

/-! ### The decimal of a level -/

/-- What has been divided before it was from the first octave on is larger. -/
theorem Nearest.pow_le_of_div {r j : Nat} {y : ℚ} (h : Nearest r (y / 10 ^ j)) (hr : octave ≤ r)
    (hj : 0 < j) : 2 ^ 55 ≤ y := by
  have hself : (octave : ℚ) ≤ units r := by
    rw [← units_of_le le_rfl]
    exact units_cast_mono hr
  have hbelow : (octave : ℚ) - 1 ≤ units (r - 1) := by
    rw [← Nat.cast_pred octave_pos, ← units_of_le (Nat.sub_le octave 1)]
    exact units_cast_mono (Nat.sub_le_sub_right hr 1)
  have hlow := h.low
  have hten : (10 : ℚ) ≤ 10 ^ j := le_self_pow₀ (by norm_num) hj.ne'
  have hwhole : y / 10 ^ j * 10 ^ j = y := div_mul_cancel₀ y (pow_pos (by norm_num) j).ne'
  rw [octave_cast] at hself hbelow
  have hquotient : 2 ^ 52 - 1 ≤ y / 10 ^ j := by linarith
  have hmore : (2 ^ 52 - 1) * 10 ≤ y / 10 ^ j * 10 ^ j :=
    mul_le_mul hquotient hten (by norm_num) (by linarith)
  linarith

namespace Decimal

/-- **A short decimal**: its digits and its power of ten are doubles. -/
def IsShort (d : Decimal) : Prop := d.significand < 2 * octave ∧ d.exponent.natAbs ≤ 22

instance (d : Decimal) : Decidable d.IsShort := inferInstanceAs (Decidable (_ ∧ _))

/-- **A rank next to that of a level**, as it is worked out of a decimal for the level. -/
structure Nearby (d : Decimal) (r q : Nat) : Prop where
  /-- It is not infinity. -/
  finite : q < infiniteRank
  /-- It is not far above. -/
  above : q ≤ r + 5
  /-- Nor is it far below. -/
  below : r ≤ q + 5
  /-- A short decimal gives the same rank. -/
  same : d.IsShort → q = r

variable {d : Decimal} {r : Nat}

/-- The digits of a decimal that is written for a double. -/
theorem Near.exists_ofNat (hd : Near r d) :
    ∃ a : Rank, Binary64.ofNat d.significand = .signed false a ∧ a.val < infiniteRank ∧
      unitsPerOne ≤ units a.val ∧ Off 1 (units a.val) (d.significand * unitsPerOne) ∧
      (d.IsShort → (units a.val : ℚ) = d.significand * unitsPerOne) := by
  obtain ⟨a, ha, hfinite, hone, hoff, hexact⟩ := Binary64.exists_ofNat hd.significand_pos
    (hd.significand_le.trans (by decide +kernel))
  refine ⟨a, ha, hfinite, hone, hoff, fun hshort => ?_⟩
  obtain ⟨p, hp⟩ := Binary64.exists_units_eq hshort.1
  exact hexact p hp

/-- A decimal with a negative exponent, in units. -/
theorem value_mul_of_neg (he : d.exponent < 0) :
    d.value * unitsPerOne = d.significand * unitsPerOne / 10 ^ d.exponent.natAbs := by
  have hexponent : d.exponent = -(d.exponent.natAbs : Int) := by omega
  rw [value, hexponent, zpow_neg, zpow_natCast, Int.natAbs_neg, Int.natAbs_natCast]
  ring

/-- **A power of ten that is a double is divided by** in one step. -/
theorem Near.nearby_of_le (hd : Near r d) (hr : 0 < r) (he : d.exponent < 0)
    (hle : d.exponent.natAbs ≤ 308) :
    ∃ q : Rank, d.workedOut = .signed false q ∧ Nearby d r q.val := by
  obtain ⟨a, ha, hafinite, -, haoff, haexact⟩ := hd.exists_ofNat
  obtain ⟨q, z, hq, hqfinite, hqnearest, hstep, hexact⟩ := Binary64.exists_div_ten_pow hafinite hle
  have hworked : d.workedOut = .signed false q := by
    rw [workedOut, if_pos he, ha, shrunk, if_pos hle, hq]
  have hnearest := hd.nearest
  rw [value_mul_of_neg he] at hnearest
  have hdigits : (0 : ℚ) ≤ d.significand * unitsPerOne := by exact_mod_cast Nat.zero_le _
  have hvalue : (0 : ℚ) ≤ d.significand * unitsPerOne / 10 ^ d.exponent.natAbs :=
    div_nonneg hdigits (pow_nonneg (by norm_num) _)
  have hoff := hstep hdigits haoff
  obtain ⟨habove, hbelow⟩ := hnearest.near_of_off hr hqnearest (hoff.mono hvalue (by decide))
    fun _ => hoff.mono hvalue (by decide)
  refine ⟨q, hworked, hqfinite, habove, hbelow, fun hshort => ?_⟩
  rw [hexact hshort.2, haexact hshort] at hqnearest
  exact hqnearest.unique hnearest

/-- What is left after the first of two steps is not too small. -/
theorem Near.pow_le (hd : Near r d) :
    3 * 2 ^ 49 ≤ (d.significand * unitsPerOne / 10 ^ 308 : ℚ) := by
  have hone : 3 * 2 ^ 49 * 10 ^ 308 ≤ unitsPerOne := by decide +kernel
  rw [le_div_iff₀ (pow_pos (by norm_num) _)]
  exact_mod_cast hone.trans (Nat.le_mul_of_pos_left unitsPerOne hd.significand_pos)

/-- A larger power is divided by in two steps. The number in the first one has a name so that its
power is not worked out. -/
theorem shrunk_of_gt {x : Binary64} {k most : Nat} (hmost : most = 308) (hk : most < k)
    (hx : x.numEq .zero = false) :
    shrunk x k = shrunk (x.div (.ofNat (Nat.pow 10 most))) (k - most) := by
  rw [shrunk, ← hmost, if_neg (Nat.not_le.2 hk), hx, if_neg Bool.false_ne_true]

/-- **The quotient in between**, as it is found in the first step. -/
theorem Near.exists_between (hd : Near r d) (he : d.exponent < 0) {most : Nat}
    (hmost : most = 308) (hlt : most < d.exponent.natAbs) :
    ∃ (p : Rank) (y : ℚ),
      d.workedOut = shrunk (.signed false p) (d.exponent.natAbs - most) ∧
        p.val < infiniteRank ∧ Nearest p.val y ∧
        Off 2 y (d.significand * unitsPerOne / 10 ^ most) := by
  obtain ⟨a, ha, hafinite, haone, haoff, -⟩ := hd.exists_ofNat
  obtain ⟨p, y, hp, hpfinite, hpnearest, hstep, -⟩ :=
    Binary64.exists_div_ten_pow hafinite hmost.le
  have hzero : (Binary64.signed false a).numEq .zero = false := by
    refine Bool.eq_false_iff.2 fun h => ?_
    have hsame : a = Rank.clamp 0 := eq_of_beq (Bool.and_eq_true_iff.1 h).1
    rw [hsame] at haone
    exact absurd haone (by decide +kernel)
  have hdigits : (0 : ℚ) ≤ d.significand * unitsPerOne := by exact_mod_cast Nat.zero_le _
  refine ⟨p, y, ?_, hpfinite, hpnearest, hstep hdigits haoff⟩
  rw [workedOut, if_pos he, ha, shrunk_of_gt hmost hlt hzero, hp]

/-- **A larger power of ten is divided by** in two steps. -/
theorem Near.nearby_of_gt (hd : Near r d) (hr : 0 < r) (he : d.exponent < 0)
    (hlt : 308 < d.exponent.natAbs) :
    ∃ q : Rank, d.workedOut = .signed false q ∧ Nearby d r q.val := by
  obtain ⟨most, hmost⟩ : ∃ most, most = 308 := ⟨308, rfl⟩
  have hmore : most < d.exponent.natAbs := hmost.trans_lt hlt
  have hrest : d.exponent.natAbs - most ≤ 308 := by
    have hleast := hd.lt_exponent
    omega
  obtain ⟨p, y, hworked, hpfinite, hpnearest, hoff⟩ := hd.exists_between he hmost hmore
  obtain ⟨q, z, hq, hqfinite, hqnearest, hstep, -⟩ := Binary64.exists_div_ten_pow hpfinite hrest
  rw [shrunk, if_pos hrest, hq] at hworked
  have hnearest := hd.nearest
  have hsplit : d.value * unitsPerOne =
      d.significand * unitsPerOne / 10 ^ most / 10 ^ (d.exponent.natAbs - most) := by
    rw [value_mul_of_neg he, div_div, ← pow_add, Nat.add_sub_cancel' hmore.le]
  rw [hsplit] at hnearest
  have hlarge := hd.pow_le
  rw [← hmost] at hlarge
  generalize (d.significand * unitsPerOne / 10 ^ most : ℚ) = w at *
  have hpositive : 0 ≤ w := by linarith
  have hmuch := hoff.le_of_two hpositive
  have hcount := (hpnearest.off_of_small (by linarith)).trans hoff
  -- from the first octave on the quotient in between is a large one too
  have hbetween : octave ≤ r → octave ≤ p.val := fun hge => by
    have hwhole := hnearest.pow_le_of_div hge (Nat.sub_pos_of_lt hmore)
    refine hpnearest.rank_le ?_
    rw [units_of_le le_rfl, octave_cast]
    linarith
  obtain ⟨habove, hbelow⟩ := hnearest.near_of_off hr hqnearest (hstep hpositive hcount) fun hge =>
    hstep hpositive ((hpnearest.off (hbetween hge)).trans hoff)
  refine ⟨q, hworked, hqfinite, habove, hbelow, fun hshort => ?_⟩
  have := hshort.2
  omega

/-- **A power that is not negative** is a factor. -/
theorem Near.nearby_of_nonneg (hd : Near r d) (hr : 0 < r) (he : 0 ≤ d.exponent)
    (hle : d.exponent ≤ 308) (hfinite : d.workedOut.isInfinite = false) :
    ∃ q : Rank, d.workedOut = .signed false q ∧ Nearby d r q.val := by
  obtain ⟨a, ha, hafinite, -, haoff, haexact⟩ := hd.exists_ofNat
  obtain ⟨k, hk⟩ := Int.eq_ofNat_of_zero_le he
  have hlarge : 10 ^ k ≤ 10 ^ 308 := pow_le_pow_right₀ (by decide) (by omega)
  obtain ⟨b, hb, hbfinite, -, hboff, hbexact⟩ :=
    Binary64.exists_ofNat (Nat.pow_pos (by decide)) hlarge
  push_cast at hboff hbexact
  have hproduct : d.workedOut = (Binary64.signed false a).mul (.signed false b) := by
    rw [workedOut, if_neg (Int.not_lt.2 he), ha, ← hb, hk]
    rfl
  rw [hproduct] at hfinite ⊢
  obtain ⟨q, hq, hqfinite, hqnearest⟩ := Binary64.exists_mul hafinite hbfinite hfinite
  have hone : (0 : ℚ) < unitsPerOne := Nat.cast_pos.2 unitsPerOne_pos
  have hdigits : (0 : ℚ) ≤ d.significand * unitsPerOne := by exact_mod_cast Nat.zero_le _
  have hpower : (0 : ℚ) ≤ 10 ^ k * unitsPerOne := mul_nonneg (pow_nonneg (by norm_num) k) hone.le
  have hself : (d.significand * unitsPerOne * (10 ^ k * unitsPerOne) / unitsPerOne : ℚ) =
      d.value * unitsPerOne := by
    rw [value, hk, zpow_natCast]
    field_simp
  have hvalue : 0 ≤ d.value * unitsPerOne :=
    hself ▸ div_nonneg (mul_nonneg hdigits hpower) hone.le
  have hoff := (haoff.mul hboff hdigits hpower).div (Off.refl (unitsPerOne : ℚ))
    (mul_nonneg hdigits hpower) hone
  rw [hself] at hoff
  obtain ⟨habove, hbelow⟩ := hd.nearest.near_of_off hr hqnearest (hoff.mono hvalue (by decide))
    fun _ => hoff.mono hvalue (by decide)
  refine ⟨q, hq, hqfinite, habove, hbelow, fun hshort => ?_⟩
  obtain ⟨p, hp⟩ := Binary64.exists_units_ten_pow (show k ≤ 22 by have := hshort.2; omega)
  rw [haexact hshort, hbexact p hp, hself] at hqnearest
  exact hqnearest.unique hd.nearest

/-- **What is worked out of the decimal in the text of a level.** -/
theorem exists_workedOut_writtenFor (hr : r < infiniteRank) :
    ∃ q : Rank, (writtenFor r).workedOut = .signed false q ∧ Nearby (writtenFor r) r q.val := by
  rcases Nat.eq_zero_or_pos r with rfl | hpos
  · exact ⟨Rank.clamp 0, by decide +kernel, by decide, by decide, by decide, fun _ => rfl⟩
  · rcases lt_or_ge (writtenFor r).exponent 0 with he | he
    · have hnear : Near r (writtenFor r) := by
        rw [writtenFor, if_neg hpos.ne']
        exact (near_shortest hpos).written
      rcases Nat.lt_or_ge 308 (writtenFor r).exponent.natAbs with hlt | hle
      · exact hnear.nearby_of_gt hpos he hlt
      · exact hnear.nearby_of_le hpos he hle
    · have hself := (writtenFor_of_nonneg he).2
      rw [hself] at he ⊢
      have hnear := near_shortest hpos
      refine hnear.nearby_of_nonneg hpos he (hnear.toNat_le hr he).2 ?_
      rw [workedOut, if_neg (Int.not_lt.2 he)]
      exact isInfinite_mul_shortest hpos hr he

end Decimal

end Telemetry
