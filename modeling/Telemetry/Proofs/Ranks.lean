import Mathlib
import Telemetry.Number.Binary64

/-!
# Ranks and their values

Ranks number the non-negative doubles in order, and `units` gives their values. It is strictly
increasing, and `floorRank` undoes it; so a number of units that is the value of a rank is
rounded to that rank, with no tie and no error. A whole double is therefore the double nearest
to the whole number that it is.

* `units_lt_succ`, `floorRank_units`: the numbering is in order and is undone;
* `nearestRank_eq`: exact values are rounded to themselves;
* `Binary64.ofInt_truncate`: a whole double comes back from its whole number.
-/

namespace Telemetry

theorem octave_pos : 0 < octave := by decide

theorem unitsPerOne_pos : 0 < unitsPerOne := Nat.pos_of_ne_zero (by decide +kernel)

/-- Below the first octave a rank is its own value. -/
theorem units_of_lt {r : Nat} (hr : r < octave) : units r = r := if_pos hr

/-- The value of the rank that stands `f` places behind the beginning of an octave. -/
theorem units_octave (e f : Nat) (hf : f < octave) :
    units ((e + 1) * octave + f) = (octave + f) * Nat.pow 2 e := by
  have hle : octave ≤ (e + 1) * octave + f := by
    have hone : octave ≤ (e + 1) * octave := Nat.le_mul_of_pos_left octave (Nat.succ_pos e)
    omega
  have hdiv : ((e + 1) * octave + f) / octave = e + 1 := by
    rw [Nat.add_comm, Nat.add_mul_div_right _ _ octave_pos, Nat.div_eq_of_lt hf, Nat.zero_add]
  have hmod : ((e + 1) * octave + f) % octave = f := by
    rw [Nat.add_comm, Nat.add_mul_mod_self_right, Nat.mod_eq_of_lt hf]
  rw [units, if_neg (Nat.not_lt.2 hle), hdiv, hmod, Nat.add_sub_cancel]

/-- The value behind that of a rank in an octave, be it in the same octave or in the next. -/
theorem units_octave_succ (e f : Nat) (hf : f < octave) :
    units ((e + 1) * octave + f + 1) = (octave + f + 1) * Nat.pow 2 e := by
  by_cases hnext : f + 1 < octave
  · rw [Nat.add_assoc, units_octave e (f + 1) hnext, Nat.add_assoc]
  · have hsucc : (e + 1) * octave + f + 1 = (e + 1 + 1) * octave + 0 := by
      rw [Nat.succ_mul (e + 1)]
      omega
    have hdouble : octave + f + 1 = octave * 2 := by omega
    have hpow : Nat.pow 2 (e + 1) = 2 * Nat.pow 2 e := Nat.pow_succ'
    rw [hsucc, units_octave (e + 1) 0 octave_pos, hdouble, hpow, Nat.add_zero, Nat.mul_assoc]

/-- Every rank is below the first octave or stands in one. -/
theorem rank_cases (r : Nat) :
    r < octave ∨ ∃ e f, f < octave ∧ r = (e + 1) * octave + f := by
  by_cases hr : r < octave
  · exact .inl hr
  · refine .inr ⟨r / octave - 1, r % octave, Nat.mod_lt _ octave_pos, ?_⟩
    have hpos : 0 < r / octave := Nat.div_pos (Nat.not_lt.1 hr) octave_pos
    rw [Nat.sub_add_cancel hpos, Nat.mul_comm]
    exact (Nat.div_add_mod r octave).symm

/-- **Values grow with their ranks.** -/
theorem units_lt_succ (r : Nat) : units r < units (r + 1) := by
  rcases rank_cases r with hr | ⟨e, f, hf, rfl⟩
  · have hself := units_of_lt hr
    rw [hself]
    by_cases hnext : r + 1 < octave
    · rw [units_of_lt hnext]
      exact Nat.lt_succ_self r
    · have hr' : r + 1 = (0 + 1) * octave + 0 := by omega
      rw [hr', units_octave 0 0 octave_pos]
      show r < (octave + 0) * 1
      omega
  · rw [units_octave_succ e f hf, units_octave e f hf]
    exact Nat.mul_lt_mul_of_pos_right (Nat.lt_succ_self _) (Nat.two_pow_pos e)

/-- **The rank of a value is found again from its units.** -/
theorem floorRank_units (r : Nat) : floorRank (units r) = r := by
  rcases rank_cases r with hr | ⟨e, f, hf, rfl⟩
  · have hself := units_of_lt hr
    have hlog : r.log2 - 52 = 0 := by
      rcases Nat.eq_zero_or_pos r with rfl | hpos
      · rfl
      · have : r.log2 < 52 := (Nat.log2_lt hpos.ne').2 hr
        omega
    rw [hself, floorRank, hlog]
    show 0 * octave + r / 1 = r
    omega
  · have hlog : ((octave + f) * Nat.pow 2 e).log2 = 52 + e := by
      have hpos : (octave + f) * Nat.pow 2 e ≠ 0 :=
        Nat.mul_ne_zero (by have := octave_pos; omega) (Nat.two_pow_pos e).ne'
      rw [Nat.log2_eq_iff hpos]
      have h52 : octave = 2 ^ 52 := rfl
      constructor
      · rw [Nat.pow_add]
        exact Nat.mul_le_mul_right _ (by omega)
      · rw [show 52 + e + 1 = 53 + e by omega, Nat.pow_add]
        exact Nat.mul_lt_mul_of_pos_right (by omega) (Nat.two_pow_pos e)
    have hdiv : (octave + f) * Nat.pow 2 e / Nat.pow 2 e = octave + f :=
      Nat.mul_div_cancel _ (Nat.two_pow_pos e)
    rw [units_octave e f hf, floorRank, hlog, Nat.add_sub_cancel_left, hdiv, Nat.succ_mul,
      Nat.add_assoc]

/-! ### Rounding what needs none -/

/-- **The value of a finite rank is rounded to that rank.** -/
theorem nearestRank_eq {num den r : Nat} (hr : r < infiniteRank) (hden : 0 < den)
    (h : num * unitsPerOne = units r * den) : nearestRank num den = r := by
  have hlow : floorRank (num * unitsPerOne / den) = r := by
    rw [h, Nat.mul_div_cancel _ hden, floorRank_units]
  have hmiddle : 2 * (num * unitsPerOne) < den * (units r + units (r + 1)) := by
    rw [h]
    have := Nat.mul_lt_mul_of_pos_left (units_lt_succ r) hden
    calc 2 * (units r * den) = den * units r + den * units r := by ring
      _ < den * units r + den * units (r + 1) := by omega
      _ = den * (units r + units (r + 1)) := by ring
  unfold nearestRank
  simp only [hlow]
  rw [if_neg (Nat.not_le.2 hr), if_pos hmiddle]

theorem Rank.clamp_eq (r : Rank) : Rank.clamp r.val = r := by
  apply Fin.ext
  exact Nat.min_eq_left (Nat.le_of_lt_succ r.isLt)

namespace Binary64

/-- A double with minus zero taken for zero. -/
def settled (x : Binary64) : Binary64 := if x = negZero then zero else x

/-- Nothing but the sign of a zero is settled. -/
theorem numEq_settled {x : Binary64} (hx : x.isNaN = false) : x.settled.numEq x = true := by
  unfold settled
  split
  · rename_i hzero
    subst hzero
    rfl
  · rw [numEq_self, hx]
    rfl

/-- A double is zero when it has no units. -/
theorem units_eq_zero_iff {r : Nat} : units r = 0 ↔ r = 0 := by
  constructor
  · intro h
    have := floorRank_units r
    rw [h] at this
    exact this.symm.trans rfl
  · rintro rfl
    rfl

/-- The value of a whole double is a number of whole units. -/
theorem units_of_isWhole {s : Bool} {r : Rank} (h : (signed s r).isWhole = true) :
    r.val < infiniteRank ∧ ∃ k, units r.val = k * unitsPerOne := by
  rw [isWhole, Bool.and_eq_true, bne_iff_ne, beq_iff_eq] at h
  obtain ⟨hfinite, hmod⟩ := h
  have := r.isLt
  exact ⟨by omega, _, (Nat.div_mul_cancel (Nat.dvd_of_mod_eq_zero hmod)).symm⟩

/-- A double is cut to the whole number of its units. -/
theorem truncate_of_units {s : Bool} {r : Rank} {k : Nat} (hr : r.val < infiniteRank)
    (hk : units r.val = k * unitsPerOne) :
    (signed s r).truncate = some (if s then -(k : Int) else k) := by
  rw [truncate, if_neg hr.ne, hk, Nat.mul_div_cancel _ unitsPerOne_pos]

/-- The double nearest to a number of whole units is the one with that value. -/
theorem ofFraction_of_units (s : Bool) {r : Rank} {k : Nat} (hr : r.val < infiniteRank)
    (hk : units r.val = k * unitsPerOne) : ofFraction s k 1 = signed s r := by
  have hround : nearestRank k 1 = r.val := nearestRank_eq hr Nat.one_pos (by rw [hk, Nat.mul_one])
  rw [ofFraction, hround, Rank.clamp_eq]

/-- **A whole double comes back from its whole number**, but for the sign of zero. -/
theorem ofInt_truncate {x : Binary64} {n : Int} (hn : x.truncate = some n)
    (hx : x.isWhole = true) : ofInt n = x.settled := by
  cases x with
  | nan => cases hn
  | signed s r =>
    obtain ⟨hr, k, hk⟩ := units_of_isWhole hx
    obtain rfl : (if s then -(k : Int) else k) = n :=
      Option.some.inj ((truncate_of_units hr hk).symm.trans hn)
    rcases Nat.eq_zero_or_pos k with rfl | hkpos
    · -- both zeros have the whole number zero
      have hr0 : r = Rank.clamp 0 := by
        rw [← Rank.clamp_eq r, units_eq_zero_iff.1 (hk.trans (Nat.zero_mul _))]
      subst hr0
      cases s <;> decide +kernel
    · have hsettled : (signed s r).settled = signed s r := by
        refine if_neg fun hc => ?_
        injection hc with _ hc
        have hunits := units_eq_zero_iff.2 (congrArg Fin.val hc)
        have := Nat.mul_pos hkpos unitsPerOne_pos
        omega
      rw [hsettled]
      cases s
      · show ofFraction ((k : Int) < 0) (k : Int).natAbs 1 = _
        rw [Int.natAbs_natCast, ofFraction_of_units _ hr hk]
        simp
      · show ofFraction (-(k : Int) < 0) (-(k : Int)).natAbs 1 = _
        rw [Int.natAbs_neg, Int.natAbs_natCast, ofFraction_of_units _ hr hk]
        simp [hkpos]

end Binary64

end Telemetry
