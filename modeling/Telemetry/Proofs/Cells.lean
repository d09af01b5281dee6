import Mathlib
import Telemetry.Store.Tables
import Telemetry.Proofs.Ranks

/-!
# What a column makes of metrics

A column of doubles stores a double as a whole number where that loses nothing and gives back a
double, so the only thing lost is the sign of zero. A column of whole numbers stores a count as
it is, and the expression that adds to it stays a whole number: both of its tests are made on
differences that fit 64 bits, and where neither applies the sum fits too.

* `Leaning.store_double_real`: doubles;
* `raised_integer`: counts, added and cut at the ends of the range.
-/

namespace Telemetry

theorem Binary64.settled_of_ne {x : Binary64} (h : x ≠ .negZero) : x.settled = x := if_neg h

/-- **A column of doubles** gives back what was put into it, with minus zero taken for zero. -/
theorem Leaning.store_double_real (x : Binary64) :
    Leaning.double.store (.real x) = .real x.settled := by
  show (Cell.wholeIfExact (.real x)).asDouble = _
  rw [Cell.wholeIfExact]
  cases hn : x.truncate with
  | none =>
    have hne : x ≠ .negZero := by
      rintro rfl
      cases hn
    rw [Binary64.settled_of_ne hne]
    rfl
  | some n =>
    simp only
    split
    · rename_i h
      obtain ⟨hwhole, hlo, hhi⟩ := h
      have hback : (Int64.ofInt n).toInt = n :=
        Int64.toInt_ofInt_of_le (Int.le_of_lt hlo) (Int.lt_of_lt_of_le hhi (by decide))
      show Cell.real (Binary64.ofInt64 (Int64.ofInt n)) = _
      rw [Binary64.ofInt64, hback, Binary64.ofInt_truncate hn hwhole]
    · rename_i h
      have hne : x ≠ .negZero := by
        rintro rfl
        have hzero : Binary64.negZero.truncate = some 0 := by decide +kernel
        obtain rfl : 0 = n := Option.some.inj (hzero.symm.trans hn)
        exact h ⟨by decide +kernel, by decide, by decide⟩
      rw [Binary64.settled_of_ne hne]
      rfl

/-! ### Whole numbers -/

/-- A difference that fits is whole. -/
theorem Cell.sub_integer {m n : Int64} (h : Int64.minValue.toInt ≤ m.toInt - n.toInt ∧
    m.toInt - n.toInt ≤ Int64.maxValue.toInt) :
    (Cell.integer m).sub (.integer n) = .integer (Int64.ofInt (m.toInt - n.toInt)) := if_pos h

/-- Whole numbers are compared as such. -/
theorem Cell.lt_integer (m n : Int64) :
    (Cell.integer m).lt (.integer n) = true ↔ m.toInt < n.toInt := by
  show decide (m < n) = true ↔ _
  rw [decide_eq_true_iff, Int64.lt_iff_toInt_lt]

theorem toInt_ofInt_of_fits {n : Int} (hlo : Int64.minValue.toInt ≤ n)
    (hhi : n ≤ Int64.maxValue.toInt) : (Int64.ofInt n).toInt = n :=
  Int64.toInt_ofInt_of_le hlo (Int.lt_of_le_of_lt hhi (by decide))

theorem addClamped_of_lt {a b : Int64} (h : Int64.maxValue.toInt < a.toInt + b.toInt) :
    addClamped a b = Int64.maxValue := by
  have hlo : Int64.minValue.toInt ≤ a.toInt + b.toInt :=
    Int.le_trans (by decide) (Int.le_of_lt h)
  rw [addClamped, Int64.ofIntClamp, dif_pos hlo, dif_neg (Int.not_le.2 h)]

theorem addClamped_of_gt {a b : Int64} (h : a.toInt + b.toInt < Int64.minValue.toInt) :
    addClamped a b = Int64.minValue := by
  rw [addClamped, Int64.ofIntClamp, dif_neg (Int.not_le.2 h)]

theorem addClamped_of_fits {a b : Int64} (hlo : Int64.minValue.toInt ≤ a.toInt + b.toInt)
    (hhi : a.toInt + b.toInt ≤ Int64.maxValue.toInt) :
    addClamped a b = Int64.ofInt (a.toInt + b.toInt) := by
  rw [addClamped, Int64.ofIntClamp, dif_pos hlo, dif_pos hhi]
  rfl

/-- The test at the upper end: less than `b` is left up to it. -/
theorem upperTest (a b : Int64) :
    ((Cell.integer 0).lt (.integer b) &&
      ((Cell.integer Int64.maxValue).sub (.integer b)).lt (.integer a)) = true ↔
        Int64.maxValue.toInt < a.toInt + b.toInt := by
  have hahi := a.toInt_le
  have hbhi := b.toInt_le
  have hzero : (0 : Int64).toInt = 0 := rfl
  rw [Bool.and_eq_true, Cell.lt_integer, hzero]
  by_cases hb : 0 < b.toInt
  · have hmin : Int64.minValue.toInt ≤ 0 := by decide
    -- what is taken from the greatest number is positive, so the difference fits
    have hfit : Int64.minValue.toInt ≤ Int64.maxValue.toInt - b.toInt ∧
        Int64.maxValue.toInt - b.toInt ≤ Int64.maxValue.toInt := by omega
    rw [Cell.sub_integer hfit, Cell.lt_integer, toInt_ofInt_of_fits hfit.1 hfit.2]
    omega
  · constructor
    · exact fun h => absurd h.1 hb
    · intro h
      omega

/-- The test at the lower end: less than `-b` is left down to it. -/
theorem lowerTest (a b : Int64) :
    ((Cell.integer b).lt (.integer 0) &&
      (Cell.integer a).lt ((Cell.integer Int64.minValue).sub (.integer b))) = true ↔
        a.toInt + b.toInt < Int64.minValue.toInt := by
  have halo := a.minValue_le_toInt
  have hblo := b.minValue_le_toInt
  have hzero : (0 : Int64).toInt = 0 := rfl
  rw [Bool.and_eq_true, Cell.lt_integer, hzero]
  by_cases hb : b.toInt < 0
  · have hmax : 0 ≤ Int64.maxValue.toInt := by decide
    have hfit : Int64.minValue.toInt ≤ Int64.minValue.toInt - b.toInt ∧
        Int64.minValue.toInt - b.toInt ≤ Int64.maxValue.toInt := by omega
    rw [Cell.sub_integer hfit, Cell.lt_integer, toInt_ofInt_of_fits hfit.1 hfit.2]
    omega
  · constructor
    · exact fun h => absurd h.1 hb
    · intro h
      omega

/-- **The expression that adds to a counter** gives the sum, cut at the ends of the range, as a
whole number. -/
theorem raised_integer (a b : Int64) :
    raised (.integer a) (.integer b) = .integer (addClamped a b) := by
  unfold raised
  simp only [upperTest, lowerTest]
  split
  · rename_i hover
    rw [addClamped_of_lt hover]
  · rename_i hover
    split
    · rename_i hunder
      rw [addClamped_of_gt hunder]
    · rename_i hunder
      have hlo := Int.not_lt.1 hunder
      have hhi := Int.not_lt.1 hover
      rw [Cell.add_integer ⟨hlo, hhi⟩, addClamped_of_fits hlo hhi]

end Telemetry
