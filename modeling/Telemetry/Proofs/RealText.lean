import Mathlib
import Telemetry.Proofs.JsonNumerals
import Telemetry.Proofs.Shortest

/-!
# The text of every finite double can be read

A reader works a decimal out in doubles, and what it finds need not be the double that was
written. But it finds a double. The digits before and behind the point fit its significand, for
they are those of the shortest decimal and perhaps a few zeros. Where the point stands among them,
what is left of the power of ten is negative and the reader divides, which never fails. Where
there is an exponent, the power is that of the shortest decimal, and a product with that one stays
finite.

* `Numeral.decimal`, `Numeral.Fits`: the decimal that a numeral writes, and when it is worked out
  from that one;
* `Decimal.written`, `exists_numeral_decimalChars`: the text of a decimal is a numeral that fits;
* `Decimal.workedOut`, `scaled_writtenFor`: what is worked out where a double has been written;
* `readReal_realChars`: every finite double;
* `Binary64.reread`, `isSome_reread`: the double that is found.
-/

namespace Telemetry.Json

/-! ### The decimal of a numeral -/

/-- The number that an exponent writes. -/
def Exponent.value (e : Exponent) : Int :=
  if e.up then digitsBehind 0 e.digits.list else -(digitsBehind 0 e.digits.list : Int)

/-- **The decimal that a numeral writes**, but for its sign: all its digits, and the place of the
last one. -/
def Numeral.decimal (n : Numeral) : Decimal :=
  ⟨digitsBehind 0 (n.whole.list ++ (n.fraction.map Digits.list).getD []),
    (n.exponent.map Exponent.value).getD 0 -
      ((n.fraction.map Digits.list).getD []).length⟩

theorem digitsBehind_append (m : Nat) (ds es : List Nat) :
    digitsBehind m (ds ++ es) = digitsBehind (digitsBehind m ds) es := List.foldl_append

/-- The digits of an exponent are taken, as many as 32 bits hold. -/
theorem gatherExponent_digits {ds : List Nat} (hds : ∀ x ∈ ds, x < 10) (e : Nat)
    (hlt : digitsBehind e ds < Nat.pow 2 31) {tail : Octets}
    (htail : startsWithDigit tail = false) :
    gatherExponent e (octetsOfChars (ds.map Nat.digitChar) ++ tail) =
      (some (digitsBehind e ds), tail) := by
  induction ds generalizing e with
  | nil =>
    cases ht : tail with
    | nil => rfl
    | cons b behind =>
      show gatherExponent e (b :: behind) = _
      rw [gatherExponent, octetDigit?_head htail ht]
      rfl
  | cons d ds ih =>
    have hd : d < 10 := hds d List.mem_cons_self
    have hstep : 10 * e + d < Nat.pow 2 31 := Nat.lt_of_le_of_lt (le_digitsBehind _ ds) hlt
    rw [List.map_cons, octetsOfChars_digits hd, List.cons_append, gatherExponent,
      octetDigit?_digitChar d hd]
    simp only
    rw [if_pos hstep]
    exact ih (fun x hx => hds x (List.mem_cons_of_mem d hx)) _ hlt

/-- An exponent that 32 bits hold is added to the power. -/
theorem readScaled_value (positive : Bool) (m : Nat) (power : Int) (e : Exponent)
    (hlt : digitsBehind 0 e.digits.list < Nat.pow 2 31) {rest : Octets} (hrest : Stops rest) :
    readScaled positive m power (octetsOfChars e.chars ++ rest) =
      scaled positive m (clampPower (power + e.value)) rest := by
  obtain ⟨capital, sign, list, hne, hdigits⟩ := e
  cases list with
  | nil => exact absurd rfl hne
  | cons d list =>
    have hd : d < 10 := hdigits d List.mem_cons_self
    have hself : digitsBehind 0 (d :: list) = digitsBehind d list := by
      simp [digitsBehind]
    rw [readScaled_exponent, Digits.chars, readExponent_cons positive m power _ hd,
      gatherExponent_digits (fun x hx => hdigits x (List.mem_cons_of_mem d hx)) d
        (hself ▸ hlt) hrest.1, Exponent.value, hself]
    simp only
    congr 2
    split
    · rfl
    · exact Int.sub_eq_add_neg

/-- **A numeral that fits**: its digits are a significand of 64 bits, its exponent has 32, and so
has the power of ten. It has a point or an exponent. -/
structure Numeral.Fits (n : Numeral) : Prop where
  /-- It is not read as a whole number. -/
  tail : n.fraction ≠ none ∨ n.exponent ≠ none
  /-- All its digits are taken. -/
  significand : n.decimal.significand < Nat.pow 2 64
  /-- And all those of its exponent. -/
  exponent : ∀ e, n.exponent = some e → digitsBehind 0 e.digits.list < Nat.pow 2 31
  /-- The power is not cut. -/
  power : -2147483648 ≤ n.decimal.exponent ∧ n.decimal.exponent ≤ 2147483647

/-- **Such a numeral is worked out** from the decimal that it writes. -/
theorem Numeral.Fits.readNumber_eq {n : Numeral} (h : n.Fits) (positive : Bool) {rest : Octets}
    (hrest : Stops rest) :
    readNumber positive (octetsOfChars n.unsignedChars ++ rest) =
      (scaled positive n.decimal.significand n.decimal.exponent rest).map
        fun p => (.real p.1, p.2) := by
  obtain ⟨htail, hsignificand, hexponent, hmin, hmax⟩ := h
  have hsplit : n.decimal.significand =
      digitsBehind n.magnitude ((n.fraction.map Digits.list).getD []) := digitsBehind_append ..
  have hwhole : n.magnitude < Nat.pow 2 64 :=
    (le_digitsBehind _ _).trans_lt (hsplit ▸ hsignificand)
  have hread : readTail positive n.magnitude 0
      (octetsOfChars (tailChars n.fraction n.exponent) ++ rest) =
        scaled positive n.decimal.significand n.decimal.exponent rest := by
    rw [decimal] at hmin hmax
    cases hf : n.fraction with
    | none =>
      rw [readTail_none positive _ 0 n.exponent hrest, hsplit, decimal, hf]
      rw [hf] at hmin hmax
      cases he : n.exponent with
      | none =>
        rcases htail with h | h
        · exact absurd hf h
        · exact absurd he h
      | some e =>
        rw [he] at hmin hmax
        rw [Option.map_some, Option.getD_some,
          readScaled_value positive _ 0 e (hexponent e he) hrest]
        congr 1
        simp only [Option.map_some, Option.getD_some, Option.map_none, Option.getD_none,
          List.length_nil] at hmin hmax ⊢
        rw [clampPower]
        omega
    | some fs =>
      rw [hf] at hsplit hmin hmax
      rw [readTail_some, readFraction_digits positive _ 0 fs (hsplit ▸ hsignificand)
        (startsWithDigit_exponent n.exponent hrest), hsplit, decimal, hf]
      cases he : n.exponent with
      | none =>
        show readScaled positive _ _ rest = _
        rw [readScaled_of_stops positive _ _ hrest]
        rfl
      | some e =>
        rw [he] at hmin hmax
        rw [Option.map_some, Option.getD_some,
          readScaled_value positive _ _ e (hexponent e he) hrest]
        congr 1
        simp only [Option.map_some, Option.getD_some] at hmin hmax ⊢
        rw [clampPower]
        omega
  rw [unsignedChars, octetsOfChars_append, List.append_assoc,
    n.readNumber_whole positive hwhole (startsWithDigit_tail _ _ hrest), readWhole,
    if_pos (startsTail_tailChars htail rest), hread]

/-! ### The text of a decimal -/

/-- A natural number has digits, with no zero in front unless it is zero. -/
theorem exists_digits (n : Nat) : ∃ ds : Digits, ds.chars = Nat.toDigits 10 n ∧
    digitsBehind 0 ds.list = n ∧ (ds.list.head? = some 0 → ds.list = [0]) := by
  rcases Nat.eq_zero_or_pos n with rfl | hpos
  · exact ⟨⟨[0], by decide, by decide⟩, rfl, rfl, fun _ => rfl⟩
  · obtain ⟨d, ds, hd0, hd, hds, htext, rfl⟩ := toDigits_eq_cons hpos
    refine ⟨⟨d :: ds, List.cons_ne_nil d ds, List.forall_mem_cons.2 ⟨hd, hds⟩⟩, htext.symm, ?_, ?_⟩
    · simp [digitsBehind]
    · intro h
      exact absurd (Option.some.inj h) hd0.ne'

/-- A whole number has an exponent, with a sign in any case. -/
theorem exists_exponent (e : Int) : ∃ x : Exponent,
    x.chars = 'e' :: (if e < 0 then '-' else '+') :: Nat.toDigits 10 e.natAbs ∧ x.value = e ∧
      digitsBehind 0 x.digits.list = e.natAbs := by
  obtain ⟨ds, hchars, hvalue, -⟩ := exists_digits e.natAbs
  by_cases hneg : e < 0
  · refine ⟨⟨false, some false, ds⟩, ?_, ?_, hvalue⟩
    · rw [if_pos hneg, ← hchars]
      rfl
    · show -(digitsBehind 0 ds.list : Int) = e
      omega
  · refine ⟨⟨false, some true, ds⟩, ?_, ?_, hvalue⟩
    · rw [if_neg hneg, ← hchars]
      rfl
    · show (digitsBehind 0 ds.list : Int) = e
      omega

/-- Zeros at the end of digits are a power of ten. -/
theorem digitsBehind_replicate (m zeros : Nat) :
    digitsBehind m (List.replicate zeros 0) = m * 10 ^ zeros := by
  induction zeros generalizing m with
  | zero => rw [Nat.pow_zero, Nat.mul_one]; rfl
  | succ zeros ih =>
    show digitsBehind (10 * m + 0) (List.replicate zeros 0) = _
    rw [ih, Nat.pow_succ']
    ring

/-- Zeros in front of digits do not count. -/
theorem digitsBehind_zeros (zeros : Nat) (ds : List Nat) :
    digitsBehind 0 (List.replicate zeros 0 ++ ds) = digitsBehind 0 ds := by
  induction zeros with
  | zero => rfl
  | succ zeros ih => exact ih

/-- Only zeros stand in front of the point, and perhaps some behind it. -/
theorem pointAfter_of_nonpos {k : Int} (hk : k ≤ 0) (ds : List Nat) {wholePoint : Bool} :
    FloatStyle.pointAfter k (ds.map Nat.digitChar) wholePoint =
      '0' :: '.' :: (List.replicate (-k).toNat 0 ++ ds).map Nat.digitChar := by
  rw [FloatStyle.pointAfter, if_pos hk, List.map_append, List.map_replicate]
  rfl

/-- All the digits stand in front of the point, and a zero behind it if it is written. -/
theorem pointAfter_of_length_le {k : Nat} (hk : 0 < k) {ds : List Nat} (hds : ds.length ≤ k)
    (wholePoint : Bool) :
    FloatStyle.pointAfter k (ds.map Nat.digitChar) wholePoint =
      (ds ++ List.replicate (k - ds.length) 0).map Nat.digitChar ++
        if wholePoint then '.' :: [0].map Nat.digitChar else [] := by
  have hdrop : (ds.map Nat.digitChar).drop k = [] :=
    List.drop_eq_nil_of_le (by rwa [List.length_map])
  have htake : (ds.map Nat.digitChar).take k = ds.map Nat.digitChar :=
    List.take_of_length_le (by rwa [List.length_map])
  rw [FloatStyle.pointAfter, if_neg (by omega)]
  simp only
  rw [Int.toNat_natCast, hdrop, htake, List.length_map, List.map_append, List.map_replicate]
  cases wholePoint with
  | false => exact (List.append_nil _).symm
  | true => rfl

/-- The point stands among the digits. -/
theorem pointAfter_of_lt_length {k : Nat} (hk : 0 < k) {ds : List Nat} (hds : k < ds.length)
    {wholePoint : Bool} :
    FloatStyle.pointAfter k (ds.map Nat.digitChar) wholePoint =
      (ds.take k).map Nat.digitChar ++ '.' :: (ds.drop k).map Nat.digitChar := by
  have hnone : k - (ds.map Nat.digitChar).length = 0 := by
    rw [List.length_map]
    omega
  rw [FloatStyle.pointAfter, if_neg (by omega)]
  simp only
  rw [Int.toNat_natCast, hnone, List.replicate_zero, List.append_nil, ← List.map_take,
    ← List.map_drop]
  cases hdrop : ds.drop k with
  | nil =>
    have hle := List.drop_eq_nil_iff.1 hdrop
    omega
  | cons f fs => rfl

end Telemetry.Json

namespace Telemetry

/-- **A decimal as its text has it**: a whole number that is written out in full has a zero behind
its point, and those in front of it. -/
def Decimal.written (d : Decimal) : Decimal :=
  if 0 ≤ d.exponent ∧ d.exponent + digitCount d.significand ≤ 16 then
    ⟨d.significand * 10 ^ (d.exponent.toNat + 1), -1⟩
  else d

/-- It is the same number. -/
theorem Decimal.value_written (d : Decimal) : d.written.value = d.value := by
  rw [Decimal.written]
  split
  · rename_i hfull
    rw [Decimal.value_of_nonneg hfull.1, Decimal.value]
    push_cast
    rw [zpow_neg_one, pow_succ]
    ring
  · rfl

/-- It still has seventeen digits at most, or is a power of ten. -/
theorem Decimal.significand_written_le (d : Decimal) (h : d.significand ≤ 10 ^ 17) :
    d.written.significand ≤ 10 ^ 17 := by
  rw [Decimal.written]
  split
  · rename_i hfull
    obtain ⟨he, hdigits⟩ := hfull
    obtain ⟨k, hk, hlt, -⟩ := digitCount_spec d.significand
    calc d.significand * 10 ^ (d.exponent.toNat + 1)
        ≤ 10 ^ (k + 1) * 10 ^ (d.exponent.toNat + 1) := Nat.mul_le_mul_right _ hlt.le
      _ = 10 ^ (k + 1 + (d.exponent.toNat + 1)) := (Nat.pow_add ..).symm
      _ ≤ 10 ^ 17 := Nat.pow_le_pow_right (by decide) (by omega)
  · exact h

/-- Its last digit stands where it did, or just behind the point. -/
theorem Decimal.exponent_written (d : Decimal) :
    d.written.exponent = d.exponent ∨ d.written.exponent = -1 := by
  rw [Decimal.written]
  split
  · exact .inr rfl
  · exact .inl rfl

namespace Json

/-- A zero on top of digits does not count. -/
theorem digitsBehind_zero_cons (ds : List Nat) : digitsBehind 0 (0 :: ds) = digitsBehind 0 ds := by
  simp [digitsBehind]

section

variable {a : Nat} {ds : List Nat} (ha0 : 0 < a) (hdigits : ∀ x ∈ a :: ds, x < 10)

include ha0 hdigits

/-- Digits with a point are a numeral. If they all stand in front of the point, it has the zeros up
to the point and the one behind it as well. -/
theorem exists_numeral_pointAfter (k : Int) :
    ∃ n : Numeral, n.unsignedChars = FloatStyle.pointAfter k ((a :: ds).map Nat.digitChar) true ∧
      n.fraction ≠ none ∧ n.exponent = none ∧
      n.decimal = if (ds.length + 1 : Nat) ≤ k then
          ⟨digitsBehind a ds * 10 ^ ((k - (ds.length + 1 : Nat)).toNat + 1), -1⟩
        else ⟨digitsBehind a ds, k - (ds.length + 1 : Nat)⟩ := by
  have hself : digitsBehind 0 (a :: ds) = digitsBehind a ds := by
    simp [digitsBehind]
  have hzeros : ∀ n, ∀ x ∈ List.replicate n 0, x < 10 := fun n x hx => by
    rw [List.eq_of_mem_replicate hx]
    decide
  have hhead : ∀ {ws : List Nat}, (a :: ws).head? = some 0 → a :: ws = [0] := fun h =>
    absurd (Option.some.inj h) ha0.ne'
  by_cases hk0 : k ≤ 0
  · refine ⟨⟨false, ⟨[0], by decide, by decide⟩,
      some ⟨List.replicate (-k).toNat 0 ++ a :: ds, by simp,
        List.forall_mem_append.2 ⟨hzeros _, hdigits⟩⟩, none, fun _ => rfl⟩, ?_, by simp, rfl, ?_⟩
    · rw [pointAfter_of_nonpos hk0]
      exact congrArg (fun cs => '0' :: '.' :: cs) (List.append_nil _)
    · rw [if_neg (by omega), Numeral.decimal]
      simp only [Option.map_some, Option.map_none, Option.getD_some, Option.getD_none,
        List.singleton_append, digitsBehind_zero_cons, digitsBehind_zeros, hself,
        List.length_append, List.length_replicate, List.length_cons]
      congr 1
      omega
  · obtain ⟨j, rfl⟩ : ∃ j : Nat, k = (j + 1 : Nat) := ⟨k.toNat - 1, by omega⟩
    by_cases hj : (a :: ds).length ≤ j + 1
    · have hall : ∀ x ∈ a :: (ds ++ List.replicate (j + 1 - (a :: ds).length) 0), x < 10 :=
        List.forall_mem_append.2 ⟨hdigits, hzeros _⟩
      refine ⟨⟨false, ⟨a :: (ds ++ List.replicate (j + 1 - (a :: ds).length) 0),
        List.cons_ne_nil _ _, hall⟩, some ⟨[0], by decide, by decide⟩, none, hhead⟩, ?_, by simp,
        rfl, ?_⟩
      · rw [pointAfter_of_length_le j.succ_pos hj, if_pos rfl]
        exact congrArg (_ ++ ·) (List.append_nil _)
      · have hlength : (ds.length + 1 : Nat) ≤ ((j + 1 : Nat) : Int) := by
          exact_mod_cast hj
        have hpower : (((j + 1 : Nat) : Int) - (ds.length + 1 : Nat)).toNat =
            j + 1 - (a :: ds).length := by
          rw [List.length_cons]
          omega
        rw [if_pos hlength, Numeral.decimal, hpower]
        have hvalue : digitsBehind 0
            (a :: (ds ++ List.replicate (j + 1 - (a :: ds).length) 0) ++ [0]) =
              digitsBehind a ds * 10 ^ (j + 1 - (a :: ds).length + 1) := by
          rw [← List.cons_append, digitsBehind_append, digitsBehind_append, hself,
            digitsBehind_replicate]
          show 10 * _ + 0 = _
          rw [Nat.pow_succ]
          ring
        simp only [Option.map_some, Option.map_none, Option.getD_some, Option.getD_none, hvalue]
        rfl
    · have hlt := Nat.not_le.1 hj
      have hne : ds.drop j ≠ [] := by
        rw [Ne, List.drop_eq_nil_iff]
        rw [List.length_cons] at hj
        omega
      refine ⟨⟨false, ⟨a :: ds.take j, List.cons_ne_nil _ _,
          fun x hx => hdigits x (List.mem_of_mem_take (i := j + 1) hx)⟩,
        some ⟨ds.drop j, hne, fun x hx => hdigits x (List.mem_of_mem_drop (i := j + 1) hx)⟩, none,
        hhead⟩, ?_, by simp, rfl, ?_⟩
      · rw [pointAfter_of_lt_length j.succ_pos hlt]
        exact congrArg (_ ++ ·) (List.append_nil _)
      · rw [List.length_cons] at hlt
        rw [if_neg (by omega), Numeral.decimal]
        simp only [Option.map_some, Option.map_none, Option.getD_some, Option.getD_none,
          List.cons_append, List.take_append_drop, hself, List.length_drop]
        congr 1
        omega

/-- Digits with an exponent are a numeral. -/
theorem exists_numeral_withExponent (k : Int) :
    ∃ n : Numeral, n.unsignedChars = FloatStyle.withExponent k ((a :: ds).map Nat.digitChar) ∧
      (∃ x, n.exponent = some x ∧ digitsBehind 0 x.digits.list = (k - 1).natAbs) ∧
      n.decimal = ⟨digitsBehind a ds, k - (ds.length + 1 : Nat)⟩ := by
  obtain ⟨x, hchars, hvalue, habs⟩ := exists_exponent (k - 1)
  have hself : digitsBehind 0 (a :: ds) = digitsBehind a ds := by
    simp [digitsBehind]
  obtain ⟨ha, hds⟩ := List.forall_mem_cons.1 hdigits
  have hone : ∀ x ∈ [a], x < 10 := fun x hx => (List.mem_singleton.1 hx) ▸ ha
  have hhead : [a].head? = some 0 → [a] = [0] := fun h => absurd (Option.some.inj h) ha0.ne'
  cases ds with
  | nil =>
    refine ⟨⟨false, ⟨[a], List.cons_ne_nil _ _, hone⟩, none, some x, hhead⟩, ?_, ⟨x, rfl, habs⟩, ?_⟩
    · show _ = [Nat.digitChar a] ++ _
      rw [← hchars]
      rfl
    · simp only [Numeral.decimal, Option.map_some, Option.map_none, Option.getD_some,
        Option.getD_none, hvalue, List.append_nil, hself, List.length_nil]
      congr 1
      omega
  | cons f fs =>
    refine ⟨⟨false, ⟨[a], List.cons_ne_nil _ _, hone⟩, some ⟨f :: fs, List.cons_ne_nil _ _, hds⟩,
      some x, hhead⟩, ?_, ⟨x, rfl, habs⟩, ?_⟩
    · show _ = (Nat.digitChar a :: '.' :: (f :: fs).map Nat.digitChar) ++ _
      rw [← hchars]
      rfl
    · simp only [Numeral.decimal, Option.map_some, Option.getD_some, hvalue, List.singleton_append,
        hself, List.length_cons]
      congr 1
      omega

end

/-- The text of a decimal is a numeral with a point or an exponent, and the exponent is small. -/
theorem exists_numeral_written {d : Decimal} (hpos : 0 < d.significand)
    (hle : d.significand ≤ 10 ^ 17) (hmin : -400 ≤ d.exponent) (hmax : d.exponent ≤ 400) :
    ∃ n : Numeral, n.unsignedChars = FloatStyle.record.decimalChars d ∧
      (n.fraction ≠ none ∨ n.exponent ≠ none) ∧
      (∀ x, n.exponent = some x → digitsBehind 0 x.digits.list ≤ 500) ∧ n.decimal = d.written := by
  obtain ⟨m, e⟩ := d
  obtain ⟨a, ds, ha0, ha, hds, htext, rfl⟩ := toDigits_eq_cons hpos
  simp only at hle hmin hmax
  have hdigits : ∀ x ∈ a :: ds, x < 10 := List.forall_mem_cons.2 ⟨ha, hds⟩
  have hcount : digitCount (digitsBehind a ds) = ds.length + 1 := by
    rw [digitCount, htext, List.length_cons, List.length_map]
  have hself : e + (ds.length + 1 : Nat) - (ds.length + 1 : Nat) = e := Int.add_sub_cancel ..
  have hstyle : FloatStyle.record.decimalChars ⟨digitsBehind a ds, e⟩ =
      if -4 ≤ e + (ds.length + 1 : Nat) ∧ e + (ds.length + 1 : Nat) ≤ 16
      then FloatStyle.pointAfter (e + (ds.length + 1 : Nat)) ((a :: ds).map Nat.digitChar) true
      else FloatStyle.withExponent (e + (ds.length + 1 : Nat)) ((a :: ds).map Nat.digitChar) := by
    rw [← hcount, List.map_cons, ← htext]
    rfl
  rw [hstyle, Decimal.written]
  simp only
  rw [hcount]
  by_cases hfull : -4 ≤ e + (ds.length + 1 : Nat) ∧ e + (ds.length + 1 : Nat) ≤ 16
  · obtain ⟨n, hchars, hfraction, hexponent, hdecimal⟩ :=
      exists_numeral_pointAfter ha0 hdigits (e + (ds.length + 1 : Nat))
    have hnone : ∀ x, n.exponent = some x → digitsBehind 0 x.digits.list ≤ 500 :=
      fun x hx => absurd (hexponent.symm.trans hx) (Option.some_ne_none x).symm
    rw [hself] at hdecimal
    rw [if_pos hfull]
    refine ⟨n, hchars, .inl hfraction, hnone, hdecimal.trans ?_⟩
    by_cases he : 0 ≤ e
    · rw [if_pos (by omega), if_pos ⟨he, hfull.2⟩]
    · rw [if_neg (by omega), if_neg fun h => he h.1]
  · obtain ⟨n, hchars, ⟨x, hx, habs⟩, hdecimal⟩ :=
      exists_numeral_withExponent ha0 hdigits (e + (ds.length + 1 : Nat))
    have hlength : ds.length ≤ 17 := by
      have hdigits17 := (Nat.length_toDigits_le_iff (b := 10) (by decide) (by decide : 0 < 18)).2
        (hle.trans_lt (by decide))
      rw [htext, List.length_cons, List.length_map] at hdigits17
      omega
    rw [hself] at hdecimal
    rw [if_neg hfull, if_neg (by omega)]
    refine ⟨n, hchars, .inr (by rw [hx]; exact Option.some_ne_none x), fun y hy => ?_, hdecimal⟩
    obtain rfl : x = y := Option.some.inj (hx.symm.trans hy)
    omega

/-- **The text of a decimal is a numeral** that fits and writes it. -/
theorem exists_numeral_decimalChars {d : Decimal} (hpos : 0 < d.significand)
    (hle : d.significand ≤ 10 ^ 17) (hmin : -400 ≤ d.exponent) (hmax : d.exponent ≤ 400) :
    ∃ n : Numeral, n.unsignedChars = FloatStyle.record.decimalChars d ∧ n.Fits ∧
      n.decimal = d.written := by
  obtain ⟨n, hchars, htail, hexponent, hdecimal⟩ := exists_numeral_written hpos hle hmin hmax
  have hsignificand := d.significand_written_le hle
  have hpower := d.exponent_written
  refine ⟨n, hchars, ⟨htail, ?_, fun x hx => (hexponent x hx).trans_lt (by decide), ?_⟩, hdecimal⟩
  · rw [hdecimal]
    exact hsignificand.trans_lt (by decide)
  · rw [hdecimal]
    omega

end Json

/-! ### Doubles -/

/-- **The decimal that the text of a double writes**, but for its sign. -/
def Decimal.writtenFor (r : Nat) : Decimal := if r = 0 then ⟨0, -1⟩ else (shortest r).written

/-- No power is left but that of a decimal with an exponent in its text. -/
theorem Decimal.writtenFor_of_nonneg {r : Nat} (h : 0 ≤ (writtenFor r).exponent) :
    r ≠ 0 ∧ writtenFor r = shortest r := by
  rw [writtenFor] at h ⊢
  by_cases hzero : r = 0
  · rw [if_pos hzero] at h
    exact absurd h (show ¬(0 : Int) ≤ -1 by decide)
  · rw [if_neg hzero, written] at h ⊢
    split
    · rename_i hfull
      rw [if_pos hfull] at h
      exact absurd h (show ¬(0 : Int) ≤ -1 by decide)
    · exact ⟨hzero, rfl⟩

/-- A finite double comes before infinity. -/
theorem Binary64.lt_infiniteRank {s : Bool} {r : Rank} (h : (signed s r).isFinite = true) :
    r.val < infiniteRank := by
  refine lt_of_le_of_ne (Nat.le_of_lt_succ r.isLt) fun hr => ?_
  simp [isFinite, isInfinite, hr] at h

namespace Json

/-- **The text of a finite double is a numeral** that fits and writes that decimal. -/
theorem exists_numeral_realChars (s : Bool) {r : Rank} (hr : r.val < infiniteRank) :
    ∃ n : Numeral, n.chars = realChars (.signed s r) ∧ n.negative = s ∧ n.Fits ∧
      n.decimal = Decimal.writtenFor r.val := by
  have hfinite : (Binary64.signed s r).isFinite = true := by
    simp [Binary64.isFinite, Binary64.isNaN, Binary64.isInfinite, hr.ne]
  have hchars : realChars (.signed s r) = (if s then ['-'] else []) ++
      (if r.val = 0 then ['0', '.', '0']
        else FloatStyle.record.decimalChars (Decimal.shortest r.val)) := by
    rw [realChars, if_pos hfinite, FloatStyle.chars, if_neg hr.ne]
    split <;> rfl
  rw [hchars, Decimal.writtenFor]
  by_cases hzero : r.val = 0
  · rw [if_pos hzero, if_pos hzero]
    have hfits : Numeral.Fits ⟨s, ⟨[0], by decide, by decide⟩, some ⟨[0], by decide, by decide⟩,
        none, fun _ => rfl⟩ := by
      refine ⟨.inl (Option.some_ne_none _), ?_,
        fun _ hx => absurd hx.symm (Option.some_ne_none _), ?_⟩
      · show 0 < Nat.pow 2 64
        decide
      · show -2147483648 ≤ (-1 : Int) ∧ (-1 : Int) ≤ 2147483647
        decide
    exact ⟨_, rfl, rfl, hfits, rfl⟩
  · have hnear := Decimal.near_shortest (Nat.pos_of_ne_zero hzero)
    have hmin := hnear.lt_exponent
    have hmax : (Decimal.shortest r.val).exponent ≤ 400 := by
      by_cases he : 0 ≤ (Decimal.shortest r.val).exponent
      · exact (hnear.toNat_le hr he).2.trans (by decide)
      · omega
    obtain ⟨n, hn, hfits, hdecimal⟩ := exists_numeral_decimalChars hnear.significand_pos
      hnear.significand_le (by omega) hmax
    rw [if_neg hzero, if_neg hzero, ← hn]
    exact ⟨{ n with negative := s }, rfl, rfl, ⟨hfits.1, hfits.2, hfits.3, hfits.4⟩, hdecimal⟩

end Json

open Json

/-- **What is worked out of a decimal**, in doubles: a quotient or a product of its digits and the
power of ten. -/
def Decimal.workedOut (d : Decimal) : Binary64 :=
  if d.exponent < 0 then shrunk (.ofNat d.significand) d.exponent.natAbs
  else (Binary64.ofNat d.significand).mul (.ofNat (Nat.pow 10 d.exponent.toNat))

/-- **The decimal in the text of a finite double can be worked out**: either it is divided by a
power of ten, or the power keeps the product finite. -/
theorem scaled_writtenFor (positive : Bool) {r : Nat} (hr : r < infiniteRank) (rest : Octets) :
    scaled positive (Decimal.writtenFor r).significand (Decimal.writtenFor r).exponent rest =
      .ok (withSign positive (Decimal.writtenFor r).workedOut, rest) := by
  rw [scaled, Decimal.workedOut]
  split
  · rfl
  · rename_i hneg
    obtain ⟨hzero, hself⟩ := Decimal.writtenFor_of_nonneg (Int.not_lt.1 hneg)
    rw [hself] at hneg ⊢
    have hpos := Nat.pos_of_ne_zero hzero
    have hnear := Decimal.near_shortest hpos
    have hproduct := Decimal.isInfinite_mul_shortest hpos hr (Int.not_lt.1 hneg)
    have hle := (hnear.toNat_le hr (Int.not_lt.1 hneg)).2
    rw [if_neg hnear.significand_pos.ne', if_neg (Int.not_lt.2 hle)]
    exact if_neg ((Bool.not_eq_true _).mpr hproduct)

/-- **The text of every finite double is read as a double**, though not always as the same one. -/
theorem readReal_realChars (s : Bool) {r : Rank} (hr : r.val < infiniteRank) :
    readReal (octetsOfChars (realChars (.signed s r))) =
      .ok (withSign (!s) (Decimal.writtenFor r.val).workedOut, []) := by
  obtain ⟨n, hn, rfl, hfits, hdecimal⟩ := exists_numeral_realChars s hr
  rw [← hn, ← List.append_nil (octetsOfChars n.chars), readReal, n.readNum_append,
    hfits.readNumber_eq _ ⟨rfl, rfl⟩, hdecimal, scaled_writtenFor _ hr]
  rfl

/-- **The double that is read** where one has been written. There is none where `null` has been
written in its place. -/
def Binary64.reread (x : Binary64) : Option Binary64 :=
  if x.isFinite then (readReal (octetsOfChars (realChars x))).toOption.map Prod.fst else none

/-- For a finite double it is worked out of the decimal in the text. -/
theorem Binary64.reread_signed {s : Bool} {r : Rank} (hx : (signed s r).isFinite = true) :
    (signed s r).reread = some (withSign (!s) (Decimal.writtenFor r.val).workedOut) := by
  rw [reread, if_pos hx, readReal_realChars s (lt_infiniteRank hx)]
  rfl

/-- A double is read for every finite one. -/
theorem Binary64.isSome_reread (x : Binary64) : x.reread.isSome = x.isFinite := by
  cases hx : x.isFinite with
  | true =>
    cases x with
    | nan => cases hx
    | signed s r => rw [reread_signed hx, Option.isSome_some]
  | false =>
    rw [reread, hx]
    rfl

/-- One that comes back is the one that is read. -/
theorem Binary64.ReadsBack.reread_eq {x : Binary64} (hx : x.ReadsBack) : x.reread = some x := by
  rw [reread, if_pos hx.1, hx.2]
  rfl

end Telemetry
